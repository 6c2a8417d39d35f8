import GrammarText.Proofs.Toml.Library
import GrammarText.Text.Shown

/-!
Shown texts as TOML reads them.

A text is shown with the escapes that a reader of a program knows. TOML has the same ones for quotes,
backslashes and the usual blanks; for all other characters that need one, the two have none in common.

- `isReadable`: the characters that TOML reads as they are shown.
- `quoted_shown`: of these a text is read again. `shown_noEscape`: any other text has an escape in it
  that is none.
-/

namespace GrammarText.Text

open Toml (isTextChar Quoted NoEscape shortEscapes)

/-- A character that is shown with an escape that TOML has, or as it is. -/
def isReadable (c : Char) : Bool :=
  c ∈ ['\t', '\r', '\n', '"', '\\'] || !(isCombining c || !isPrintable c)

theorem printable_isTextChar {c : Char} (h : isPrintable c = true) : isTextChar c = true := by
  have hranges : ∀ r ∈ printableRanges, 0x20 ≤ r.1 ∧ (r.2 < 0x7f ∨ 0x7f < r.1) := by
    decide +kernel
  obtain ⟨r, hr, hc⟩ := List.any_eq_true.mp h
  obtain ⟨hlow, hdelete⟩ := hranges r hr
  simp only [Bool.and_eq_true, decide_eq_true_eq] at hc
  simp only [isTextChar, Bool.or_eq_true, Bool.and_eq_true, decide_eq_true_eq, bne_iff_ne]
  omega

/-! ## One character -/

theorem quoted_shownChar {c : Char} (h : isReadable c = true) : Quoted (shownChar c) [c] := by
  by_cases hshort : c ∈ ['\t', '\r', '\n', '"', '\\']
  · simp only [List.mem_cons, List.not_mem_nil, or_false] at hshort
    rcases hshort with rfl | rfl | rfl | rfl | rfl
    · exact .escape (d := 't') (by decide) .nil
    · exact .escape (d := 'r') (by decide) .nil
    · exact .escape (d := 'n') (by decide) .nil
    · exact .escape (d := '"') (by decide) .nil
    · exact .escape (d := '\\') (by decide) .nil
  · have hseen : (isCombining c || !isPrintable c) = false := by
      simpa [isReadable, hshort] using h
    have htext : isTextChar c = true :=
      printable_isTextChar (by simpa using (Bool.or_eq_false_iff.mp hseen).2)
    have hnul : c ≠ '\x00' := by
      rintro rfl
      exact absurd htext (by decide)
    simp only [List.mem_cons, List.not_mem_nil, or_false, not_or] at hshort
    obtain ⟨htab, hreturn, hbreak, hquote, hslash⟩ := hshort
    rw [shownChar, if_neg hnul, if_neg htab, if_neg hreturn, if_neg hbreak, if_neg hquote,
      if_neg hslash, hseen, if_neg Bool.false_ne_true]
    exact .plain htext hquote hslash .nil

/-- TOML has no escape for NUL by a digit, and none with braces. -/
theorem shownChar_noEscape {c : Char} (h : isReadable c = false) :
    ∃ escape, shownChar c = '\\' :: escape ∧ ∀ rest, NoEscape (escape ++ rest) := by
  obtain ⟨hshort, hseen⟩ := Bool.or_eq_false_iff.mp h
  have hseen : (isCombining c || !isPrintable c) = true := by
    rw [← Bool.not_eq_false', hseen]
  have hshort : c ∉ ['\t', '\r', '\n', '"', '\\'] := by simpa using hshort
  simp only [List.mem_cons, List.not_mem_nil, or_false, not_or] at hshort
  obtain ⟨htab, hreturn, hbreak, hquote, hslash⟩ := hshort
  by_cases hnul : c = '\x00'
  · exact ⟨['0'], by rw [hnul]; rfl, .zero⟩
  · refine ⟨'u' :: '\x7b' :: (hexNumber c.toNat ++ ['\x7d']), ?_, fun rest => .brace _⟩
    rw [shownChar, if_neg hnul, if_neg htab, if_neg hreturn, if_neg hbreak, if_neg hquote,
      if_neg hslash, if_pos hseen]
    rfl

theorem shownChar_ne_nil (c : Char) : shownChar c ≠ [] := by
  cases h : isReadable c with
  | true =>
    intro hnil
    have hquoted := quoted_shownChar h
    rw [hnil] at hquoted
    cases hquoted
  | false =>
    obtain ⟨escape, hshown, -⟩ := shownChar_noEscape h
    simp [hshown]

/-! ## Texts -/

theorem quoted_append {written written' text text' : List Char} (h : Quoted written text)
    (h' : Quoted written' text') : Quoted (written ++ written') (text ++ text') := by
  induction h with
  | nil => exact h'
  | plain hc hquote hslash _ ih => exact .plain hc hquote hslash ih
  | escape hescape _ ih => exact .escape hescape ih

theorem quoted_shown {cs : List Char} (h : cs.all isReadable = true) :
    Quoted (cs.flatMap shownChar) cs := by
  induction cs with
  | nil => exact .nil
  | cons c cs ih =>
    rw [List.all_cons, Bool.and_eq_true] at h
    exact quoted_append (quoted_shownChar h.1) (ih h.2)

/-- In front of the first escape that is none, the text could be read. -/
theorem shown_noEscape {cs : List Char} (h : cs.all isReadable = false) :
    ∃ written text escape, cs.flatMap shownChar = written ++ '\\' :: escape ∧
      Quoted written text ∧ ∀ rest, NoEscape (escape ++ rest) := by
  induction cs with
  | nil => cases h
  | cons c cs ih =>
    cases hc : isReadable c with
    | false =>
      obtain ⟨escape, hshown, hnone⟩ := shownChar_noEscape hc
      refine ⟨[], [], escape ++ cs.flatMap shownChar, ?_, .nil, fun rest => ?_⟩
      · rw [List.flatMap_cons, hshown]
        rfl
      · rw [List.append_assoc]
        exact hnone _
    | true =>
      rw [List.all_cons, hc, Bool.true_and] at h
      obtain ⟨written, text, escape, hrest, hquoted, hnone⟩ := ih h
      refine ⟨shownChar c ++ written, [c] ++ text, escape, ?_,
        quoted_append (quoted_shownChar hc) hquoted, hnone⟩
      rw [List.flatMap_cons, hrest, List.append_assoc]

theorem toList_shown (s : String) :
    (shown s).toList = '"' :: (s.toList.flatMap shownChar ++ ['"']) := by
  simp [shown]

/-- The quotes make a shown text longer than the text. -/
theorem length_lt_shown (s : String) : s.toList.length < (shown s).toList.length := by
  have hle : ∀ cs : List Char, cs.length ≤ (cs.flatMap shownChar).length := by
    intro cs
    induction cs with
    | nil => exact Nat.le_refl 0
    | cons c cs ih =>
      have hpos := List.length_pos_iff.mpr (shownChar_ne_nil c)
      rw [List.flatMap_cons, List.length_append, List.length_cons]
      omega
  have hbody := hle s.toList
  rw [toList_shown, List.length_cons, List.length_append]
  omega

end GrammarText.Text
