import GrammarText.Text.Blank
import Mathlib.Data.List.DropRight

/-!
Texts that are lines, each with a line feed behind it.

- `cut_eq`: a text is cut at characters as a list is cut at elements.
- `cutLines_terminated`: cut at its line feeds, such a text gives the lines again, and an empty rest
  behind the last line feed. `cutLines_intercalate`: the lines of texts that are joined are theirs,
  with those between them.
- `IsFlush`: a line that is empty or begins with a character that is no blank.
- `cutLines_trimChars`: of flush lines, trimming the text takes empty ones at its two ends, and the
  blanks at the end of the last line that is not empty. All other lines stay whole.
-/

namespace GrammarText.Text

/-! ## Cutting into lines -/

/-- The lines, with a line feed behind each. -/
def terminated (ls : List (List Char)) : List Char := ls.flatMap (· ++ ['\n'])

/-- The pieces of a text between its line feeds. -/
def cutLines (cs : List Char) : List (List Char) := cut (· == '\n') cs

theorem terminated_append (ls ms : List (List Char)) :
    terminated (ls ++ ms) = terminated ls ++ terminated ms := List.flatMap_append

theorem terminated_concat (ls : List (List Char)) (l : List Char) :
    terminated (ls ++ [l]) = terminated ls ++ (l ++ ['\n']) := by
  simp [terminated]

theorem cutAux_eq (isEnd : Char → Bool) (piece cs : List Char) :
    cutAux isEnd piece cs = cs.splitOnPPrepend isEnd piece := by
  induction cs generalizing piece with
  | nil => rfl
  | cons c cs ih => rw [cutAux, List.splitOnPPrepend, ih, ih]

theorem cut_eq (isEnd : Char → Bool) (cs : List Char) : cut isEnd cs = cs.splitOnP isEnd :=
  cutAux_eq isEnd [] cs

theorem not_break_of_not_mem {l : List Char} (h : '\n' ∉ l) : ∀ c ∈ l, (c == '\n') = false := by
  intro c hc
  rw [beq_eq_false_iff_ne]
  rintro rfl
  exact h hc

theorem cutLines_of_not_mem {l : List Char} (h : '\n' ∉ l) : cutLines l = [l] := by
  rw [cutLines, cut_eq, List.splitOnP_eq_singleton (not_break_of_not_mem h)]

/-- At a line feed a text is cut into the lines before it and the lines behind it. -/
theorem cutLines_append_cons (before rest : List Char) :
    cutLines (before ++ '\n' :: rest) = cutLines before ++ cutLines rest := by
  rw [cutLines, cutLines, cutLines, cut_eq, cut_eq, cut_eq]
  exact List.splitOnP_append_cons before rest (by decide)

theorem cutLines_cons {l : List Char} (h : '\n' ∉ l) (rest : List Char) :
    cutLines (l ++ '\n' :: rest) = l :: cutLines rest := by
  rw [cutLines_append_cons, cutLines_of_not_mem h, List.singleton_append]

theorem cutLines_terminated_append {ls : List (List Char)} (hl : ∀ l ∈ ls, '\n' ∉ l)
    (rest : List Char) : cutLines (terminated ls ++ rest) = ls ++ cutLines rest := by
  induction ls with
  | nil => rfl
  | cons l ls ih =>
    rw [List.forall_mem_cons] at hl
    have hsplit : terminated (l :: ls) ++ rest = l ++ '\n' :: (terminated ls ++ rest) := by
      simp [terminated]
    rw [hsplit, cutLines_cons hl.1, ih hl.2, List.cons_append]

theorem cutLines_terminated {ls : List (List Char)} {rest : List Char}
    (hl : ∀ l ∈ ls, '\n' ∉ l) (hr : '\n' ∉ rest) :
    cutLines (terminated ls ++ rest) = ls ++ [rest] := by
  rw [cutLines_terminated_append hl, cutLines_of_not_mem hr]

/-- The lines make up the text. -/
theorem intercalate_cutLines (cs : List Char) : ['\n'].intercalate (cutLines cs) = cs := by
  rw [cutLines, cut_eq]
  exact List.intercalate_splitOn '\n'

/-- Texts with lines between every two of them. -/
theorem cutLines_intercalate {between : List (List Char)} (hb : ∀ l ∈ between, '\n' ∉ l)
    {texts : List (List Char)} (hne : texts ≠ []) :
    cutLines (('\n' :: terminated between).intercalate texts)
      = between.intercalate (texts.map cutLines) := by
  induction texts with
  | nil => exact absurd rfl hne
  | cons text rest ih =>
    cases rest with
    | nil => rw [List.intercalate_singleton, List.map_singleton, List.intercalate_singleton]
    | cons next rest =>
      rw [List.intercalate_cons_cons, List.append_assoc, List.cons_append, cutLines_append_cons,
        cutLines_terminated_append hb, ih (List.cons_ne_nil next rest)]
      simp only [List.map_cons, List.intercalate_cons_cons, List.append_assoc]

/-! ## Trimming -/

/-- The line is empty or begins with a character that is no blank. -/
def IsFlush (l : List Char) : Prop := ∀ c ∈ l.head?, isBlank c = false

/-- The lines with the blanks at the end of the last one left out. -/
def trimLast (ls : List (List Char)) : List (List Char) :=
  ls.dropLast ++ ls.getLast?.toList.map (·.rdropWhile isBlank)

theorem trimLast_concat (ls : List (List Char)) (l : List Char) :
    trimLast (ls ++ [l]) = ls ++ [l.rdropWhile isBlank] := by
  simp [trimLast]

theorem trimChars_eq (cs : List Char) :
    trimChars cs = (cs.dropWhile isBlank).rdropWhile isBlank := rfl

theorem rdropWhile_append_blanks {bs : List Char} (h : ∀ c ∈ bs, isBlank c = true)
    (cs : List Char) : (cs ++ bs).rdropWhile isBlank = cs.rdropWhile isBlank := by
  rw [List.rdropWhile, List.reverse_append,
    List.dropWhile_append_of_pos fun c hc => h c (List.mem_reverse.mp hc)]
  rfl

theorem rdropWhile_append_kept {ds : List Char} (h : ds.rdropWhile isBlank ≠ []) (cs : List Char) :
    (cs ++ ds).rdropWhile isBlank = cs ++ ds.rdropWhile isBlank := by
  have hne : (ds.reverse.dropWhile isBlank).isEmpty ≠ true := by
    intro he
    exact h (by rw [List.rdropWhile, List.isEmpty_iff.mp he]; rfl)
  rw [List.rdropWhile, List.reverse_append, List.dropWhile_append, if_neg hne, List.reverse_append,
    List.reverse_reverse]
  rfl

theorem trimChars_append_blanks {bs : List Char} (h : ∀ c ∈ bs, isBlank c = true)
    (cs : List Char) : trimChars (cs ++ bs) = trimChars cs := by
  rw [trimChars_eq, trimChars_eq, List.dropWhile_append]
  split
  · rename_i he
    rw [List.isEmpty_iff.mp he, List.dropWhile_eq_nil_iff.mpr h]
  · exact rdropWhile_append_blanks h _

theorem dropWhile_of_no_blank {cs : List Char} (h : ∀ c ∈ cs, isBlank c = false) :
    cs.dropWhile isBlank = cs := by
  cases cs with
  | nil => rfl
  | cons c cs => rw [List.dropWhile_cons_of_neg (by simp [h c List.mem_cons_self])]

theorem trimChars_of_no_blank {cs : List Char} (h : ∀ c ∈ cs, isBlank c = false) :
    trimChars cs = cs := by
  have hback : ∀ c ∈ cs.reverse, isBlank c = false := fun c hc => h c (List.mem_reverse.mp hc)
  rw [trimChars, dropWhile_of_no_blank h, dropWhile_of_no_blank hback, List.reverse_reverse]

theorem not_blank_of_bounds {c : Char} (hl : 33 ≤ c.toNat) (hu : c.toNat ≤ 132) :
    isBlank c = false := by
  have hout : ∀ r ∈ blankRanges, r.2 < 33 ∨ 132 < r.1 := by decide
  rw [isBlank, List.any_eq_false]
  intro r hr
  have := hout r hr
  simp only [Bool.and_eq_true, decide_eq_true_eq]
  omega

theorem break_is_blank : ∀ c ∈ ['\n'], isBlank c = true :=
  List.forall_mem_singleton.mpr (by decide)

/-- A flush line that is not empty holds a character that is no blank. -/
theorem IsFlush.not_blank {l : List Char} (h : IsFlush l) (hne : l ≠ []) :
    l.all isBlank = false := by
  obtain ⟨c, cs, rfl⟩ := List.exists_cons_of_ne_nil hne
  rw [List.all_cons, h c rfl, Bool.false_and]

theorem IsFlush.blank_iff {l : List Char} (h : IsFlush l) : l.all isBlank = l.isEmpty := by
  cases l with
  | nil => rfl
  | cons c cs => rw [h.not_blank (List.cons_ne_nil c cs), List.isEmpty_cons]

theorem rdropWhile_ne_nil {l : List Char} (h : l.all isBlank = false) :
    l.rdropWhile isBlank ≠ [] := by
  intro he
  rw [List.rdropWhile_eq_nil_iff, ← List.all_eq_true, h] at he
  cases he

theorem rdropWhile_not_blank {l : List Char} (h : l.all isBlank = false) :
    (l.rdropWhile isBlank).all isBlank = false := by
  cases hall : (l.rdropWhile isBlank).all isBlank with
  | false => rfl
  | true =>
    have hnil := List.rdropWhile_eq_nil_iff.mpr (List.all_eq_true.mp hall)
    rw [List.rdropWhile_idempotent] at hnil
    exact absurd hnil (rdropWhile_ne_nil h)

/-- Before a character that is no blank, only empty lines are trimmed. -/
theorem dropWhile_terminated {ls : List (List Char)} {rest : List Char}
    (hl : ∀ l ∈ ls, IsFlush l) (hne : rest ≠ []) (hr : IsFlush rest) :
    (terminated ls ++ rest).dropWhile isBlank = terminated (ls.dropWhile List.isEmpty) ++ rest := by
  induction ls with
  | nil =>
    obtain ⟨c, cs, rfl⟩ := List.exists_cons_of_ne_nil hne
    exact List.dropWhile_cons_of_neg (by simp [hr c rfl])
  | cons l ls ih =>
    rw [List.forall_mem_cons] at hl
    cases l with
    | nil => exact ih hl.2
    | cons c cs =>
      have hc : isBlank c = false := hl.1 c rfl
      simp [terminated, hc]

theorem filter_dropWhile_empty (ls : List (List Char)) :
    (ls.dropWhile List.isEmpty).filter (!·.isEmpty) = ls.filter (!·.isEmpty) := by
  induction ls with
  | nil => rfl
  | cons l ls ih => cases l <;> simp [ih]

theorem filter_not_blank {ls : List (List Char)} (h : ∀ l ∈ ls, IsFlush l) :
    ls.filter (!·.all isBlank) = ls.filter (!·.isEmpty) :=
  List.filter_congr fun l hl => by rw [(h l hl).blank_iff]

/-- Of lines that are flush, trimming leaves those that are not empty; the last one of them loses
the blanks at its end. -/
theorem cutLines_trimChars {ls : List (List Char)} (hbreak : ∀ l ∈ ls, '\n' ∉ l)
    (hflush : ∀ l ∈ ls, IsFlush l) :
    (cutLines (trimChars (terminated ls))).filter (!·.all isBlank)
      = trimLast (ls.filter (!·.isEmpty)) := by
  induction ls using List.reverseRecOn with
  | nil => rfl
  | append_singleton ls l ih =>
    rw [List.forall_mem_append, List.forall_mem_singleton] at hbreak hflush
    obtain ⟨hbreaks, hl⟩ := hbreak
    obtain ⟨hflushes, hf⟩ := hflush
    by_cases he : l = []
    · subst he
      rw [terminated_concat, List.nil_append, trimChars_append_blanks break_is_blank,
        ih hbreaks hflushes]
      simp
    · have hkept : l.all isBlank = false := hf.not_blank he
      have hstart : IsFlush (l ++ ['\n']) := by
        obtain ⟨c, cs, rfl⟩ := List.exists_cons_of_ne_nil he
        exact hf
      have htrim : trimChars (terminated (ls ++ [l]))
          = terminated (ls.dropWhile List.isEmpty) ++ l.rdropWhile isBlank := by
        rw [terminated_concat, trimChars_eq, dropWhile_terminated hflushes (by simp) hstart,
          ← List.append_assoc, rdropWhile_append_blanks break_is_blank,
          rdropWhile_append_kept (rdropWhile_ne_nil hkept)]
      have hdropped : ∀ l' ∈ ls.dropWhile List.isEmpty, l' ∈ ls :=
        (List.dropWhile_sublist _).subset
      have hend : '\n' ∉ l.rdropWhile isBlank := fun hm =>
        hl ((List.rdropWhile_prefix isBlank l).subset hm)
      rw [htrim, cutLines_terminated (fun l' hl' => hbreaks l' (hdropped l' hl')) hend,
        List.filter_append, filter_not_blank fun l' hl' => hflushes l' (hdropped l' hl'),
        filter_dropWhile_empty, List.filter_append]
      simp [he, rdropWhile_not_blank hkept, trimLast_concat]

end GrammarText.Text
