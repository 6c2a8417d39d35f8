import GrammarText.Proofs.Text.Token
import GrammarText.Proofs.Toml.Library
import GrammarText.Toml.Expression
import Mathlib.Data.Bool.AllAny

/-!
Values of a document that are neither quoted nor bracketed.

- `number?_toString`: an integer is read from the way it is written.
- `readScalar_word`: a value of these is read up to what may stand behind it.
- `readValue_plain`, `readValue_scalar`: where the first character of a value leads.
-/

namespace GrammarText.Toml

/-! ## Integers -/

theorem ungroup?_digits {digits : List Char} (hne : digits ≠ [])
    (h : ∀ c ∈ digits, c.isDigit = true) : ungroup? Char.isDigit digits = some digits := by
  induction digits with
  | nil => exact absurd rfl hne
  | cons c rest ih =>
    obtain ⟨hc, hrest⟩ := List.forall_mem_cons.mp h
    cases rest with
    | nil => rw [ungroup?, if_pos hc]
    | cons d rest =>
      have hd : d ≠ '_' := by
        rintro rfl
        exact absurd (hrest '_' List.mem_cons_self) (by decide)
      rw [ungroup?.eq_4 _ _ _ (by simp) (by simp [hd]), if_pos hc, ih (List.cons_ne_nil d rest) hrest]
      rfl

/-- A number other than zero is written without a zero in front. -/
theorem toDigits_head {n : Nat} (hn : 0 < n) (rest : List Char) :
    Nat.toDigits 10 n ≠ '0' :: rest := by
  induction n using Nat.base_induction 10 (by decide) generalizing rest with
  | single n hlt =>
    rw [Nat.toDigits_of_lt_base hlt]
    intro h
    have hdigit : ∀ m < 10, 0 < m → m.digitChar ≠ '0' := by decide
    exact hdigit n hlt hn (List.cons.inj h).1
  | digit n d hd hpos ih =>
    rw [← Nat.toDigits_append_toDigits (by decide) hpos hd]
    obtain ⟨c, cs, hcs⟩ := List.exists_cons_of_ne_nil (Nat.toDigits_ne_nil (n := n) (b := 10))
    intro h
    rw [hcs, List.cons_append, List.cons.injEq] at h
    exact ih hpos cs (h.1 ▸ hcs)

theorem wholeDigits?_toDigits (n : Nat) :
    wholeDigits? (Nat.toDigits 10 n) = some (Nat.toDigits 10 n) := by
  have hread := ungroup?_digits (Nat.toDigits_ne_nil (n := n) (b := 10))
    fun c hc => Nat.isDigit_of_mem_toDigits (by decide) (by decide) hc
  rw [wholeDigits?, hread]
  split
  · rename_i h
    rw [Option.some.inj h]
  · rename_i rest hzero h
    rcases Nat.eq_zero_or_pos n with rfl | hn
    · rw [Nat.toDigits_zero, Option.some.injEq, List.cons.injEq] at h
      exact absurd h.2.symm hzero
    · exact absurd (Option.some.inj h) (toDigits_head hn rest)
  · rfl

theorem digitsVal_toDigits (n : Nat) : digitsVal (Nat.toDigits 10 n) = n :=
  (Nat.ofDigitChars_eq_foldl).symm.trans Nat.ofDigitChars_ten_toDigits

theorem number?_digits (n : Nat) :
    number? (Nat.toDigits 10 n) = some (.integer n) ∧
      number? ('-' :: Nat.toDigits 10 n) = some (.integer (-(n : Int))) := by
  have hdigit : ∀ c ∈ Nat.toDigits 10 n, c.isDigit = true := fun c hc =>
    Nat.isDigit_of_mem_toDigits (by decide) (by decide) hc
  constructor
  · unfold number?
    split
    · rename_i digits h
      exact absurd (hdigit 'x' (h ▸ by simp)) (by decide)
    · rename_i digits h
      exact absurd (hdigit 'o' (h ▸ by simp)) (by decide)
    · rename_i digits h
      exact absurd (hdigit 'b' (h ▸ by simp)) (by decide)
    · have hsign : splitSign (Nat.toDigits 10 n) = (none, Nat.toDigits 10 n) := by
        unfold splitSign
        split
        · rename_i rest h
          exact absurd (hdigit '+' (h ▸ by simp)) (by decide)
        · rename_i rest h
          exact absurd (hdigit '-' (h ▸ by simp)) (by decide)
        · rfl
      simp [hsign, wholeDigits?_toDigits, digitsVal_toDigits]
  · simp [number?, splitSign, wholeDigits?_toDigits, digitsVal_toDigits]

theorem number?_toString (n : Int) : number? (toString n).toList = some (.integer n) := by
  cases n with
  | ofNat m =>
    rw [Text.toList_ofNat, (number?_digits m).1]
    rfl
  | negSucc m =>
    rw [Text.toList_negSucc, (number?_digits (m + 1)).2]
    rfl

theorem scalar?_toString (n : Int) : scalar? (toString n).toList = some (.integer n) := by
  obtain ⟨c, cs, hcs, hc⟩ := Text.number_head n
  have hother : ∀ d ds, Text.isNumberChar d = false → (toString n).toList ≠ d :: ds := by
    intro d ds hd h
    rw [hcs] at h
    rw [(List.cons.inj h).1, hd] at hc
    cases hc
  rw [scalar?, if_neg (hother 't' _ (by decide)), if_neg (hother 'f' _ (by decide)),
    number?_toString]

/-! ## Behind a value -/

theorem readScalar_word {word rest : List Char} (hword : ∀ c ∈ word, endsScalar c = false)
    (hrest : AfterValue rest) :
    readScalar (word ++ rest) = (scalar? word).map fun v => (v, rest) := by
  have hclass : ∀ c ∈ word, (!endsScalar c) = true := fun c hc => by simp [hword c hc]
  have hends : Text.EndsClass (!endsScalar ·) rest := by
    intro c hc
    cases hrest <;> cases hc <;> decide
  have hsplit : splitScalar (word ++ rest) = (word, rest) := by
    simp only [splitScalar, Text.takeWhile_of_class hclass hends,
      Text.dropWhile_of_class hclass hends]
    cases hrest with
    | nil | comma | bracket => rfl
    | brace rest =>
      have hbrace : (isDate word && Char.isDigit '\x7d') = false := by
        rw [show Char.isDigit '\x7d' = false from rfl, Bool.and_false]
      simp only [hbrace, Bool.false_eq_true, if_false]
  simp only [readScalar, hsplit]

/-- A value without brackets or braces in front has the same form at every depth. -/
theorem readValue_plain {c : Char} (hc : c ∉ ['[', '\x7b']) (depth : Nat) (cs : List Char) :
    readValue depth (c :: cs) = readValue 0 (c :: cs) := by
  simp only [List.mem_cons, List.not_mem_nil, or_false, not_or] at hc
  cases depth with
  | zero => rfl
  | succ depth =>
    rw [readValue.eq_2]
    dsimp only
    split
    · exact absurd (List.cons.inj ‹_›).1 hc.1
    · exact absurd (List.cons.inj ‹_›).1 hc.2
    · rfl

theorem readValue_zero_scalar {c : Char} (hc : c ∉ ['"', '\x27']) (cs : List Char) :
    readValue 0 (c :: cs) = readScalar (c :: cs) := by
  simp only [List.mem_cons, List.not_mem_nil, or_false, not_or] at hc
  rw [readValue.eq_1]
  dsimp only
  split
  · exact absurd (List.cons.inj ‹_›).1 hc.1
  · exact absurd (List.cons.inj ‹_›).1 hc.2
  · rfl

theorem readValue_scalar {c : Char} (hc : c ∉ ['"', '\x27', '[', '\x7b']) (depth : Nat)
    (cs : List Char) : readValue depth (c :: cs) = readScalar (c :: cs) := by
  obtain ⟨hquote, hbracket⟩ : c ∉ ['"', '\x27'] ∧ c ∉ ['[', '\x7b'] := by
    rw [← not_or, ← List.mem_append]
    exact hc
  rw [readValue_plain hbracket, readValue_zero_scalar hquote]

/-! ## Words -/

theorem not_mem_of_endsScalar {c : Char} (hc : endsScalar c = false) {cs : List Char}
    (hcs : cs.all endsScalar = true) : c ∉ cs := fun h =>
  Bool.false_ne_true (hc.symm.trans (List.all_eq_true.mp hcs c h))

theorem number_in_scalar {c : Char} (hc : Text.isNumberChar c = true) : endsScalar c = false := by
  have hends : ∀ d ∈ " \t\r\n,[]\x7b\x7d=#\"\x27".toList, Text.isNumberChar d = false :=
    List.all_iff_forall_prop.mp (by decide)
  rw [endsScalar, decide_eq_false_iff_not]
  exact fun h => Bool.false_ne_true ((hends c h).symm.trans hc)

/-- A word before the end of a value is read as a whole. -/
theorem readValue_word (depth : Nat) {word rest : List Char} (hne : word ≠ [])
    (hword : ∀ c ∈ word, endsScalar c = false) (hrest : AfterValue rest) :
    readValue depth (word ++ rest) = (scalar? word).map fun v => (v, rest) := by
  obtain ⟨c, text, rfl⟩ := List.exists_cons_of_ne_nil hne
  have hc : c ∉ ['"', '\x27', '[', '\x7b'] :=
    not_mem_of_endsScalar (hword c List.mem_cons_self) (by decide)
  rw [List.cons_append, readValue_scalar hc, ← List.cons_append, readScalar_word hword hrest]

end GrammarText.Toml
