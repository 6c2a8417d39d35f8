import GrammarText.Name

/-!
The two classes of names.

- `NameClass.IsLetter`: the letters of a class. `not_other_letter`: what may stand in its names is
  no letter of the other class.
- `identifierProblem?_eq_none`: an identifier is a start character and name characters behind it.
- `isRuleName_iff`, `isTerminalName_iff`: a name is an identifier whose letters are of one case, one
  at least.
- `rule_not_terminal`: no name is in both classes. So a name has one class at most
  (`admits_unique`).
- `NameClass.Spells`: the spelling of the names of a class, said without the checks.
  `admits_iff_spells`: the checks admit what is spelled so.
- `of?_eq_some`: a name has the class that admits it.
-/

namespace GrammarText

/-! ## Characters -/

/-- The letters that the names of a class are written with. -/
def NameClass.IsLetter : NameClass → Char → Prop
  | .rule, c => 'a' ≤ c ∧ c ≤ 'z'
  | .terminal, c => 'A' ≤ c ∧ c ≤ 'Z'

instance : (k : NameClass) → DecidablePred k.IsLetter
  | .rule => fun c => inferInstanceAs (Decidable ('a' ≤ c ∧ c ≤ 'z'))
  | .terminal => fun c => inferInstanceAs (Decidable ('A' ≤ c ∧ c ≤ 'Z'))

def NameClass.other : NameClass → NameClass
  | .rule => .terminal
  | .terminal => .rule

variable {k : NameClass} {c : Char}

theorem isLower_iff : c.isLower = true ↔ NameClass.rule.IsLetter c := by
  change (decide ('a' ≤ c) && decide (c ≤ 'z')) = true ↔ 'a' ≤ c ∧ c ≤ 'z'
  rw [Bool.and_eq_true, decide_eq_true_iff, decide_eq_true_iff]

theorem isUpper_iff : c.isUpper = true ↔ NameClass.terminal.IsLetter c := by
  change decide ('A' ≤ c ∧ c ≤ 'Z') = true ↔ 'A' ≤ c ∧ c ≤ 'Z'
  exact decide_eq_true_iff

theorem isDigit_iff : c.isDigit = true ↔ '0' ≤ c ∧ c ≤ '9' := by
  simp [Char.isDigit, Char.le_def]

theorem isAlpha_iff (k : NameClass) : c.isAlpha = true ↔ k.IsLetter c ∨ k.other.IsLetter c := by
  change (c.isUpper || c.isLower) = true ↔ _
  rw [Bool.or_eq_true, isLower_iff, isUpper_iff]
  cases k with
  | rule => exact or_comm
  | terminal => exact Iff.rfl

theorem isNameStart_iff (k : NameClass) :
    isNameStart c = true ↔ (k.IsLetter c ∨ c = '_') ∨ k.other.IsLetter c := by
  rw [isNameStart, Bool.or_eq_true, isAlpha_iff k, beq_iff_eq, or_right_comm]

theorem isNameChar_iff (k : NameClass) : isNameChar c = true ↔
    (k.IsLetter c ∨ ('0' ≤ c ∧ c ≤ '9') ∨ c = '_') ∨ k.other.IsLetter c := by
  rw [isNameChar, Char.isAlphanum, Bool.or_eq_true, Bool.or_eq_true, isAlpha_iff k, isDigit_iff,
    beq_iff_eq, or_assoc, or_right_comm]

/-- What may stand in a name of a class is no letter of the other one. -/
theorem not_other_letter (h : k.IsLetter c ∨ ('0' ≤ c ∧ c ≤ '9') ∨ c = '_') :
    ¬ k.other.IsLetter c := by
  intro ho
  rcases h with hk | hdigit | rfl
  · cases k with
    | rule => exact absurd (Char.le_trans hk.1 ho.2) (by decide)
    | terminal => exact absurd (Char.le_trans ho.1 hk.2) (by decide)
  · cases k with
    | rule => exact absurd (Char.le_trans ho.1 hdigit.2) (by decide)
    | terminal => exact absurd (Char.le_trans ho.1 hdigit.2) (by decide)
  · cases k with
    | rule => exact absurd ho (by decide)
    | terminal => exact absurd ho (by decide)

theorem letter_bounds (h : k.IsLetter c) : 65 ≤ c.toNat ∧ c.toNat ≤ 122 := by
  cases k with
  | rule =>
    have hl : 97 ≤ c.toNat := UInt32.le_iff_toNat_le.mp h.1
    exact ⟨Nat.le_trans (by decide) hl, UInt32.le_iff_toNat_le.mp h.2⟩
  | terminal =>
    have hu : c.toNat ≤ 90 := UInt32.le_iff_toNat_le.mp h.2
    exact ⟨UInt32.le_iff_toNat_le.mp h.1, Nat.le_trans hu (by decide)⟩

theorem nameStart_bounds (h : isNameStart c = true) : 65 ≤ c.toNat ∧ c.toNat ≤ 122 := by
  rcases (isNameStart_iff .rule).mp h with (hl | rfl) | hu
  · exact letter_bounds hl
  · decide
  · exact letter_bounds hu

theorem digit_not_start (h : c.isDigit = true) : isNameStart c ≠ true := by
  intro hs
  have hno : ∀ k : NameClass, ¬ k.other.IsLetter c := fun _ =>
    not_other_letter (Or.inr (Or.inl (isDigit_iff.mp h)))
  rcases (isNameStart_iff .rule).mp hs with (hl | rfl) | hu
  · exact hno .terminal hl
  · exact absurd h (by decide)
  · exact hno .rule hu

theorem isNameChar_of_start (h : isNameStart c = true) : isNameChar c = true := by
  rw [isNameStart, Bool.or_eq_true] at h
  rw [isNameChar, Char.isAlphanum, Bool.or_eq_true, Bool.or_eq_true]
  exact h.imp_left Or.inl

/-! ## Checks -/

theorem identifierProblem?_eq_none {cs : List Char} :
    identifierProblem? cs = none ↔
      ∃ c rest, cs = c :: rest ∧ isNameStart c = true ∧ ∀ d ∈ rest, isNameChar d = true := by
  constructor
  · intro h
    rcases cs with _ | ⟨c, rest⟩
    · cases h
    · cases hs : isNameStart c with
      | false => simp [identifierProblem?, hs] at h
      | true =>
        refine ⟨c, rest, rfl, hs, ?_⟩
        simpa [identifierProblem?, hs] using h
  · rintro ⟨c, rest, rfl, hs, hr⟩
    simpa [identifierProblem?, hs] using hr

theorem isRuleName_iff {name : String} :
    isRuleName name = true ↔ identifierProblem? name.toList = none ∧
      name.toList.any Char.isUpper = false ∧ name.toList.any Char.isLower = true := by
  unfold isRuleName ruleProblem?
  cases identifierProblem? name.toList with
  | some problem => simp
  | none =>
    cases name.toList.any Char.isUpper
    · cases name.toList.any Char.isLower <;> simp
    · simp

theorem isTerminalName_iff {name : String} :
    isTerminalName name = true ↔ identifierProblem? name.toList = none ∧
      name.toList.any Char.isLower = false ∧ name.toList.any Char.isUpper = true := by
  unfold isTerminalName terminalProblem?
  cases identifierProblem? name.toList with
  | some problem => simp
  | none =>
    cases name.toList.any Char.isLower
    · cases name.toList.any Char.isUpper <;> simp
    · simp

theorem rule_not_terminal {name : String} (h : isRuleName name = true) :
    isTerminalName name = false := by
  have hl := (isRuleName_iff.mp h).2.2
  cases ht : isTerminalName name with
  | false => rfl
  | true =>
    have hl' := (isTerminalName_iff.mp ht).2.1
    rw [hl] at hl'
    cases hl'

/-! ## Names of a class -/

/-- Whether the name is one of the class. -/
def NameClass.admits : NameClass → String → Bool
  | .rule, name => isRuleName name
  | .terminal, name => isTerminalName name

theorem admits_unique {k l : NameClass} {name : String} (hk : k.admits name = true)
    (hl : l.admits name = true) : k = l := by
  cases k with
  | rule =>
    cases l with
    | rule => rfl
    | terminal => rw [NameClass.admits, rule_not_terminal hk] at hl; cases hl
  | terminal =>
    cases l with
    | rule => rw [NameClass.admits, rule_not_terminal hl] at hk; cases hk
    | terminal => rfl

/-- The checks of one class are those of the other, with the letters exchanged. -/
theorem admits_iff {name : String} : k.admits name = true ↔ identifierProblem? name.toList = none ∧
    (∀ c ∈ name.toList, ¬ k.other.IsLetter c) ∧ ∃ c ∈ name.toList, k.IsLetter c := by
  cases k with
  | rule =>
    rw [NameClass.admits, isRuleName_iff]
    simp only [List.any_eq_false, List.any_eq_true, isLower_iff, isUpper_iff, NameClass.other]
  | terminal =>
    rw [NameClass.admits, isTerminalName_iff]
    simp only [List.any_eq_false, List.any_eq_true, isLower_iff, isUpper_iff, NameClass.other]

/-- The characters of a name, of either class. -/
theorem admits_chars {k : NameClass} {name : String} (h : k.admits name = true) :
    (∃ c rest, name.toList = c :: rest ∧ isNameStart c = true) ∧
      ∀ d ∈ name.toList, isNameChar d = true := by
  obtain ⟨c, rest, hcs, hs, hrest⟩ := identifierProblem?_eq_none.mp (admits_iff.mp h).1
  refine ⟨⟨c, rest, hcs, hs⟩, fun d hd => ?_⟩
  rw [hcs] at hd
  rcases List.mem_cons.mp hd with rfl | hd
  · exact isNameChar_of_start hs
  · exact hrest d hd

/-! ## The spelling of a class -/

/-- A letter of the class or an underscore, then any number of such letters, digits and underscores,
with one letter at least. -/
def NameClass.Spells (k : NameClass) (name : String) : Prop :=
  (∃ c rest, name.toList = c :: rest ∧ (k.IsLetter c ∨ c = '_') ∧
    ∀ d ∈ rest, k.IsLetter d ∨ ('0' ≤ d ∧ d ≤ '9') ∨ d = '_') ∧
  ∃ c ∈ name.toList, k.IsLetter c

variable {name : String}

theorem admits_iff_spells : k.admits name = true ↔ k.Spells name := by
  rw [admits_iff]
  constructor
  · rintro ⟨hid, hother, hletter⟩
    obtain ⟨c, rest, hcs, hstart, hrest⟩ := identifierProblem?_eq_none.mp hid
    rw [hcs, List.forall_mem_cons] at hother
    have hc := ((isNameStart_iff k).mp hstart).resolve_right hother.1
    exact ⟨⟨c, rest, hcs, hc, fun d hd =>
      ((isNameChar_iff k).mp (hrest d hd)).resolve_right (hother.2 d hd)⟩, hletter⟩
  · rintro ⟨⟨c, rest, hcs, hc, hrest⟩, hletter⟩
    refine ⟨identifierProblem?_eq_none.mpr ⟨c, rest, hcs, (isNameStart_iff k).mpr (Or.inl hc),
      fun d hd => (isNameChar_iff k).mpr (Or.inl (hrest d hd))⟩, ?_, hletter⟩
    rw [hcs, List.forall_mem_cons]
    exact ⟨not_other_letter (hc.imp_right Or.inr), fun d hd => not_other_letter (hrest d hd)⟩

/-- A name has the class that admits it. -/
theorem of?_eq_some : NameClass.of? name = some k ↔ k.admits name = true := by
  cases hr : isRuleName name with
  | true =>
    have ht := rule_not_terminal hr
    cases k <;> simp [NameClass.of?, NameClass.admits, hr, ht]
  | false => cases k <;> simp [NameClass.of?, NameClass.admits, hr]

end GrammarText
