import GrammarText.Proofs.Grammar.Registry

/-!
How a grammar takes a name.

- `closestClass`: the class that a text looks closest to. `nameProblem?_closest`: a text of no class
  has a problem there.
- `classify_eq`: to take a name is to take its class. `classify_error_iff`: otherwise the error
  names the text, and the first thing that keeps it out of the closest class.
- `lookup_error_iff`, `define_invalidName_iff`: a handle, and a definition, are refused for the name
  exactly then.
- `names_classified`: the two classes are the two spellings, and what is refused is of neither.
-/

namespace GrammarText

variable {k : NameClass} {name : String}

/-- With a lowercase letter in it a text looks like a rule, otherwise like a terminal. -/
def closestClass (name : String) : NameClass :=
  if name.toList.any Char.isLower then .rule else .terminal

/-- A name looks like what it is. -/
theorem closestClass_of_admits (h : k.admits name = true) : closestClass name = k := by
  cases k with
  | rule => exact if_pos (isRuleName_iff.mp h).2.2
  | terminal => exact if_neg (Bool.not_eq_true _ ▸ (isTerminalName_iff.mp h).2.1)

theorem of?_eq_none_iff : NameClass.of? name = none ↔ (closestClass name).admits name = false := by
  rw [← Bool.not_eq_true, ← of?_eq_some]
  constructor
  · intro h
    simp [h]
  · intro h
    cases hk : NameClass.of? name with
    | none => rfl
    | some k => exact absurd (closestClass_of_admits (of?_eq_some.mp hk) ▸ hk) h

/-- A text of no class is kept out of the closest one by something. -/
theorem nameProblem?_closest : NameClass.of? name = none ↔
    ∃ problem, nameProblem? (closestClass name).space name = some problem := by
  rw [of?_eq_none_iff, ← Bool.not_eq_true, ← nameProblem?_eq_none]
  exact Option.ne_none_iff_exists'

/-- To take a name is to take its class. What would be said of a text that has no problem in its
closest class (`otherwise`) is never said. -/
theorem classify_eq (name : String) (otherwise : NameProblem) :
    classify name = match NameClass.of? name with
      | some kind => .ok kind
      | none => .error (.invalidName name (closestClass name).space
          ((nameProblem? (closestClass name).space name).getD otherwise)) := by
  unfold classify
  cases hr : ruleProblem? name with
  | none =>
    have hrule : NameClass.of? name = some .rule := of?_eq_some.mpr (isRuleName_of_problem hr)
    rw [hrule]
  | some asRule =>
    cases ht : terminalProblem? name with
    | none =>
      have hterminal : NameClass.of? name = some .terminal :=
        of?_eq_some.mpr (isTerminalName_of_problem ht)
      rw [hterminal]
    | some asTerminal =>
      have hnone : NameClass.of? name = none := by
        simp [NameClass.of?, isRuleName, isTerminalName, hr, ht]
      rw [hnone, closestClass]
      cases name.toList.any Char.isLower with
      | true => simp [NameClass.space, nameProblem?, hr]
      | false => simp [NameClass.space, nameProblem?, ht]

theorem classify_error_iff {e : GrammarError} : classify name = .error e ↔
    ∃ problem, nameProblem? (closestClass name).space name = some problem ∧
      e = .invalidName name (closestClass name).space problem := by
  rw [classify_eq name .empty]
  cases hk : NameClass.of? name with
  | some kind =>
    have hno : ¬ ∃ problem, nameProblem? (closestClass name).space name = some problem := by
      rw [← nameProblem?_closest, hk]
      exact Option.some_ne_none kind
    refine iff_of_false nofun ?_
    rintro ⟨problem, hproblem, -⟩
    exact hno ⟨problem, hproblem⟩
  | none =>
    obtain ⟨problem, hproblem⟩ := nameProblem?_closest.mp hk
    simp [hproblem, eq_comm]

/-! ## Handles and definitions -/

variable {g : Grammar} {e : GrammarError}

theorem lookup_error_iff : g.lookup name = .error e ↔ classify name = .error e := by
  unfold Grammar.lookup
  cases classify name with
  | ok kind => exact iff_of_false nofun nofun
  | error err => simp only [bind, Except.bind, Except.error.injEq]

/-- Once the class is known, nothing more is said of the name. -/
theorem define_invalidName_iff (body : Body) {wrong : String} {space : Namespace}
    {problem : NameProblem} :
    (g.perform (.define name body)).1 = .error (.invalidName wrong space problem) ↔
      classify name = .error (.invalidName wrong space problem) := by
  rw [perform_eq, Operation.run, define_eq]
  cases hc : classify name with
  | error err => simp only [Except.error.injEq]
  | ok kind =>
    have hproblem : nameProblem? kind.space name = none :=
      nameProblem?_eq_none.mpr (admits_of_classify hc)
    refine iff_of_false ?_ (by simp)
    simp only [putDefinition_eq, hproblem]
    -- all that is left to refuse is a name that is taken
    cases (g.definitions kind).has name && !({} : DefOptions).replace with
    | true => simp
    | false => simp

/-- The outcomes that are errors about a name come up exactly for a text of no class. They name the
text, the closest class, and the first thing that keeps the text out of it. -/
structure ReportsName (name : String) (fails : GrammarError → Prop) : Prop where
  exactly : (∃ wrong space problem, fails (.invalidName wrong space problem)) ↔
    NameClass.of? name = none
  reported : ∀ wrong space problem, fails (.invalidName wrong space problem) ↔
    wrong = name ∧ space = (closestClass name).space ∧ nameProblem? space name = some problem

theorem reportsName {fails : GrammarError → Prop}
    (h : ∀ wrong space problem, fails (.invalidName wrong space problem) ↔
      classify name = .error (.invalidName wrong space problem)) : ReportsName name fails := by
  have hreported : ∀ wrong space problem, fails (.invalidName wrong space problem) ↔
      wrong = name ∧ space = (closestClass name).space ∧
        nameProblem? space name = some problem := by
    intro wrong space problem
    rw [h, classify_error_iff]
    constructor
    · rintro ⟨_, hproblem, heq⟩
      cases heq
      exact ⟨rfl, rfl, hproblem⟩
    · rintro ⟨rfl, rfl, hproblem⟩
      exact ⟨problem, hproblem, rfl⟩
  refine ⟨?_, hreported⟩
  simp only [hreported, nameProblem?_closest]
  constructor
  · rintro ⟨_, _, problem, rfl, rfl, hproblem⟩
    exact ⟨problem, hproblem⟩
  · rintro ⟨problem, hproblem⟩
    exact ⟨_, _, problem, rfl, rfl, hproblem⟩

/-- A rule name is a lowercase identifier and a terminal name an uppercase one, with one letter at
least, so no text is both, and the class of a text is the one whose spelling it has. A grammar gives
no handle to a text of no class, and defines nothing under it, and says so with what keeps the text
out of the class that it looks closest to. -/
theorem names_classified (name : String) :
    (isRuleName name = true ↔ NameClass.rule.Spells name) ∧
      (isTerminalName name = true ↔ NameClass.terminal.Spells name) ∧
      (isRuleName name && isTerminalName name) = false ∧
      (∀ kind, NameClass.of? name = some kind ↔ kind.Spells name) ∧
      ∀ (g : Grammar) (body : Body),
        ReportsName name (fun e => g.lookup name = .error e) ∧
        ReportsName name (fun e => (g.perform (.define name body)).1 = .error e) := by
  have hdisjoint : (isRuleName name && isTerminalName name) = false := by
    cases hr : isRuleName name with
    | true => rw [rule_not_terminal hr, Bool.and_false]
    | false => rw [Bool.false_and]
  refine ⟨admits_iff_spells (k := .rule), admits_iff_spells (k := .terminal), hdisjoint,
    fun kind => of?_eq_some.trans admits_iff_spells, fun g body => ⟨?_, ?_⟩⟩
  · exact reportsName fun _ _ _ => lookup_error_iff
  · exact reportsName fun _ _ _ => define_invalidName_iff body

example : NameClass.of? "_1" = none ∧
    (Grammar.new 0).lookup "_1" = .error (.invalidName "_1" .terminal .noUppercaseInTerminal) ∧
    (Grammar.new 0).lookup "Aé" = .error (.invalidName "Aé" .terminal .badCharacter) ∧
    (Grammar.new 0).lookup "aB" = .error (.invalidName "aB" .rule .uppercaseInRule) := by
  decide

end GrammarText
