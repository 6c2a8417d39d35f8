import GrammarText.Proofs.Grammar.Undefined
import Mathlib.Data.List.Perm.Basic

/-!
Operations on different names, in either order.

- `DecidedUnder`: an operation on a name looks at the identity of the grammar and at which namespaces
  have the name. By these alone it fails, or makes one write under the name (`decided_run`).
- A write under one name leaves what is seen under another (`holds_write_ne`). So each of two
  operations on different names has the outcome that it has by itself, and their writes commute up to
  the order of two names that both add (`write_write_reordered`).
- `Grammar.Reordered`: what the two orders come to. Such grammars have the same lines in each context
  and the same undefined references.
- `different_names_commute`: all of this for two operations on any grammar.
-/

namespace GrammarText

open Grammar Text Emission

variable {g g' base : Grammar} {name other : String}

/-! ## One write under a name -/

/-- The name that an operation is addressed to. A directive is filed under none. -/
def Operation.subject? : Operation → Option String
  | .define name _ | .putDefinition _ name _ _ | .putTemplate name .. | .change _ name _
  | .extend name _ | .replace name _ | .edit name _ => some name
  | .assign h _ _ => some h.name
  | .appendDirective .. => none

namespace Grammar

/-- A write under one name of a namespace. -/
inductive Write where
  | definition (kind : NameClass) (w : Entries.Write Definition)
  | template (w : Entries.Write TemplateDef)

def write (g : Grammar) (name : String) : Write → Grammar
  | .definition kind w => g.setDefinitions kind ((g.definitions kind).write name w)
  | .template w => { g with templates := g.templates.write name w }

/-- The grammar after a write, or as it was. -/
def after (g : Grammar) (name : String) : Except GrammarError Write → Grammar
  | .ok w => g.write name w
  | .error _ => g

/-- What a step comes to that has decided to write or to fail. -/
def carryOut (g : Grammar) (name : String) (decision : Except GrammarError Write) :
    EStateM.Result GrammarError Grammar Unit :=
  match decision with
  | .ok _ => .ok () (g.after name decision)
  | .error e => .error e (g.after name decision)

end Grammar

/-- The results come from one decision, each on its own grammar. -/
def SameDecision (name : String) (g g' : Grammar)
    (r r' : EStateM.Result GrammarError Grammar Unit) : Prop :=
  ∃ decision, r = g.carryOut name decision ∧ r' = g'.carryOut name decision

namespace SameDecision

variable {a a' b b' : EStateM.Result GrammarError Grammar Unit}

theorem error (e : GrammarError) : SameDecision name g g' (.error e g) (.error e g') :=
  ⟨.error e, rfl, rfl⟩

theorem write (w : Write) :
    SameDecision name g g' (.ok () (g.write name w)) (.ok () (g'.write name w)) :=
  ⟨.ok w, rfl, rfl⟩

theorem ite {c : Prop} [Decidable c] (ha : SameDecision name g g' a a')
    (hb : SameDecision name g g' b b') :
    SameDecision name g g' (if c then a else b) (if c then a' else b') := by
  by_cases hc : c
  · rw [if_pos hc, if_pos hc]
    exact ha
  · rw [if_neg hc, if_neg hc]
    exact hb

end SameDecision

/-- The decision of the step is the same for grammars of one identity that have the name in the same
namespaces. -/
def DecidedUnder (name : String) (step : GrammarStep Unit) : Prop :=
  ∀ g g' : Grammar, g.id = g'.id → (∀ space, g.holds space name = g'.holds space name) →
    SameDecision name g g' (step g) (step g')

theorem holds_kind (g : Grammar) (kind : NameClass) (name : String) :
    g.holds kind.space name = (g.definitions kind).has name := by
  cases kind <;> rfl

theorem decided_putDefinition (kind : NameClass) (name : String) (body : Body)
    (options : DefOptions) : DecidedUnder name (putDefinition kind name body options) := by
  intro g g' _ hholds
  have hkind := hholds kind.space
  rw [holds_kind, holds_kind] at hkind
  rw [putDefinition_eq, putDefinition_eq, hkind]
  cases nameProblem? kind.space name with
  | some problem => exact .error _
  | none => exact .ite (.error _) (.write (.definition kind (.put _)))

theorem decided_putTemplate (name : String) (params : Expr) (body : Body) (options : DefOptions) :
    DecidedUnder name (putTemplate name params body options) := by
  intro g g' _ hholds
  have htemplate : g.templates.has name = g'.templates.has name := hholds .template
  rw [putTemplate_eq, putTemplate_eq, htemplate]
  cases ruleProblem? name with
  | some problem => exact .error _
  | none => exact .ite (.error _) (.ite (.error _) (.ite (.error _) (.write (.template (.put _)))))

theorem decided_define (name : String) (body : Body) : DecidedUnder name (define name body) := by
  intro g g' hid hholds
  rw [define_eq, define_eq]
  cases classify name with
  | ok kind => exact decided_putDefinition kind name body {} g g' hid hholds
  | error e => exact .error e

theorem decided_assign (h : Handle) (key : Key) (body : Body) :
    DecidedUnder h.name (assign h key body) := by
  intro g g' hid hholds
  rw [assign_eq, assign_eq, hid]
  refine .ite (.error _) ?_
  cases key with
  | priority n => exact decided_putDefinition h.kind h.name body _ g g' hid hholds
  | params items =>
    cases h.kind with
    | rule => exact decided_putTemplate h.name (.tuple items) body {} g g' hid hholds
    | terminal => exact .error _

theorem decided_changeDefinition (kind : NameClass) (name : String) (c : Definition.Change) :
    DecidedUnder name (changeDefinition kind name c) :=
  fun _ _ _ _ => .write (.definition kind (.update _))

/-- Whether a name leads somewhere, and where, is seen from the namespaces that have it. -/
theorem decided_updateTokens (name : String) (change : List Expr → List Expr) :
    DecidedUnder name (updateTokens name change) := by
  intro g g' _ hholds
  have hrule : g.rules.has name = g'.rules.has name := hholds .rule
  have hterminal : g.terminals.has name = g'.terminals.has name := hholds .terminal
  have htemplate : g.templates.has name = g'.templates.has name := hholds .template
  rw [updateTokens_eq, updateTokens_eq, hrule, hterminal, htemplate]
  exact .ite (.write (.definition .rule (.update _)))
    (.ite (.write (.definition .terminal (.update _)))
      (.ite (.write (.template (.update _))) (.error _)))

theorem decided_edit (name : String) (e : Edit) : DecidedUnder name (edit name e) := by
  intro g g' _ hholds
  have hrule : g.rules.has name = g'.rules.has name := hholds .rule
  have hterminal : g.terminals.has name = g'.terminals.has name := hholds .terminal
  have htemplate : g.templates.has name = g'.templates.has name := hholds .template
  rw [edit_eq, edit_eq, hrule, hterminal, htemplate]
  exact .ite (.write (.definition .rule (.update _)))
    (.ite (.write (.definition .terminal (.update _)))
      (.ite (.ite (.error _) (.write (.template (.update _)))) (.error _)))

theorem decided_run {op : Operation} (h : op.subject? = some name) : DecidedUnder name op.run := by
  cases op with
  | appendDirective => cases h
  | define _ body =>
    cases h
    exact decided_define name body
  | putDefinition kind _ body options =>
    cases h
    exact decided_putDefinition kind name body options
  | putTemplate _ params body options =>
    cases h
    exact decided_putTemplate name params body options
  | assign handle key body =>
    cases h
    exact decided_assign handle key body
  | change kind _ c =>
    cases h
    exact decided_changeDefinition kind name c
  | extend _ alternatives =>
    cases h
    exact decided_updateTokens name fun tokens => [.choice (tokens ++ alternatives)]
  | replace _ body =>
    cases h
    exact decided_updateTokens name fun _ => body.tokens
  | edit _ e =>
    cases h
    exact decided_edit name e

/-! ## Writes under different names -/

namespace Grammar

@[simp] theorem id_write (g : Grammar) (name : String) (w : Write) : (g.write name w).id = g.id := by
  cases w with
  | definition kind w => cases kind <;> rfl
  | template w => rfl

theorem holds_write_ne (g : Grammar) (h : name ≠ other) (w : Write) (space : Namespace) :
    (g.write name w).holds space other = g.holds space other := by
  cases w with
  | definition kind w =>
    have hget := Entries.get?_write_ne (g.definitions kind) h w
    cases kind <;> cases space
    case rule.rule | terminal.terminal => exact congrArg Option.isSome hget
    all_goals rfl
  | template w =>
    have hget := Entries.get?_write_ne g.templates h w
    cases space
    case template => exact congrArg Option.isSome hget
    all_goals rfl

/-- The same grammar, except that two names which are new to `base` stand last in a namespace in the
one order and in the other. -/
structure Reordered (base : Grammar) (name other : String) (g g' : Grammar) : Prop where
  identity : g.id = g'.id
  rules : base.rules.Reordered name other g.rules g'.rules
  terminals : base.terminals.Reordered name other g.terminals g'.terminals
  templates : base.templates.Reordered name other g.templates g'.templates
  directives : g.directives = g'.directives

theorem Reordered.refl (g : Grammar) : base.Reordered name other g g :=
  ⟨rfl, .same _, .same _, .same _, rfl⟩

theorem write_write_reordered (g : Grammar) (h : name ≠ other) (a b : Write) :
    g.Reordered name other ((g.write name a).write other b) ((g.write other b).write name a) := by
  cases a with
  | definition kind a =>
    cases b with
    | definition kind' b =>
      cases kind <;> cases kind'
      case rule.rule =>
        exact ⟨rfl, Entries.write_write_reordered g.rules h a b, .same _, .same _, rfl⟩
      case terminal.terminal =>
        exact ⟨rfl, .same _, Entries.write_write_reordered g.terminals h a b, .same _, rfl⟩
      case rule.terminal | terminal.rule => exact .refl _
    | template b => cases kind <;> exact .refl _
  | template a =>
    cases b with
    | definition kind b => cases kind <;> exact .refl _
    | template b =>
      exact ⟨rfl, .same _, .same _, Entries.write_write_reordered g.templates h a b, rfl⟩

theorem after_after_reordered (g : Grammar) (h : name ≠ other) (a b : Except GrammarError Write) :
    g.Reordered name other ((g.after name a).after other b) ((g.after other b).after name a) := by
  cases a with
  | error e => cases b <;> exact .refl _
  | ok a =>
    cases b with
    | error e => exact .refl _
    | ok b => exact write_write_reordered g h a b

/-! ## Two operations -/

theorem perform_carryOut {op : Operation} {decision : Except GrammarError Write}
    (h : op.run g = g.carryOut name decision) :
    g.perform op = (decision.map fun _ => (), g.after name decision) := by
  rw [perform_eq, h]
  cases decision <;> rfl

theorem exists_decision (g : Grammar) {op : Operation} (h : op.subject? = some name) :
    ∃ decision, g.perform op = (decision.map fun _ => (), g.after name decision) := by
  obtain ⟨decision, hrun, -⟩ := decided_run h g g rfl fun _ => rfl
  exact ⟨decision, perform_carryOut hrun⟩

/-- An operation decides as it would have before an operation on another name. -/
theorem exists_decision_after (g : Grammar) {op : Operation} (h : op.subject? = some name)
    (hne : name ≠ other) (before : Except GrammarError Write) :
    ∃ decision, g.perform op = (decision.map fun _ => (), g.after name decision) ∧
      (g.after other before).perform op
        = (decision.map fun _ => (), (g.after other before).after name decision) := by
  have hsees : g.id = (g.after other before).id ∧
      ∀ space, g.holds space name = (g.after other before).holds space name := by
    cases before with
    | error e => exact ⟨rfl, fun _ => rfl⟩
    | ok w =>
      exact ⟨(id_write g other w).symm, fun space => (holds_write_ne g hne.symm w space).symm⟩
  obtain ⟨decision, hrun, hrun'⟩ := decided_run h g (g.after other before) hsees.1 hsees.2
  exact ⟨decision, perform_carryOut hrun, perform_carryOut hrun'⟩

/-- Operations on different names have in either order the outcomes that they have by themselves, and
the orders come to the same grammar, up to the order of two names that both add. -/
theorem perform_perform_reordered (g : Grammar) {a b : Operation} (ha : a.subject? = some name)
    (hb : b.subject? = some other) (hne : name ≠ other) :
    ((g.perform b).2.perform a).1 = (g.perform a).1 ∧
      ((g.perform a).2.perform b).1 = (g.perform b).1 ∧
        g.Reordered name other ((g.perform a).2.perform b).2 ((g.perform b).2.perform a).2 := by
  obtain ⟨first, hfirst⟩ := exists_decision g hb
  obtain ⟨ofA, hA, hAafter⟩ := exists_decision_after g ha hne first
  obtain ⟨ofB, hB, hBafter⟩ := exists_decision_after g hb hne.symm ofA
  -- both decisions of `b` on `g` come to the same grammar
  have hsame : g.after other first = g.after other ofB := congrArg Prod.snd (hfirst.symm.trans hB)
  rw [hsame] at hAafter
  rw [hA, hB, hAafter, hBafter]
  exact ⟨rfl, rfl, after_after_reordered g hne ofA ofB⟩

/-! ## What the two orders have in common -/

section Reordered

variable (h : base.Reordered name other g g')
include h

theorem Reordered.get?_eq (hne : name ≠ other) (key : String) :
    g.rules.get? key = g'.rules.get? key ∧ g.terminals.get? key = g'.terminals.get? key ∧
      g.templates.get? key = g'.templates.get? key :=
  ⟨h.rules.get?_eq hne key, h.terminals.get?_eq hne key, h.templates.get?_eq hne key⟩

theorem Reordered.isDefined_eq (hne : name ≠ other) (key : String) :
    g.isDefined key = g'.isDefined key := by
  obtain ⟨hrules, hterminals, htemplates⟩ := h.get?_eq hne key
  simp only [isDefined, Entries.has, hrules, hterminals, htemplates]

/-- The four parts of the text have the same items. -/
theorem Reordered.parts_perm : List.Forall₂ List.Perm g.parts g'.parts := by
  have hterminals := h.terminals.perm.map Prod.snd
  have hrules := h.rules.perm.map Prod.snd
  have htemplates := h.templates.perm.map Prod.snd
  refine .cons (hterminals.map _) (.cons (hrules.map _) (.cons ?_ (.cons (htemplates.map _) .nil)))
  rw [h.directives]

theorem Reordered.mem_items_iff {i : Item} : i ∈ g.items ↔ i ∈ g'.items :=
  (List.Perm.flatten_congr h.parts_perm).mem_iff

theorem Reordered.lines_perm (ctx : Context) : (g.lines ctx).Perm (g'.lines ctx) := by
  unfold lines
  rw [List.flatMap_def, List.flatMap_def]
  apply List.Perm.flatten_congr
  rw [List.forall₂_map_left_iff, List.forall₂_map_right_iff]
  exact h.parts_perm.imp fun _ _ hpart => (hpart.map _).append_right _

theorem Reordered.mem_undefinedReferences_iff (hne : name ≠ other) {key : String} :
    key ∈ g.undefinedReferences ↔ key ∈ g'.undefinedReferences := by
  simp only [mem_undefinedReferences, h.isDefined_eq hne, h.directives, h.mem_items_iff]

end Reordered

/-- The text of the grammar is its lines, and the line of each item is the item written alone. -/
def PrintsLines (g : Grammar) (ctx : Context) : Prop :=
  g.generate ctx = .ok (Text.trim (String.ofList (terminated (g.lines ctx)))) ∧
    ∀ i ∈ g.items, (i.render ctx).text = .ok (String.ofList (i.written ctx))

theorem printsLines_of_succeeds {ctx : Context} (h : ∀ i ∈ g.items, Succeeds (i.render ctx)) :
    g.PrintsLines ctx :=
  ⟨generate_of_succeeds h, fun i hi => Item.text_eq (h i hi)⟩

theorem Reordered.prints_or_fails (h : base.Reordered name other g g') (ctx : Context) :
    g.PrintsLines ctx ∧ g'.PrintsLines ctx ∨
      (∃ e, g.generate ctx = .error e) ∧ ∃ e, g'.generate ctx = .error e := by
  by_cases hall : ∀ i ∈ g.items, Succeeds (i.render ctx)
  · left
    have hall' : ∀ i ∈ g'.items, Succeeds (i.render ctx) :=
      fun i hi => hall i (h.mem_items_iff.mpr hi)
    exact ⟨printsLines_of_succeeds hall, printsLines_of_succeeds hall'⟩
  · right
    constructor
    · cases hgen : g.generate ctx with
      | error e => exact ⟨e, rfl⟩
      | ok text => exact absurd (succeeds_of_generate hgen) hall
    · cases hgen : g'.generate ctx with
      | error e => exact ⟨e, rfl⟩
      | ok text =>
        exact absurd (fun i hi => succeeds_of_generate hgen i (h.mem_items_iff.mp hi)) hall

/-- Two operations on different names can be made in either order. Each has the outcome that it has by
itself, a success or the same error. The grammars that the orders come to have the same under every
name and the same directives, and stand in one order, except that two names which both operations
add to a namespace are swapped at its end. In each context both grammars have a text, with the same
lines up to that order, or neither has; and they leave the same references undefined. -/
theorem different_names_commute {a b : Operation} {name other : String}
    (ha : a.subject? = some name) (hb : b.subject? = some other) (hne : name ≠ other)
    (g : Grammar) :
    let ab := (g.perform a).2.perform b
    let ba := (g.perform b).2.perform a
    ba.1 = (g.perform a).1 ∧ ab.1 = (g.perform b).1 ∧
      g.Reordered name other ab.2 ba.2 ∧
      (∀ key, ab.2.rules.get? key = ba.2.rules.get? key ∧
        ab.2.terminals.get? key = ba.2.terminals.get? key ∧
        ab.2.templates.get? key = ba.2.templates.get? key) ∧
      (∀ ctx, (ab.2.lines ctx).Perm (ba.2.lines ctx) ∧
        (ab.2.PrintsLines ctx ∧ ba.2.PrintsLines ctx ∨
          (∃ e, ab.2.generate ctx = .error e) ∧ ∃ e, ba.2.generate ctx = .error e)) ∧
      ∀ key, key ∈ ab.2.undefinedReferences ↔ key ∈ ba.2.undefinedReferences := by
  intro ab ba
  obtain ⟨hba, hab, hr⟩ := perform_perform_reordered g ha hb hne
  exact ⟨hba, hab, hr, hr.get?_eq hne, fun ctx => ⟨hr.lines_perm ctx, hr.prints_or_fails ctx⟩,
    fun key => hr.mem_undefinedReferences_iff hne⟩

/-- Two new rules stand last in the order in which they were filed. -/
theorem new_rules_swap :
    let word := Operation.define "word" { tokens := [.text "a"] }
    let start := Operation.define "start" { tokens := [.handle ⟨.rule, "word", 0⟩] }
    let ab := (((new 0).perform word).2.perform start).2
    let ba := (((new 0).perform start).2.perform word).2
    word.subject? = some "word" ∧ start.subject? = some "start" ∧
      ab.rules.keys = ["word", "start"] ∧ ba.rules.keys = ["start", "word"] ∧
      ab.generate {} = .ok "word: \"a\"\nstart: word" ∧
      ba.generate {} = .ok "start: word\nword: \"a\"" ∧
      (ab.lines {}).Perm (ba.lines {}) := by
  intro word start ab ba
  have hcommute := different_names_commute (a := word) (b := start) rfl rfl (by decide) (new 0)
  obtain ⟨-, -, -, -, hlines, -⟩ := hcommute
  exact ⟨rfl, rfl, rfl, rfl, rfl, rfl, (hlines {}).1⟩

end Grammar

end GrammarText
