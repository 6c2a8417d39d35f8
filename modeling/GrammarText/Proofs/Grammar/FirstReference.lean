import GrammarText.Proofs.Grammar.Undefined
import GrammarText.Proofs.Position

/-!
The undefined references are exactly the unresolved ones, in the order in which they first occur.

- `Expr.children`: the expressions one level down, whatever the context. `Expr.RefersAt`: what an
  expression refers to, and at which position. `Expr.listed_references`: the references of an
  expression are these, as often as they occur.
- `Grammar.Lacks`: nothing accounts for a name that an item refers to. `Grammar.MissesAt`: where in
  the grammar such a name stands.
- `Grammar.undefinedReferences_exact`: the list has each name that is missed somewhere, once, and
  orders the names by the first positions where they are missed.
-/

namespace GrammarText

namespace Expr

/-! ## References at their positions -/

/-- The expressions one level down, of a branch both sides. What a variable resolves to is not among
them. -/
def children : Expr → List Expr
  | tuple items | list items | group items | optional items | choice items => items
  | repetition _ items | aliased _ items | template _ items => items
  | bounded content _ => [content]
  | branch _ _ yes no => [yes, no]
  | text _ | literal .. | regexp .. | verbatim _ | handle _ | range .. | deferred .. => []

/-- At the position stands a handle or an instantiation with the name. -/
def RefersAt (e : Expr) : Position → String → Prop := NodeHolds children ownNames e

theorem listed_of_children {e : Expr} {names : List String}
    (h : Listed (Row RefersAt e.children) names) : Listed (RefersAt e) (e.ownNames ++ names) :=
  Listed.node (by cases e <;> simp [ownNames]) h

mutual

/-- The references of an expression are the names at its positions, in their order. -/
theorem listed_references : ∀ e : Expr, Listed (RefersAt e) (references e)
  | text _ | literal .. | regexp .. | verbatim _ | handle _ | range .. | deferred .. => by
    rw [references]
    exact listed_of_children listed_row_nil
  | tuple items | list items | group items | optional items | choice items
  | repetition _ items | aliased _ items | template _ items => by
    rw [references]
    exact listed_of_children (listed_referencesAll items)
  | bounded content _ => by
    rw [references, ← List.append_nil (references content)]
    exact listed_of_children ((listed_references content).row_cons listed_row_nil)
  | branch _ _ yes no => by
    rw [references, ← List.append_nil (references no)]
    exact listed_of_children
      ((listed_references yes).row_cons ((listed_references no).row_cons listed_row_nil))

theorem listed_referencesAll :
    ∀ items : List Expr, Listed (Row RefersAt items) (referencesAll items)
  | [] => by rw [referencesAll]; exact listed_row_nil
  | e :: rest => by
    rw [referencesAll]
    exact (listed_references e).row_cons (listed_referencesAll rest)

end

theorem mem_referencesAll_iff {items : List Expr} {name : String} :
    name ∈ referencesAll items ↔ ∃ p, Row RefersAt items p name :=
  (listed_referencesAll items).mem_iff

end Expr

namespace Item

/-- The expressions whose references have to be defined: all but the parameters of a template. -/
def body : Item → List Expr
  | definition d => d.tokens
  | directive d => match d.content with
    | .raw _ => []
    | .node e => [e]
  | template t => t.tokens

theorem scope_names (i : Item) : i.scope.names = Expr.referencesAll i.body := by
  cases i with
  | definition d => rfl
  | directive d =>
    obtain ⟨name, content⟩ := d
    cases content with
    | raw text => simp [scope, Directive.references, body, Expr.referencesAll]
    | node e => simp [scope, Directive.references, body, Expr.referencesAll]
  | template t => rfl

end Item

namespace Grammar

/-! ## Names that nothing accounts for -/

/-- Nothing accounts for the name where the item refers to it: it is filed nowhere, no raw import or
declaration brings it in, and, if the item is a template, its parameters do not refer to it. -/
structure Lacks (g : Grammar) (i : Item) (name : String) : Prop where
  rules : name ∉ g.rules.keys
  terminals : name ∉ g.terminals.keys
  templates : name ∉ g.templates.keys
  directives : ∀ d ∈ g.directives, ∀ text, d.content = .raw text →
    d.name = "import" ∨ d.name = "declare" → name ∉ d.declaredNames
  params : ∀ t, i = .template t → ¬ ∃ p, Row Expr.RefersAt t.params p name

/-- At the position, which begins with the index of an item of the grammar, stands a reference that
nothing accounts for. -/
def MissesAt (g : Grammar) : Position → String → Prop :=
  Row (fun i p name => Row Expr.RefersAt i.body p name ∧ g.Lacks i name) g.items

theorem isDefined_eq_false {g : Grammar} {name : String} : g.isDefined name = false ↔
    name ∉ g.rules.keys ∧ name ∉ g.terminals.keys ∧ name ∉ g.templates.keys := by
  rw [isDefined, Bool.or_eq_false_iff, Bool.or_eq_false_iff, and_assoc]
  simp only [← Entries.has_iff, Bool.not_eq_true]

/-- Only raw imports and declarations bring names in. -/
theorem mem_declaredNames {d : Directive} {name : String} (h : name ∈ d.declaredNames) :
    (∃ text, d.content = .raw text) ∧ (d.name = "import" ∨ d.name = "declare") := by
  unfold Directive.declaredNames at h
  split at h
  · cases h
  · rename_i text hraw
    refine ⟨⟨text, hraw⟩, ?_⟩
    split at h
    · exact Or.inr ‹_›
    · split at h
      · exact Or.inl ‹_›
      · cases h

theorem lacks_iff {g : Grammar} {i : Item} {name : String} : g.Lacks i name ↔
    (!g.isDefined name && !(g.directives.flatMap (·.declaredNames)).contains name
      && !i.scope.locals.contains name) = true := by
  have hlocals : name ∉ i.scope.locals ↔
      ∀ t, i = .template t → ¬ ∃ p, Row Expr.RefersAt t.params p name := by
    cases i with
    | definition d => simp [Item.scope]
    | directive d => simp [Item.scope]
    | template t => simp [Item.scope, Expr.mem_referencesAll_iff]
  simp only [Bool.and_eq_true, Bool.not_eq_true', List.contains_eq_mem, decide_eq_false_iff_not,
    isDefined_eq_false, List.mem_flatMap, not_exists, not_and]
  constructor
  · intro h
    refine ⟨⟨⟨h.rules, h.terminals, h.templates⟩, fun d hd hn => ?_⟩, hlocals.mpr h.params⟩
    obtain ⟨⟨text, hraw⟩, hname⟩ := mem_declaredNames hn
    exact h.directives d hd text hraw hname hn
  · intro h
    obtain ⟨⟨⟨hrules, hterminals, htemplates⟩, hdirectives⟩, hparams⟩ := h
    exact ⟨hrules, hterminals, htemplates, fun d hd _ _ _ => hdirectives d hd, hlocals.mp hparams⟩

/-! ## The list of undefined references -/

/-- Before the names that occur more than once are dropped, the list has every missed reference. -/
theorem exists_listed_missing (g : Grammar) :
    ∃ missing, Listed g.MissesAt missing ∧ g.undefinedReferences = missing.eraseDups := by
  refine ⟨_, Listed.row fun i _ => ?_, by rw [undefinedReferences, scopes_eq, List.flatMap_map]⟩
  rw [Item.scope_names]
  exact ((Expr.listed_referencesAll i.body).filter _).congr fun p name =>
    and_congr_right fun _ => lacks_iff.symm

/-- The undefined references of a grammar are the names that it refers to at a position where
nothing accounts for them: in the body of a terminal, a rule, a node directive or a template, at a
handle or an instantiation, in both sides of a branch and not inside of variables. No name occurs
twice. The names stand in the order of the first such positions, where the terminals come before the
rules, the directives and the templates, and an expression before what is below it. -/
theorem undefinedReferences_exact (g : Grammar) :
    g.undefinedReferences.Nodup ∧
      (∀ name, name ∈ g.undefinedReferences ↔ ∃ p, g.MissesAt p name) ∧
      g.undefinedReferences.Pairwise
        fun a b => ∃ p, g.MissesAt p a ∧ ∀ q, g.MissesAt q b → p < q := by
  obtain ⟨missing, hlisted, hmissing⟩ := g.exists_listed_missing
  rw [hmissing]
  exact ⟨Entries.nodup_eraseDups missing, fun name => List.mem_eraseDups.trans hlisted.mem_iff,
    hlisted.pairwise_eraseDups⟩

/-- A template whose parameter is a name that a rule refers to as well. -/
def pairAndBareX : Grammar := (Grammar.new 0).runAll
  [.putTemplate "pair" (.handle ⟨.rule, "x", 0⟩)
      { tokens := [.handle ⟨.rule, "x", 0⟩, .handle ⟨.rule, "y", 0⟩] } {},
    .define "start" { tokens := [.branch "strict" false
      (.template "pair" [.handle ⟨.rule, "y", 0⟩]) (.handle ⟨.rule, "x", 0⟩)] }]

/-- The rule misses the name, which the template has as a parameter. -/
theorem pairAndBareX_missing :
    pairAndBareX.undefinedReferences = ["y", "x"] ∧
      (∃ p, pairAndBareX.MissesAt p "y" ∧ ∀ q, pairAndBareX.MissesAt q "x" → p < q) ∧
      ¬ ∃ p, pairAndBareX.MissesAt p "pair" := by
  have hlist : pairAndBareX.undefinedReferences = ["y", "x"] := by decide
  obtain ⟨-, hmem, hordered⟩ := undefinedReferences_exact pairAndBareX
  rw [hlist] at hmem hordered
  refine ⟨hlist, List.rel_of_pairwise_cons hordered List.mem_cons_self, fun h => ?_⟩
  exact absurd ((hmem "pair").mpr h) (by decide)

end Grammar

end GrammarText
