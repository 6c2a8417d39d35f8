import GrammarText.Manifest.Basic
import GrammarText.Proofs.Grammar.Registry
import GrammarText.Proofs.Manifest.Conversion

/-!
What keeps a manifest from being a grammar.

- `Manifest.faults`: the faults of its entries, one of each entry that has any, in the order
  terminals, rules, templates, directives. They are read off the entries, without a grammar.
- `Manifest.Buildable`: what a manifest has to satisfy.
- `Manifest.faults_eq_nil`: a manifest satisfies it exactly if there are no faults.
-/

namespace GrammarText

/-! ## Entries -/

/-- The entry of a rule or a terminal by itself is sound. -/
structure DefinitionEntry.IsSound (kind : NameClass) (e : DefinitionEntry) : Prop where
  name : kind.admits e.name = true
  body : ∀ n ∈ e.body, n.Converts

structure TemplateEntry.IsSound (e : TemplateEntry) : Prop where
  name : isRuleName e.name = true
  nodes : ∀ n ∈ e.params ++ e.body, n.Converts
  params : e.params ≠ []

/-- The entry has a raw text or a node, and not both. -/
structure DirectiveEntry.IsSound (e : DirectiveEntry) : Prop where
  name : isRuleName e.name = true
  content : e.raw.isSome ≠ e.node.isSome
  node : ∀ n, e.node = some n → n.Converts

namespace Manifest

structure Buildable (m : Manifest) : Prop where
  terminals : ∀ e ∈ m.terminals, e.IsSound .terminal
  rules : ∀ e ∈ m.rules, e.IsSound .rule
  templates : ∀ e ∈ m.templates, e.IsSound
  directives : ∀ e ∈ m.directives, e.IsSound
  /-- An entry with the name of an earlier one is to replace it. -/
  terminalNames : m.terminals.Pairwise fun a b => a.name = b.name → b.replace = true
  ruleNames : m.rules.Pairwise fun a b => a.name = b.name → b.replace = true
  templateNames : m.templates.Pairwise fun a b => a.name = b.name → b.replace = true

/-! ## Faults -/

/-- The error of a name that is taken, unless what has it is to be replaced. -/
def clash? (space : Namespace) (name : String) (replace : Bool) (taken : List String) :
    Option GrammarError :=
  if name ∈ taken ∧ replace = false then some (.duplicateName name space) else none

/-- What is wrong with the entry of a rule or a terminal behind other entries: its body first, then
its name, by itself and among the others. -/
def definitionFault? (kind : NameClass) (before : List DefinitionEntry) (e : DefinitionEntry) :
    Option Fault :=
  ((Node.firstFault? e.body).or ((nameFault? kind.space e.name).or
    (clash? kind.space e.name e.replace (before.map (·.name))))).map (.definition e.name)

/-- The parameters come first, then the body, the name by itself, the number of parameters, and the
name among the others. -/
def templateFault? (before : List TemplateEntry) (e : TemplateEntry) : Option Fault :=
  ((Node.firstFault? e.params).or ((Node.firstFault? e.body).or ((nameFault? .template e.name).or
    ((if e.params = [] then some (.noParameters e.name) else none).or
      (clash? .template e.name e.replace (before.map (·.name))))))).map (.definition e.name)

/-- Other entries do not matter to a directive. -/
def directiveFault? (_before : List DirectiveEntry) (e : DirectiveEntry) : Option Fault :=
  match e.raw, e.node with
  | some _, none => (nameFault? .directive e.name).map (.definition e.name)
  | none, some n => (n.fault?.or (nameFault? .directive e.name)).map (.definition e.name)
  | _, _ => some (.directiveContent e.name)

section Sections

variable {ε : Type} {fault? : List ε → ε → Option Fault}

/-- The faults of the entries in `rest`. Each entry is held against those in front of it, where the
ones in `before` count too. -/
def faultsAmong (fault? : List ε → ε → Option Fault) (before : List ε) : List ε → List Fault
  | [] => []
  | e :: rest => (fault? before e).toList ++ faultsAmong fault? (before ++ [e]) rest

theorem faultsAmong_eq_nil {Ok : ε → Prop} {Fits : ε → ε → Prop}
    (hfault : ∀ before e, fault? before e = none ↔ Ok e ∧ ∀ x ∈ before, Fits x e)
    (before rest : List ε) :
    faultsAmong fault? before rest = [] ↔
      (∀ e ∈ rest, Ok e) ∧ (∀ x ∈ before, ∀ e ∈ rest, Fits x e) ∧ rest.Pairwise Fits := by
  induction rest generalizing before with
  | nil => simp [faultsAmong]
  | cons e rest ih =>
    rw [faultsAmong, List.append_eq_nil_iff, Option.toList_eq_nil_iff, hfault, ih,
      List.pairwise_cons]
    simp only [List.mem_append, List.mem_cons, List.not_mem_nil, or_false]
    constructor
    · rintro ⟨⟨hok, hfits⟩, hrest, hall, hpair⟩
      refine ⟨?_, ?_, fun x hx => hall e (Or.inr rfl) x hx, hpair⟩
      · rintro x (rfl | hx)
        · exact hok
        · exact hrest x hx
      · rintro x hx y (rfl | hy)
        · exact hfits x hx
        · exact hall x (Or.inl hx) y hy
    · rintro ⟨hok, hall, hhead, hpair⟩
      refine ⟨⟨hok e (Or.inl rfl), fun x hx => hall x hx e (Or.inl rfl)⟩,
        fun x hx => hok x (Or.inr hx), ?_, hpair⟩
      rintro x (hx | rfl) y hy
      · exact hall x hx y (Or.inr hy)
      · exact hhead y hy

end Sections

/-- The faults of the manifest, in the order of its entries. -/
def faults (m : Manifest) : List Fault :=
  faultsAmong (definitionFault? .terminal) [] m.terminals
    ++ (faultsAmong (definitionFault? .rule) [] m.rules
      ++ (faultsAmong templateFault? [] m.templates ++ faultsAmong directiveFault? [] m.directives))

/-! ## No faults -/

theorem ruleProblem?_eq_none {name : String} : ruleProblem? name = none ↔ isRuleName name = true :=
  Option.isNone_iff_eq_none.symm

theorem clash?_eq_none {space : Namespace} {name : String} {replace : Bool} {taken : List String} :
    clash? space name replace taken = none ↔ ∀ a ∈ taken, a = name → replace = true := by
  unfold clash?
  constructor
  · intro h a ha hname
    cases hr : replace with
    | true => rfl
    | false =>
      rw [if_pos ⟨hname ▸ ha, hr⟩] at h
      cases h
  · intro h
    refine if_neg fun hc => ?_
    rw [h name hc.1 rfl] at hc
    exact absurd hc.2 (by decide)

theorem definitionFault?_eq_none {kind : NameClass} (before : List DefinitionEntry)
    (e : DefinitionEntry) :
    definitionFault? kind before e = none ↔
      e.IsSound kind ∧ ∀ x ∈ before, x.name = e.name → e.replace = true := by
  unfold definitionFault?
  rw [Option.map_eq_none_iff, Option.or_eq_none_iff, Option.or_eq_none_iff, nameFault?_eq_none,
    nameProblem?_eq_none, Node.firstFault?_eq_none, clash?_eq_none, List.forall_mem_map]
  constructor
  · rintro ⟨hbody, hname, hclash⟩
    exact ⟨⟨hname, hbody⟩, hclash⟩
  · rintro ⟨⟨hname, hbody⟩, hclash⟩
    exact ⟨hbody, hname, hclash⟩

theorem templateFault?_eq_none (before : List TemplateEntry) (e : TemplateEntry) :
    templateFault? before e = none ↔
      e.IsSound ∧ ∀ x ∈ before, x.name = e.name → e.replace = true := by
  have hparams : (if e.params = [] then some (.noParameters e.name) else none : Option GrammarError)
      = none ↔ e.params ≠ [] := by
    split <;> simp_all
  unfold templateFault?
  rw [Option.map_eq_none_iff, Option.or_eq_none_iff, Option.or_eq_none_iff, Option.or_eq_none_iff,
    Option.or_eq_none_iff, nameFault?_eq_none, nameProblem?, ruleProblem?_eq_none,
    Node.firstFault?_eq_none, Node.firstFault?_eq_none, hparams, clash?_eq_none, List.forall_mem_map]
  constructor
  · rintro ⟨hp, hbody, hname, hne, hclash⟩
    exact ⟨⟨hname, List.forall_mem_append.mpr ⟨hp, hbody⟩, hne⟩, hclash⟩
  · rintro ⟨⟨hname, hnodes, hne⟩, hclash⟩
    obtain ⟨hp, hbody⟩ := List.forall_mem_append.mp hnodes
    exact ⟨hp, hbody, hname, hne, hclash⟩

theorem directiveFault?_eq_none (before : List DirectiveEntry) (e : DirectiveEntry) :
    directiveFault? before e = none ↔ e.IsSound ∧ ∀ x ∈ before, True := by
  obtain ⟨name, raw, node⟩ := e
  unfold directiveFault?
  cases raw with
  | none =>
    cases node with
    | none =>
      constructor
      · intro h
        cases h
      · intro h
        exact absurd rfl h.1.content
    | some n =>
      rw [Option.map_eq_none_iff, Option.or_eq_none_iff, nameFault?_eq_none, nameProblem?,
        ruleProblem?_eq_none, Node.fault?_eq_none]
      constructor
      · rintro ⟨hn, hname⟩
        refine ⟨⟨hname, Bool.false_ne_true, fun n' h => ?_⟩, fun _ _ => trivial⟩
        obtain rfl : n = n' := Option.some.inj h
        exact hn
      · rintro ⟨⟨hname, -, hn⟩, -⟩
        exact ⟨hn n rfl, hname⟩
  | some text =>
    cases node with
    | none =>
      rw [Option.map_eq_none_iff, nameFault?_eq_none, nameProblem?, ruleProblem?_eq_none]
      constructor
      · intro hname
        refine ⟨⟨hname, Bool.false_ne_true.symm, fun n h => ?_⟩, fun _ _ => trivial⟩
        cases h
      · rintro ⟨⟨hname, -, -⟩, -⟩
        exact hname
    | some n =>
      constructor
      · intro h
        cases h
      · intro h
        exact absurd rfl h.1.content

/-- There are no faults exactly if the manifest can be built. -/
theorem faults_eq_nil (m : Manifest) : m.faults = [] ↔ m.Buildable := by
  unfold faults
  rw [List.append_eq_nil_iff, List.append_eq_nil_iff, List.append_eq_nil_iff,
    faultsAmong_eq_nil definitionFault?_eq_none, faultsAmong_eq_nil definitionFault?_eq_none,
    faultsAmong_eq_nil templateFault?_eq_none, faultsAmong_eq_nil directiveFault?_eq_none]
  constructor
  · rintro ⟨⟨hts, -, htn⟩, ⟨hrs, -, hrn⟩, ⟨hms, -, hmn⟩, hds, -, -⟩
    exact ⟨hts, hrs, hms, hds, htn, hrn, hmn⟩
  · rintro ⟨hts, hrs, hms, hds, htn, hrn, hmn⟩
    exact ⟨⟨hts, List.forall_mem_nil _, htn⟩, ⟨hrs, List.forall_mem_nil _, hrn⟩,
      ⟨hms, List.forall_mem_nil _, hmn⟩, hds, List.forall_mem_nil _,
      List.pairwise_of_forall fun _ _ => trivial⟩

/-- The nodes of an entry come before its name, and the terminals before the rules. -/
example : faults {
      rules := [⟨"a", [], none, 1, false⟩, ⟨"a", [], none, 1, false⟩]
      terminals := [⟨"b", [.reference .rule "C"], none, 1, false⟩] }
    = [.definition "b" (.invalidName "C" .rule .uppercaseInRule),
      .definition "a" (.duplicateName "a" .rule)] := by decide

end Manifest

end GrammarText
