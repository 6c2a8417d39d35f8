import GrammarText.Manifest.File
import GrammarText.Proofs.Manifest.Faults
import Mathlib.Data.List.Forall2

/-!
What a manifest builds.

- `Manifest.Gives`: the grammar that a manifest describes. Each namespace has the names of its entries
  in the order of their first occurrences, each with what its last entry gives; the directives are
  one for each entry.
- `foldlM_outcome`: a run over the entries of one list, from one step. `Manifest.build_outcome`: the
  run over all four.
- `Manifest.builds_exactly`: a manifest that can be built is built to the grammar that it describes,
  and any other one to its first fault.
-/

namespace GrammarText

/-! ## What an entry gives -/

/-- The definition that the entry describes, with handles issued by the grammar of the identity. -/
def DefinitionEntry.Gives (id : GrammarId) (kind : NameClass) (e : DefinitionEntry)
    (d : Definition) : Prop :=
  ∃ tokens, Node.toExprs (Grammar.new id) e.body = .ok tokens ∧
    d = ⟨kind, e.name, tokens, e.modifier.getD .none, e.priority⟩

def TemplateEntry.Gives (id : GrammarId) (e : TemplateEntry) (t : TemplateDef) : Prop :=
  ∃ params tokens, Node.toExprs (Grammar.new id) e.params = .ok params ∧
    Node.toExprs (Grammar.new id) e.body = .ok tokens ∧
      t = ⟨e.name, params, tokens, e.modifier.getD .none⟩

def DirectiveEntry.Gives (id : GrammarId) (e : DirectiveEntry) (d : Directive) : Prop :=
  (∃ text, e.raw = some text ∧ e.node = none ∧ d = ⟨e.name, .raw text⟩) ∨
    ∃ n x, e.raw = none ∧ e.node = some n ∧ n.toExpr (Grammar.new id) = .ok x ∧
      d = ⟨e.name, .node x.spelledOut⟩

/-- The grammar is the one that the manifest describes. -/
structure Manifest.Gives (id : GrammarId) (m : Manifest) (g : Grammar) : Prop where
  identity : g.id = id
  terminals : g.terminals.Collected (·.name) (DefinitionEntry.Gives id .terminal) m.terminals
  rules : g.rules.Collected (·.name) (DefinitionEntry.Gives id .rule) m.rules
  templates : g.templates.Collected (·.name) (TemplateEntry.Gives id) m.templates
  directives : List.Forall₂ (DirectiveEntry.Gives id) m.directives g.directives

namespace Manifest

variable {id : GrammarId} {g : Grammar}

/-! ## One entry -/

theorem blame_outcome {α : Type} {fault : Option GrammarError} {P : α → Prop}
    {r : Except GrammarError α} (name : String) (h : Outcome fault P r) :
    Outcome (fault.map (.definition name)) P (blame name r) := by
  cases fault with
  | some e =>
    have hr : r = .error e := h
    rw [hr]
    exact rfl
  | none =>
    obtain ⟨a, ha, hp⟩ := h
    rw [ha]
    exact .ok hp

theorem toExpr_outcome_new (hid : g.id = id) (n : Node) :
    Outcome n.fault? (fun x => n.toExpr (Grammar.new id) = .ok x) (n.toExpr g) := by
  have hsame : n.toExpr g = n.toExpr (Grammar.new id) := Node.toExpr_congr hid n
  exact (Node.toExpr_outcome g n).imp fun x hx _ => hsame.symm.trans hx

theorem toExprs_outcome_new (hid : g.id = id) (ns : List Node) :
    Outcome (Node.firstFault? ns)
      (fun xs => Node.toExprs (Grammar.new id) ns = .ok xs ∧ xs.length = ns.length)
      (Node.toExprs g ns) := by
  have hsame : Node.toExprs g ns = Node.toExprs (Grammar.new id) ns := Node.toExprs_congr hid ns
  exact (Node.toExprs_outcome g ns).imp fun xs hxs h => ⟨hsame.symm.trans hxs, h.1⟩

/-- A name is taken in the grammar if an earlier entry has it. -/
theorem clash_eq {ε α : Type} {nameOf : ε → String} {P : ε → α → Prop} {before : List ε}
    {es : Entries α} (h : es.Collected nameOf P before) (space : Namespace) (name : String)
    (replace : Bool) :
    (if es.has name && !replace then some (.duplicateName name space) else none)
      = clash? space name replace (before.map nameOf) := by
  unfold clash?
  refine if_congr ?_ rfl rfl
  rw [Bool.and_eq_true, Bool.not_eq_true', h.has_iff]

theorem after_eq (step : GrammarStep Unit) (g : Grammar) :
    after step g = match step g with
      | .ok _ g => .ok g
      | .error e _ => .error e := rfl

theorem putDefinition_outcome (g : Grammar) (kind : NameClass) (name : String) (body : Body)
    (options : DefOptions) :
    Outcome ((nameFault? kind.space name).or
        (if (g.definitions kind).has name && !options.replace then
          some (.duplicateName name kind.space) else none))
      (fun g' => g' = g.setDefinitions kind
        ((g.definitions kind).put name (.ofBody kind name body options)))
      (after (Grammar.putDefinition kind name body options) g) := by
  rw [after_eq, putDefinition_eq, nameFault?]
  cases nameProblem? kind.space name with
  | some problem => exact rfl
  | none =>
    by_cases hd : ((g.definitions kind).has name && !options.replace) = true
    · simp only [if_pos hd]
      exact rfl
    · simp only [if_neg hd]
      exact .ok rfl

theorem addDefinition_outcome {kind : NameClass} {before : List DefinitionEntry}
    (hid : g.id = id)
    (hes : (g.definitions kind).Collected (·.name) (DefinitionEntry.Gives id kind) before)
    (e : DefinitionEntry) :
    Outcome (definitionFault? kind before e)
      (fun g' => ∃ d, e.Gives id kind d ∧
        g' = g.setDefinitions kind ((g.definitions kind).put e.name d))
      (blame e.name (addDefinition kind g e)) := by
  refine blame_outcome e.name ((toExprs_outcome_new hid e.body).bind fun tokens htokens => ?_)
  have hput := putDefinition_outcome g kind e.name { tokens }
    { modifier := e.modifier.getD .none, priority := e.priority, replace := e.replace }
  rw [clash_eq hes] at hput
  exact hput.imp fun g' _ hg' => ⟨_, ⟨tokens, htokens.1, rfl⟩, hg'⟩

theorem putTemplate_outcome (g : Grammar) (name : String) (params : List Expr) (tokens : List Expr)
    (modifier : Modifier) (replace : Bool) :
    Outcome ((nameFault? .template name).or
        ((if params = [] then some (.noParameters name) else none).or
          (if g.templates.has name && !replace then
            some (.duplicateName name .template) else none)))
      (fun g' => g' = { g with templates := g.templates.put name ⟨name, params, tokens, modifier⟩ })
      (after (Grammar.putTemplate name (.tuple params) { tokens } { modifier, replace }) g) := by
  rw [after_eq, putTemplate_eq, nameFault?, nameProblem?]
  cases ruleProblem? name with
  | some problem => exact rfl
  | none =>
    cases params with
    | nil => exact rfl
    | cons x xs =>
      by_cases hd : (g.templates.has name && !replace) = true
      · simp only [if_pos hd]
        exact rfl
      · simp only [if_neg hd]
        exact .ok rfl

theorem addTemplate_outcome {before : List TemplateEntry} (hid : g.id = id)
    (hes : g.templates.Collected (·.name) (TemplateEntry.Gives id) before) (e : TemplateEntry) :
    Outcome (templateFault? before e)
      (fun g' => ∃ t, e.Gives id t ∧ g' = { g with templates := g.templates.put e.name t })
      (blame e.name (addTemplate g e)) := by
  refine blame_outcome e.name ((toExprs_outcome_new hid e.params).bind fun params hparams =>
    (toExprs_outcome_new hid e.body).bind fun tokens htokens => ?_)
  have hput := putTemplate_outcome g e.name params tokens (e.modifier.getD .none) e.replace
  -- the grammar counts the converted parameters, the fault those of the entry
  have hempty : params = [] ↔ e.params = [] := by
    rw [← List.length_eq_zero_iff, hparams.2, List.length_eq_zero_iff]
  rw [clash_eq hes, if_congr hempty rfl rfl] at hput
  exact hput.imp fun g' _ hg' => ⟨_, ⟨params, tokens, hparams.1, htokens.1, rfl⟩, hg'⟩

theorem appendDirective_outcome (g : Grammar) (name : String) (content : DirectiveContent) :
    Outcome (nameFault? .directive name)
      (fun g' => g' = { g with directives := g.directives ++ [⟨name, content⟩] })
      (after (Grammar.appendDirective name content) g) := by
  rw [after_eq, appendDirective_eq, nameFault?, nameProblem?]
  cases ruleProblem? name with
  | some problem => exact rfl
  | none => exact .ok rfl

theorem addDirective_outcome (hid : g.id = id) (before : List DirectiveEntry) (e : DirectiveEntry) :
    Outcome (directiveFault? before e)
      (fun g' => ∃ d, e.Gives id d ∧ g' = { g with directives := g.directives ++ [d] })
      (addDirective g e) := by
  obtain ⟨name, raw, node⟩ := e
  cases raw with
  | none =>
    cases node with
    | none => exact rfl
    | some n =>
      refine blame_outcome name ((toExpr_outcome_new hid n).bind fun x hx => ?_)
      refine (appendDirective_outcome g name (.node x.spelledOut)).imp fun g' _ hg' => ?_
      exact ⟨_, Or.inr ⟨n, x, rfl, rfl, hx, rfl⟩, hg'⟩
  | some text =>
    cases node with
    | none =>
      refine blame_outcome name ((appendDirective_outcome g name (.raw text)).imp fun g' _ hg' => ?_)
      exact ⟨_, Or.inl ⟨text, rfl, rfl, rfl⟩, hg'⟩
    | some n => exact rfl

/-! ## One list of entries -/

/-- If every entry keeps an invariant of the entries so far and the grammar, or stops with its fault,
then so does the list, which stops with the first fault. -/
theorem foldlM_outcome {ε : Type} (Inv : List ε → Grammar → Prop)
    {fault? : List ε → ε → Option Fault} {step : Grammar → ε → Except Fault Grammar}
    (hstep : ∀ before e g, Inv before g → Outcome (fault? before e) (Inv (before ++ [e])) (step g e))
    (before rest : List ε) (g : Grammar) (h : Inv before g) :
    Outcome (faultsAmong fault? before rest).head? (Inv (before ++ rest)) (rest.foldlM step g) := by
  induction rest generalizing before g with
  | nil =>
    rw [List.append_nil]
    exact .ok h
  | cons e rest ih =>
    -- the entry joins those that the rest is held against
    have hrest := (hstep before e g h).bind fun g' hg' => ih (before ++ [e]) g' hg'
    rw [faultsAmong, List.head?_append, List.foldlM_cons, List.append_cons before e rest]
    cases hf : fault? before e with
    | some f => rw [hf] at hrest; exact hrest
    | none => rw [hf] at hrest; exact hrest

/-! ## All entries -/

theorem gives_nil (id : GrammarId) : Gives id {} (Grammar.new id) where
  identity := rfl
  terminals := .nil
  rules := .nil
  templates := .nil
  directives := .nil

variable (m : Manifest)

theorem terminal_step (before : List DefinitionEntry) (e : DefinitionEntry) (g : Grammar)
    (h : Gives id { m with terminals := before } g) :
    Outcome (definitionFault? .terminal before e) (Gives id { m with terminals := before ++ [e] })
      (blame e.name (addDefinition .terminal g e)) := by
  refine (addDefinition_outcome h.identity h.terminals e).imp fun g' _ hg' => ?_
  obtain ⟨d, hd, rfl⟩ := hg'
  exact ⟨h.identity, h.terminals.put hd, h.rules, h.templates, h.directives⟩

theorem rule_step (before : List DefinitionEntry) (e : DefinitionEntry) (g : Grammar)
    (h : Gives id { m with rules := before } g) :
    Outcome (definitionFault? .rule before e) (Gives id { m with rules := before ++ [e] })
      (blame e.name (addDefinition .rule g e)) := by
  refine (addDefinition_outcome h.identity h.rules e).imp fun g' _ hg' => ?_
  obtain ⟨d, hd, rfl⟩ := hg'
  exact ⟨h.identity, h.terminals, h.rules.put hd, h.templates, h.directives⟩

theorem template_step (before : List TemplateEntry) (e : TemplateEntry) (g : Grammar)
    (h : Gives id { m with templates := before } g) :
    Outcome (templateFault? before e) (Gives id { m with templates := before ++ [e] })
      (blame e.name (addTemplate g e)) := by
  refine (addTemplate_outcome h.identity h.templates e).imp fun g' _ hg' => ?_
  obtain ⟨t, ht, rfl⟩ := hg'
  exact ⟨h.identity, h.terminals, h.rules, h.templates.put ht, h.directives⟩

theorem directive_step (before : List DirectiveEntry) (e : DirectiveEntry) (g : Grammar)
    (h : Gives id { m with directives := before } g) :
    Outcome (directiveFault? before e) (Gives id { m with directives := before ++ [e] })
      (addDirective g e) := by
  refine (addDirective_outcome h.identity before e).imp fun g' _ hg' => ?_
  obtain ⟨d, hd, rfl⟩ := hg'
  exact ⟨h.identity, h.terminals, h.rules, h.templates,
    List.rel_append h.directives (.cons hd .nil)⟩

/-- The build stops with the first fault of the manifest, or gives what the manifest describes. -/
theorem build_outcome (id : GrammarId) :
    Outcome m.faults.head? (m.Gives id) (m.build id) := by
  unfold build faults
  rw [List.head?_append, List.head?_append, List.head?_append]
  refine (foldlM_outcome (fun before => Gives id { terminals := before })
    (terminal_step {}) [] m.terminals _ (gives_nil id)).bind fun g₁ h₁ => ?_
  refine (foldlM_outcome (fun before => Gives id { terminals := m.terminals, rules := before })
    (rule_step { terminals := m.terminals }) [] m.rules g₁ h₁).bind fun g₂ h₂ => ?_
  refine (foldlM_outcome (fun before => Gives id
    { terminals := m.terminals, rules := m.rules, templates := before })
    (template_step { terminals := m.terminals, rules := m.rules }) [] m.templates g₂ h₂).bind fun g₃ h₃ => ?_
  exact (foldlM_outcome (fun before => Gives id { m with directives := before })
    (directive_step m) [] m.directives g₃
    ⟨h₃.identity, h₃.terminals, h₃.rules, h₃.templates, h₃.directives⟩)

/-- A manifest is built exactly if it can be: all names are names of their namespace, all nodes
convert, an entry with the name of an earlier one replaces it, a template has a parameter, and a
directive has one content. The result is what the manifest describes. If it cannot be built, the error
is the first fault of its entries; with a source text it is the same one, placed in the text. -/
theorem builds_exactly (m : Manifest) (id : GrammarId) (source : String) :
    (m.Buildable ∧ ∃ g, m.toGrammar id = .ok g ∧ m.buildFrom source id = .ok g ∧ m.Gives id g) ∨
      (¬ m.Buildable ∧ ∃ fault, m.faults.head? = some fault ∧
        m.toGrammar id = .error fault.cause ∧
          m.buildFrom source id = .error (.ofFault source fault)) := by
  have hbuild := m.build_outcome id
  unfold toGrammar buildFrom
  cases hf : m.faults with
  | nil =>
    rw [hf] at hbuild
    obtain ⟨g, hg, hgives⟩ := hbuild
    rw [hg]
    exact Or.inl ⟨m.faults_eq_nil.mp hf, g, rfl, rfl, hgives⟩
  | cons fault rest =>
    rw [hf] at hbuild
    have herror : m.build id = .error fault := hbuild
    rw [herror]
    refine Or.inr ⟨fun hb => ?_, fault, rfl, rfl, rfl⟩
    rw [m.faults_eq_nil.mpr hb] at hf
    cases hf

end Manifest

end GrammarText
