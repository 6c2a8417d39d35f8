import GrammarText.Proofs.Entries
import GrammarText.Proofs.Grammar.Steps
import GrammarText.Proofs.Name

/-!
What every operation on a grammar keeps, and what a failure leaves behind.

An operation fails and leaves the grammar, or it succeeds with one `Grammar.Move` (`perform_cases`).
All else is read off the five moves.

- `Grammar.Consistent`: the entries of each map stand under distinct keys, which are their names,
  and fit their namespace. A move keeps it (`consistent_move`), so every run does (`consistent_runAll`).
- `run_keeps_registry`: the same, said of the reached grammar map by map.
- `failure_changes_nothing`: a failed operation leaves the whole grammar as it was.
-/

namespace GrammarText

open Grammar

/-! ## What an operation can do -/

/-- What an operation that succeeds does to a grammar. -/
inductive Grammar.Move (g : Grammar) : Grammar → Prop
  | fileDefinition (d : Definition) : nameProblem? d.kind.space d.name = none →
      Move g (g.setDefinitions d.kind ((g.definitions d.kind).put d.name d))
  | fileTemplate (t : TemplateDef) : ruleProblem? t.name = none → t.params ≠ [] →
      Move g { g with templates := g.templates.put t.name t }
  | appendDirective (d : Directive) : ruleProblem? d.name = none →
      Move g { g with directives := g.directives ++ [d] }
  | changeDefinition (kind : NameClass) (name : String) (f : Definition → Definition) :
      (∀ d, (f d).name = d.name) → (∀ d, (f d).kind = d.kind) →
      Move g (g.setDefinitions kind ((g.definitions kind).update name f))
  | changeTemplate (name : String) (f : TemplateDef → TemplateDef) :
      (∀ t, (f t).name = t.name) → (∀ t, (f t).params = t.params) →
      Move g { g with templates := g.templates.update name f }

/-- From `g` the step fails and leaves `g`, or it succeeds with one move. -/
def Settles (g : Grammar) (step : GrammarStep Unit) : Prop :=
  (∃ e, step g = .error e g) ∨ ∃ g', step g = .ok () g' ∧ g.Move g'

variable {g : Grammar}

theorem settles_putDefinition (kind : NameClass) (name : String) (body : Body)
    (options : DefOptions) : Settles g (putDefinition kind name body options) := by
  unfold Settles
  rw [putDefinition_eq]
  split
  · exact Or.inl ⟨_, rfl⟩
  rename_i hn
  split
  · exact Or.inl ⟨_, rfl⟩
  · exact Or.inr ⟨_, rfl, .fileDefinition (.ofBody kind name body options) hn⟩

theorem settles_putTemplate (name : String) (params : Expr) (body : Body) (options : DefOptions) :
    Settles g (putTemplate name params body options) := by
  unfold Settles
  rw [putTemplate_eq]
  split
  · exact Or.inl ⟨_, rfl⟩
  rename_i hn
  split
  · exact Or.inl ⟨_, rfl⟩
  split
  · exact Or.inl ⟨_, rfl⟩
  rename_i hp
  split
  · exact Or.inl ⟨_, rfl⟩
  · refine Or.inr ⟨_, rfl, .fileTemplate (.ofBody name params.params body options.modifier) hn ?_⟩
    exact fun h => hp (List.isEmpty_iff.mpr h)

theorem settles_appendDirective (name : String) (content : DirectiveContent) :
    Settles g (appendDirective name content) := by
  unfold Settles
  rw [appendDirective_eq]
  split
  · exact Or.inl ⟨_, rfl⟩
  · rename_i hn
    exact Or.inr ⟨_, rfl, .appendDirective ⟨name, content⟩ hn⟩

theorem settles_define (name : String) (body : Body) : Settles g (define name body) := by
  unfold Settles
  rw [define_eq]
  split
  · exact settles_putDefinition _ name body {}
  · exact Or.inl ⟨_, rfl⟩

theorem settles_assign (h : Handle) (key : Key) (body : Body) : Settles g (assign h key body) := by
  unfold Settles
  rw [assign_eq]
  split
  · exact Or.inl ⟨_, rfl⟩
  split
  · exact settles_putDefinition _ h.name body _
  · exact settles_putTemplate h.name _ body {}
  · exact Or.inl ⟨_, rfl⟩

theorem settles_changeDefinition (kind : NameClass) (name : String) (c : Definition.Change) :
    Settles g (changeDefinition kind name c) := by
  refine Or.inr ⟨_, rfl, .changeDefinition kind name (·.change c) ?_ ?_⟩
  · intro d; cases c <;> rfl
  · intro d; cases c <;> rfl

theorem settles_updateTokens (name : String) (change : List Expr → List Expr) :
    Settles g (updateTokens name change) := by
  unfold Settles
  rw [updateTokens_eq]
  split
  · exact Or.inr ⟨_, rfl, .changeDefinition .rule name _ (fun _ => rfl) fun _ => rfl⟩
  split
  · exact Or.inr ⟨_, rfl, .changeDefinition .terminal name _ (fun _ => rfl) fun _ => rfl⟩
  split
  · exact Or.inr ⟨_, rfl, .changeTemplate name _ (fun _ => rfl) fun _ => rfl⟩
  · exact Or.inl ⟨_, rfl⟩

theorem settles_edit (name : String) (e : Edit) : Settles g (edit name e) := by
  unfold Settles
  rw [edit_eq]
  split
  · exact Or.inr ⟨_, rfl, .changeDefinition .rule name _ (fun _ => rfl) fun _ => rfl⟩
  split
  · exact Or.inr ⟨_, rfl, .changeDefinition .terminal name _ (fun _ => rfl) fun _ => rfl⟩
  split
  · split
    · exact Or.inl ⟨_, rfl⟩
    · exact Or.inr ⟨_, rfl, .changeTemplate name _ (fun _ => rfl) fun _ => rfl⟩
  · exact Or.inl ⟨_, rfl⟩

theorem settles_run (op : Operation) : Settles g op.run := by
  cases op with
  | define name body => exact settles_define name body
  | putDefinition kind name body options => exact settles_putDefinition kind name body options
  | putTemplate name params body options => exact settles_putTemplate name params body options
  | appendDirective name content => exact settles_appendDirective name content
  | assign h key body => exact settles_assign h key body
  | change kind name c => exact settles_changeDefinition kind name c
  | extend name alternatives =>
    exact settles_updateTokens name fun tokens => [.choice (tokens ++ alternatives)]
  | replace name body => exact settles_updateTokens name fun _ => body.tokens
  | edit name e => exact settles_edit name e

/-- An operation fails and leaves the grammar, or it succeeds with one move. -/
theorem perform_cases (g : Grammar) (op : Operation) :
    (∃ e, g.perform op = (.error e, g)) ∨ ∃ g', g.perform op = (.ok (), g') ∧ g.Move g' := by
  rcases settles_run (g := g) op with ⟨e, he⟩ | ⟨g', hg, hm⟩
  · exact Or.inl ⟨e, by rw [perform_eq, he]⟩
  · exact Or.inr ⟨g', by rw [perform_eq, hg], hm⟩

/-! ## What every run keeps -/

/-- Rules, terminals and templates stand under distinct keys, their own names; each is of the kind
of its map, under a name that its namespace takes; a template has a parameter. -/
structure Grammar.Consistent (g : Grammar) : Prop where
  definitions : ∀ kind, Entries.Filed Definition.name
    (fun d => d.kind = kind ∧ nameProblem? kind.space d.name = none) (g.definitions kind)
  templates : Entries.Filed TemplateDef.name
    (fun t => ruleProblem? t.name = none ∧ t.params ≠ []) g.templates
  directives : ∀ d ∈ g.directives, ruleProblem? d.name = none

theorem definitions_setDefinitions (g : Grammar) (kind other : NameClass)
    (entries : Entries Definition) :
    (g.setDefinitions kind entries).definitions other =
      if other = kind then entries else g.definitions other := by
  cases kind <;> cases other <;> rfl

@[simp] theorem templates_setDefinitions (g : Grammar) (kind : NameClass)
    (entries : Entries Definition) : (g.setDefinitions kind entries).templates = g.templates := by
  cases kind <;> rfl

@[simp] theorem directives_setDefinitions (g : Grammar) (kind : NameClass)
    (entries : Entries Definition) : (g.setDefinitions kind entries).directives = g.directives := by
  cases kind <;> rfl

theorem consistent_new (id : GrammarId) : (Grammar.new id).Consistent where
  definitions kind := by cases kind <;> exact Entries.Filed.nil
  templates := Entries.Filed.nil
  directives _ h := nomatch h

/-- A change of the rules or of the terminals is a matter of these entries alone. -/
theorem consistent_setDefinitions (hg : g.Consistent) {kind : NameClass}
    {entries : Entries Definition} (h : Entries.Filed Definition.name
      (fun d => d.kind = kind ∧ nameProblem? kind.space d.name = none) entries) :
    (g.setDefinitions kind entries).Consistent := by
  refine ⟨fun other => ?_, by simpa using hg.templates, by simpa using hg.directives⟩
  rw [definitions_setDefinitions]
  split
  · rename_i e; subst e; exact h
  · exact hg.definitions other

theorem consistent_move {g' : Grammar} (hg : g.Consistent) (h : g.Move g') : g'.Consistent := by
  cases h with
  | fileDefinition d hn =>
    exact consistent_setDefinitions hg ((hg.definitions d.kind).put ⟨rfl, hn⟩)
  | fileTemplate t hn hp => exact ⟨hg.definitions, hg.templates.put ⟨hn, hp⟩, hg.directives⟩
  | appendDirective d hn =>
    refine ⟨hg.definitions, hg.templates, fun d' hd => ?_⟩
    rcases List.mem_append.mp hd with hd | hd
    · exact hg.directives d' hd
    · rw [List.mem_singleton.mp hd]; exact hn
  | changeDefinition kind name f hname hkind =>
    refine consistent_setDefinitions hg ((hg.definitions kind).update name hname fun d hd => ?_)
    rw [hname, hkind]; exact hd
  | changeTemplate name f hname hparams =>
    refine ⟨hg.definitions, hg.templates.update name hname fun t ht => ?_, hg.directives⟩
    rw [hname, hparams]; exact ht

theorem consistent_perform (hg : g.Consistent) (op : Operation) : (g.perform op).2.Consistent := by
  rcases perform_cases g op with ⟨e, he⟩ | ⟨g', hg', hm⟩
  · rw [he]; exact hg
  · rw [hg']; exact consistent_move hg hm

theorem consistent_runAll (ops : List Operation) (hg : g.Consistent) :
    (g.runAll ops).Consistent := by
  induction ops generalizing g with
  | nil => exact hg
  | cons op ops ih => exact ih (consistent_perform hg op)

/-- A run from an empty grammar comes to this one. -/
def Grammar.IsReachable (g : Grammar) : Prop := ∃ id ops, g = (Grammar.new id).runAll ops

theorem Grammar.IsReachable.consistent (hg : g.IsReachable) : g.Consistent := by
  obtain ⟨id, ops, rfl⟩ := hg
  exact consistent_runAll ops (consistent_new id)

theorem isRuleName_of_problem {name : String} (h : ruleProblem? name = none) :
    isRuleName name = true := by rw [isRuleName, h, Option.isNone_none]

theorem isTerminalName_of_problem {name : String} (h : terminalProblem? name = none) :
    isTerminalName name = true := by rw [isTerminalName, h, Option.isNone_none]

theorem nameProblem?_eq_none {k : NameClass} {name : String} :
    nameProblem? k.space name = none ↔ k.admits name = true := by
  cases k with
  | rule => exact Option.isNone_iff_eq_none.symm
  | terminal => exact Option.isNone_iff_eq_none.symm

theorem admits_of_classify {k : NameClass} {name : String} (h : classify name = .ok k) :
    k.admits name = true := by
  unfold classify at h
  split at h
  · rename_i hr
    cases h
    exact isRuleName_of_problem hr
  · rename_i ht _
    cases h
    exact isTerminalName_of_problem ht
  · split at h <;> cases h

theorem rule_entry (hg : g.Consistent) {e : String × Definition} (he : e ∈ g.rules) :
    e.2.name = e.1 ∧ e.2.kind = .rule ∧ isRuleName e.1 = true := by
  obtain ⟨hn, hk, hp⟩ := (hg.definitions .rule).each e he
  rw [hn] at hp
  exact ⟨hn, hk, isRuleName_of_problem hp⟩

theorem terminal_entry (hg : g.Consistent) {e : String × Definition} (he : e ∈ g.terminals) :
    e.2.name = e.1 ∧ e.2.kind = .terminal ∧ isTerminalName e.1 = true := by
  obtain ⟨hn, hk, hp⟩ := (hg.definitions .terminal).each e he
  rw [hn] at hp
  exact ⟨hn, hk, isTerminalName_of_problem hp⟩

theorem template_entry (hg : g.Consistent) {e : String × TemplateDef} (he : e ∈ g.templates) :
    e.2.name = e.1 ∧ isRuleName e.1 = true ∧ e.2.params ≠ [] := by
  obtain ⟨hn, hr, hp⟩ := hg.templates.each e he
  rw [hn] at hr
  exact ⟨hn, isRuleName_of_problem hr, hp⟩

/-- A terminal's name names no rule and no template: the classes of names are disjoint. -/
theorem terminal_key_only (hg : g.Consistent) {name : String} (h : name ∈ g.terminals.keys) :
    name ∉ g.rules.keys ∧ name ∉ g.templates.keys := by
  obtain ⟨e, he, rfl⟩ := List.mem_map.mp h
  have ht := (terminal_entry hg he).2.2
  have hno : isRuleName e.1 ≠ true := fun hr => by
    rw [rule_not_terminal hr] at ht
    cases ht
  refine ⟨fun h => ?_, fun h => ?_⟩
  · obtain ⟨f, hf, hfe⟩ := List.mem_map.mp h
    exact hno (hfe ▸ (rule_entry hg hf).2.2)
  · obtain ⟨f, hf, hfe⟩ := List.mem_map.mp h
    exact hno (hfe ▸ (template_entry hg hf).2.1)

/-- After every run from an empty grammar, whichever of its operations failed: the keys of rules,
terminals and templates are distinct and are the names of what stands under them; names are of the
class of their namespace, definitions of the kind of their map; a template has a parameter; and no
name is at once a terminal's and a rule's or a template's. -/
theorem run_keeps_registry (id : GrammarId) (ops : List Operation) :
    let g := (Grammar.new id).runAll ops
    (g.rules.keys.Nodup ∧ g.terminals.keys.Nodup ∧ g.templates.keys.Nodup) ∧
      (∀ e ∈ g.rules, e.2.name = e.1 ∧ e.2.kind = .rule ∧ isRuleName e.1 = true) ∧
      (∀ e ∈ g.terminals, e.2.name = e.1 ∧ e.2.kind = .terminal ∧ isTerminalName e.1 = true) ∧
      (∀ e ∈ g.templates, e.2.name = e.1 ∧ isRuleName e.1 = true ∧ e.2.params ≠ []) ∧
      (∀ d ∈ g.directives, isRuleName d.name = true) ∧
      ∀ name ∈ g.terminals.keys, name ∉ g.rules.keys ∧ name ∉ g.templates.keys := by
  intro g
  have hg : g.Consistent := consistent_runAll ops (consistent_new id)
  refine ⟨⟨(hg.definitions .rule).distinct, (hg.definitions .terminal).distinct,
    hg.templates.distinct⟩, fun _ he => rule_entry hg he, fun _ he => terminal_entry hg he,
    fun _ he => template_entry hg he, fun d hd => isRuleName_of_problem (hg.directives d hd),
    fun _ h => terminal_key_only hg h⟩

/-! ## Failures -/

theorem perform_error (op : Operation) {e : GrammarError} (h : (g.perform op).1 = .error e) :
    (g.perform op).2 = g := by
  rcases perform_cases g op with ⟨e', he⟩ | ⟨g', hg', -⟩
  · rw [he]
  · rw [hg'] at h; cases h

/-- A name that leads to a template is a template's alone among the three maps. -/
theorem has_of_find?_template {name : String} {t : TemplateDef}
    (hf : g.find? name = some (.template t)) :
    g.rules.has name = false ∧ g.terminals.has name = false ∧ g.templates.has name = true := by
  unfold find? at hf
  unfold Entries.has
  cases hr : g.rules.get? name with
  | some d => rw [hr] at hf; cases hf
  | none =>
    cases ht : g.terminals.get? name with
    | some d => rw [hr, ht] at hf; cases hf
    | none =>
      cases hm : g.templates.get? name with
      | some t => exact ⟨rfl, rfl, rfl⟩
      | none => rw [hr, ht, hm] at hf; cases hf

theorem edit_template_priority {name : String} {t : TemplateDef} {e : Edit}
    (hf : g.find? name = some (.template t)) (he : e.priority.isSome = true) :
    g.perform (.edit name e) = (.error (.templatePriority name), g) := by
  obtain ⟨hr, ht, hm⟩ := has_of_find?_template hf
  have hrun : Operation.run (.edit name e) g = .error (.templatePriority name) g := by
    simp [Operation.run, edit_eq, hr, ht, hm, he]
  rw [perform_eq, hrun]

/-- The operation files a definition under a name, and does not ask to replace what is there. -/
inductive Operation.Registers : Operation → Namespace → String → Prop
  | define {name : String} {kind : NameClass} (body : Body) : classify name = .ok kind →
      Registers (.define name body) kind.space name
  | putDefinition (kind : NameClass) (name : String) (body : Body) {options : DefOptions} :
      options.replace = false → Registers (.putDefinition kind name body options) kind.space name
  | putTemplate (name : String) (params : Expr) (body : Body) {options : DefOptions} :
      options.replace = false → Registers (.putTemplate name params body options) .template name
  | assignPriority (h : Handle) (n : Int) (body : Body) :
      Registers (.assign h (.priority n) body) h.kind.space h.name
  | assignParams {h : Handle} (items : List Expr) (body : Body) : h.kind = .rule →
      Registers (.assign h (.params items) body) .template h.name

/-- Whether a namespace has a definition under the name. -/
def Grammar.holds (g : Grammar) : Namespace → String → Bool
  | .rule, name => g.rules.has name
  | .terminal, name => g.terminals.has name
  | .template, name => g.templates.has name
  | .directive, _ => false

theorem putDefinition_taken {kind : NameClass} {name : String} {options : DefOptions}
    (body : Body) (ht : g.holds kind.space name = true) (hr : options.replace = false) :
    ∃ e, putDefinition kind name body options g = .error e g := by
  have ht' : (g.definitions kind).has name = true := by cases kind <;> exact ht
  rw [putDefinition_eq]
  split
  · exact ⟨_, rfl⟩
  · rw [if_pos (by rw [ht', hr]; rfl)]
    exact ⟨_, rfl⟩

theorem putTemplate_taken {name : String} {options : DefOptions} (params : Expr) (body : Body)
    (ht : g.holds .template name = true) (hr : options.replace = false) :
    ∃ e, putTemplate name params body options g = .error e g := by
  have ht' : g.templates.has name = true := ht
  rw [putTemplate_eq]
  split
  · exact ⟨_, rfl⟩
  split
  · exact ⟨_, rfl⟩
  split
  · exact ⟨_, rfl⟩
  · rw [if_pos (by rw [ht', hr]; rfl)]
    exact ⟨_, rfl⟩

theorem registers_taken {op : Operation} {space : Namespace} {name : String}
    (h : op.Registers space name) (ht : g.holds space name = true) :
    ∃ e, g.perform op = (.error e, g) := by
  suffices hrun : ∃ e, op.run g = .error e g by
    obtain ⟨e, he⟩ := hrun
    exact ⟨e, by rw [perform_eq, he]⟩
  cases h with
  | define body hc =>
    simp only [Operation.run, define_eq, hc]
    exact putDefinition_taken body ht rfl
  | putDefinition kind name body hr => exact putDefinition_taken body ht hr
  | putTemplate name params body hr => exact putTemplate_taken params body ht hr
  | assignPriority h n body =>
    simp only [Operation.run, assign_eq]
    split
    · exact ⟨_, rfl⟩
    · exact putDefinition_taken body ht rfl
  | assignParams items body hk =>
    simp only [Operation.run, assign_eq, hk]
    split
    · exact ⟨_, rfl⟩
    · exact putTemplate_taken _ body ht rfl

/-- An operation that fails leaves the whole grammar as it was. So does, in particular, an edit of a
template that sets a modifier beside a priority, and a registration under a name that is taken,
unless it asks to replace; both do fail. -/
theorem failure_changes_nothing (g : Grammar) :
    (∀ op e, (g.perform op).1 = .error e → (g.perform op).2 = g) ∧
      (∀ name t m n, g.find? name = some (.template t) →
        g.perform (.edit name { modifier := some m, priority := some n })
          = (.error (.templatePriority name), g)) ∧
      ∀ op space name, op.Registers space name → g.holds space name = true →
        ∃ e, g.perform op = (.error e, g) :=
  ⟨fun op _ h => perform_error op h, fun _ _ _ _ hf => edit_template_priority hf rfl,
    fun _ _ _ h ht => registers_taken h ht⟩

theorem sample_failures_change_nothing :
    let g := (Grammar.new 0).runAll
      [.putTemplate "list" (.text "x") {} {}, .define "item" { tokens := [.text "a"] }]
    g.perform (.edit "list" { modifier := some .inline, priority := some 2 })
        = (.error (.templatePriority "list"), g) ∧
      ∃ e, g.perform (.define "item" { tokens := [.text "b"] }) = (.error e, g) := by
  intro g
  obtain ⟨-, hedit, htaken⟩ := failure_changes_nothing g
  have hitem : Operation.Registers (.define "item" { tokens := [.text "b"] })
      NameClass.rule.space "item" := .define _ rfl
  exact ⟨hedit "list" _ .inline 2 rfl, htaken _ _ _ hitem rfl⟩

end GrammarText
