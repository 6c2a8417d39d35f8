import GrammarText.Proofs.Grammar.Registry

/-!
What an operation on a grammar changes, and what it leaves.

- `Operation.Effect`: what a success of each operation comes to. A filed definition stands at the place
  of the one that had its name, or last in its namespace; `extend`, `replace` and `edit` exchange the
  definition that the name leads to, at its place.
- `place_found`: where such a change is made is where `Grammar.find?` looks. So the two look-ups,
  which are written apart, agree in every consistent grammar.
- `Grammar.Extends`: each namespace has the names that it had, in their order, and perhaps more behind
  them. An operation extends the grammar (`extends_perform`), so every run does (`extends_runAll`).
- `success_changes_one_place`: all of this for every reachable grammar.
-/

namespace GrammarText

open Grammar

variable {g g' : Grammar} {name : String}

/-! ## What is found under a name -/

namespace Found

def map (onDefinition : Definition → Definition) (onTemplate : TemplateDef → TemplateDef) :
    Found → Found
  | definition d => definition (onDefinition d)
  | template t => template (onTemplate t)

/-- The same definition with other tokens. -/
def withTokens (tokens : List Expr) : Found → Found :=
  map (fun d => { d with tokens }) fun t => { t with tokens }

@[simp] theorem tokens_withTokens (found : Found) (tokens : List Expr) :
    (found.withTokens tokens).tokens = tokens := by
  cases found <;> rfl

@[simp] theorem withTokens_withTokens (found : Found) (tokens other : List Expr) :
    (found.withTokens tokens).withTokens other = found.withTokens other := by
  cases found <;> rfl

/-- The same definition with the fields that the edit sets. A template has no priority. -/
def edited (e : Edit) : Found → Found :=
  map (fun d => { d with modifier := e.modifier.getD d.modifier,
                         priority := e.priority.getD d.priority })
    fun t => { t with modifier := e.modifier.getD t.modifier }

end Found

theorem find?_definition (hg : g.Consistent) {d : Definition}
    (h : g.find? name = some (.definition d)) :
    (g.definitions d.kind).get? name = some d ∧ d.name = name := by
  unfold find? at h
  cases hr : g.rules.get? name with
  | some r =>
    have hd : r = d := by simpa [hr] using h
    subst hd
    obtain ⟨hname, hkind, -⟩ := rule_entry hg (Entries.mem_of_get? hr)
    rw [hkind]
    exact ⟨hr, hname⟩
  | none =>
    cases ht : g.terminals.get? name with
    | some t =>
      have hd : t = d := by simpa [hr, ht] using h
      subst hd
      obtain ⟨hname, hkind, -⟩ := terminal_entry hg (Entries.mem_of_get? ht)
      rw [hkind]
      exact ⟨ht, hname⟩
    | none => simp [hr, ht] at h

theorem find?_template (hg : g.Consistent) {t : TemplateDef}
    (h : g.find? name = some (.template t)) :
    g.templates.get? name = some t ∧ t.name = name := by
  unfold find? at h
  cases hr : g.rules.get? name with
  | some r => simp [hr] at h
  | none =>
    cases ht : g.terminals.get? name with
    | some d => simp [hr, ht] at h
    | none =>
      have hget : g.templates.get? name = some t := by simpa [hr, ht] using h
      exact ⟨hget, (template_entry hg (Entries.mem_of_get? hget)).1⟩

/-- A change under a name is made where the name leads to. -/
theorem place_found (hg : g.Consistent) (name : String) (step : Namespace → GrammarStep Unit) :
    (place name >>= step) g = match g.find? name with
      | some found => step found.space g
      | none => .error (.unknownDefinition name) g := by
  rw [place_bind]
  unfold find? Entries.has
  cases hr : g.rules.get? name with
  | some d =>
    have hkind : d.kind = .rule := (rule_entry hg (Entries.mem_of_get? hr)).2.1
    simp [Found.space, hkind, NameClass.space]
  | none =>
    cases ht : g.terminals.get? name with
    | some d =>
      have hkind : d.kind = .terminal := (terminal_entry hg (Entries.mem_of_get? ht)).2.1
      simp [Found.space, hkind, NameClass.space]
    | none =>
      cases hm : g.templates.get? name with
      | some t => simp [Found.space]
      | none => simp

theorem updateAt_definition (g : Grammar) (kind : NameClass) (name : String)
    (f : Definition → Definition) (ft : TemplateDef → TemplateDef) :
    updateAt kind.space name f ft g =
      .ok () (g.setDefinitions kind ((g.definitions kind).update name f)) := by
  cases kind <;> rfl

/-! ## Effects -/

namespace Grammar

/-- The definition is filed among those of its kind, and nothing else is changed. -/
def FilesDefinition (g : Grammar) (d : Definition) (g' : Grammar) : Prop :=
  ∃ es, (g.definitions d.kind).Placed d.name d es ∧ g' = g.setDefinitions d.kind es

def FilesTemplate (g : Grammar) (t : TemplateDef) (g' : Grammar) : Prop :=
  ∃ es, g.templates.Placed t.name t es ∧ g' = { g with templates := es }

/-- A definition is exchanged for another of its kind and name, or a template for another of its
name and parameters. It stays at its place, and nothing else is changed. -/
inductive Exchanges (g : Grammar) : Found → Found → Grammar → Prop
  | definition {d new : Definition} {es : Entries Definition} :
      new.kind = d.kind → new.name = d.name →
      (g.definitions d.kind).Exchanged d.name d new es →
      Exchanges g (.definition d) (.definition new) (g.setDefinitions d.kind es)
  | template {t new : TemplateDef} {es : Entries TemplateDef} :
      new.name = t.name → new.params = t.params →
      g.templates.Exchanged t.name t new es →
      Exchanges g (.template t) (.template new) { g with templates := es }

end Grammar

/-- What the grammar is after a success of the operation. -/
def Operation.Effect (g g' : Grammar) : Operation → Prop
  | .define name body =>
    ∃ kind : NameClass, kind.admits name = true ∧ g.FilesDefinition (.ofBody kind name body {}) g'
  | .putDefinition kind name body options => g.FilesDefinition (.ofBody kind name body options) g'
  | .putTemplate name params body options =>
    g.FilesTemplate (.ofBody name params.params body options.modifier) g'
  | .appendDirective name content => g' = { g with directives := g.directives ++ [⟨name, content⟩] }
  | .assign h (.priority n) body => g.FilesDefinition (.ofBody h.kind h.name body { priority := n }) g'
  | .assign h (.params items) body =>
    h.kind = .rule ∧ g.FilesTemplate (.ofBody h.name items body .none) g'
  | .change kind name c =>
    (name ∉ (g.definitions kind).keys ∧ g' = g) ∨
      ∃ d es, (g.definitions kind).Exchanged name d (d.change c) es ∧ g' = g.setDefinitions kind es
  | .extend name alternatives => ∃ found, g.find? name = some found ∧ found.name = name ∧
    g.Exchanges found (found.withTokens [.choice (found.tokens ++ alternatives)]) g'
  | .replace name body => ∃ found, g.find? name = some found ∧ found.name = name ∧
    g.Exchanges found (found.withTokens body.tokens) g'
  | .edit name e => ∃ found, g.find? name = some found ∧ found.name = name ∧
    g.Exchanges found (found.edited e) g'

/-! ### Filing -/

theorem effect_putDefinition (hg : g.Consistent) {kind : NameClass} {body : Body}
    {options : DefOptions} (h : putDefinition kind name body options g = .ok () g') :
    g.FilesDefinition (.ofBody kind name body options) g' := by
  rw [putDefinition_eq] at h
  split at h
  · cases h
  · split at h
    · cases h
    · cases h
      exact ⟨_, Entries.placed_put (hg.definitions kind).distinct _, rfl⟩

theorem effect_putTemplate (hg : g.Consistent) {params : Expr} {body : Body}
    {options : DefOptions} (h : putTemplate name params body options g = .ok () g') :
    g.FilesTemplate (.ofBody name params.params body options.modifier) g' := by
  rw [putTemplate_eq] at h
  split at h
  · cases h
  · repeat' split at h
    all_goals cases h
    exact ⟨_, Entries.placed_put hg.templates.distinct _, rfl⟩

theorem effect_define (hg : g.Consistent) {body : Body} (h : define name body g = .ok () g') :
    (Operation.define name body).Effect g g' := by
  rw [define_eq] at h
  cases hc : classify name with
  | error e => simp [hc] at h
  | ok kind =>
    rw [hc] at h
    exact ⟨kind, admits_of_classify hc, effect_putDefinition hg h⟩

theorem effect_assign (hg : g.Consistent) {handle : Handle} {key : Key} {body : Body}
    (h : assign handle key body g = .ok () g') : (Operation.assign handle key body).Effect g g' := by
  rw [assign_eq] at h
  split at h
  · cases h
  · cases key with
    | priority n => exact effect_putDefinition hg h
    | params items =>
      cases hk : handle.kind with
      | rule =>
        rw [hk] at h
        exact ⟨hk, effect_putTemplate hg h⟩
      | terminal => simp [hk] at h

theorem effect_changeDefinition (hg : g.Consistent) {kind : NameClass} {c : Definition.Change}
    (h : changeDefinition kind name c g = .ok () g') :
    (Operation.change kind name c).Effect g g' := by
  cases h
  by_cases hk : name ∈ (g.definitions kind).keys
  · obtain ⟨d, hd⟩ := Option.isSome_iff_exists.mp (Entries.has_iff.mpr hk)
    exact Or.inr ⟨d, _, Entries.exchanged_update (hg.definitions kind).distinct hd _, rfl⟩
  · left
    refine ⟨hk, ?_⟩
    have hsame : (g.definitions kind).update name (·.change c) = g.definitions kind :=
      Entries.update_of_not_mem hk _
    show g.setDefinitions kind ((g.definitions kind).update name (·.change c)) = g
    rw [hsame]
    cases kind <;> rfl

/-! ### Changing what a name leads to -/

theorem exchanges_updateAt (hg : g.Consistent) {found : Found} (hf : g.find? name = some found)
    (f : Definition → Definition) (ft : TemplateDef → TemplateDef)
    (hkind : ∀ d, (f d).kind = d.kind) (hname : ∀ d, (f d).name = d.name)
    (hname' : ∀ t, (ft t).name = t.name) (hparams : ∀ t, (ft t).params = t.params) :
    ∃ g', updateAt found.space name f ft g = .ok () g' ∧ found.name = name ∧
      g.Exchanges found (found.map f ft) g' := by
  cases found with
  | definition d =>
    obtain ⟨hget, rfl⟩ := find?_definition hg hf
    refine ⟨_, updateAt_definition g d.kind d.name f ft, rfl, ?_⟩
    exact .definition (hkind d) (hname d)
      (Entries.exchanged_update (hg.definitions d.kind).distinct hget f)
  | template t =>
    obtain ⟨hget, rfl⟩ := find?_template hg hf
    refine ⟨_, rfl, rfl, ?_⟩
    exact .template (hname' t) (hparams t) (Entries.exchanged_update hg.templates.distinct hget ft)

theorem updateTokens_at (hg : g.Consistent) {found : Found} (hf : g.find? name = some found)
    (change : List Expr → List Expr) :
    updateTokens name change g = updateAt found.space name
      (fun d => { d with tokens := change d.tokens })
      (fun t => { t with tokens := change t.tokens }) g := by
  unfold updateTokens
  rw [place_found hg, hf]

/-- Only the priority of a template is refused. -/
theorem edit_at (hg : g.Consistent) {found : Found} (hf : g.find? name = some found) {e : Edit}
    (he : found.space = .template → e.priority = none) :
    edit name e g = updateAt found.space name
      (fun d => { d with modifier := e.modifier.getD d.modifier,
                         priority := e.priority.getD d.priority })
      (fun t => { t with modifier := e.modifier.getD t.modifier }) g := by
  have hno : ¬(found.space = .template ∧ e.priority.isSome = true) := by
    intro hboth
    rw [he hboth.1] at hboth
    simp at hboth
  unfold edit
  rw [place_found hg, hf]
  exact (unless_bind _ _ _ g).trans (if_neg hno)

theorem updateTokens_found (hg : g.Consistent) {found : Found} (hf : g.find? name = some found)
    (change : List Expr → List Expr) :
    ∃ g', updateTokens name change g = .ok () g' ∧ found.name = name ∧
      g.Exchanges found (found.withTokens (change found.tokens)) g' := by
  obtain ⟨g', hrun, hname, hex⟩ := exchanges_updateAt hg hf
    (fun d => { d with tokens := change d.tokens })
    (fun t => { t with tokens := change t.tokens })
    (fun _ => rfl) (fun _ => rfl) (fun _ => rfl) (fun _ => rfl)
  refine ⟨g', (updateTokens_at hg hf change).trans hrun, hname, ?_⟩
  cases found <;> exact hex

theorem edit_found (hg : g.Consistent) {found : Found} (hf : g.find? name = some found) {e : Edit}
    (he : found.space = .template → e.priority = none) :
    ∃ g', edit name e g = .ok () g' ∧ found.name = name ∧
      g.Exchanges found (found.edited e) g' := by
  obtain ⟨g', hrun, hname, hex⟩ := exchanges_updateAt hg hf
    (fun d => { d with modifier := e.modifier.getD d.modifier,
                       priority := e.priority.getD d.priority })
    (fun t => { t with modifier := e.modifier.getD t.modifier })
    (fun _ => rfl) (fun _ => rfl) (fun _ => rfl) (fun _ => rfl)
  exact ⟨g', (edit_at hg hf he).trans hrun, hname, hex⟩

theorem edit_refused (hg : g.Consistent) {found : Found} (hf : g.find? name = some found) {e : Edit}
    (hs : found.space = .template) (he : e.priority ≠ none) :
    edit name e g = .error (.templatePriority name) g := by
  have hboth : found.space = .template ∧ e.priority.isSome = true :=
    ⟨hs, Option.isSome_iff_ne_none.mpr he⟩
  unfold edit
  rw [place_found hg, hf]
  exact (unless_bind _ _ _ g).trans (if_pos hboth)

theorem updateTokens_missing (hg : g.Consistent) (hf : g.find? name = none)
    (change : List Expr → List Expr) :
    updateTokens name change g = .error (.unknownDefinition name) g := by
  unfold updateTokens
  rw [place_found hg, hf]

theorem edit_missing (hg : g.Consistent) (hf : g.find? name = none) (e : Edit) :
    edit name e g = .error (.unknownDefinition name) g := by
  unfold edit
  rw [place_found hg, hf]

/-! ### Every operation -/

theorem perform_ok {op : Operation} : g.perform op = (.ok (), g') ↔ op.run g = .ok () g' := by
  rw [perform_eq]
  cases op.run g <;> simp

theorem perform_succeeds {op : Operation} :
    (g.perform op).1 = .ok () ↔ ∃ g', op.run g = .ok () g' := by
  rw [perform_eq]
  cases op.run g <;> simp

theorem effect_updateTokens (hg : g.Consistent) (change : List Expr → List Expr)
    (h : updateTokens name change g = .ok () g') :
    ∃ found, g.find? name = some found ∧ found.name = name ∧
      g.Exchanges found (found.withTokens (change found.tokens)) g' := by
  cases hf : g.find? name with
  | none =>
    rw [updateTokens_missing hg hf] at h
    cases h
  | some found =>
    obtain ⟨g'', hrun, hname, hex⟩ := updateTokens_found hg hf change
    rw [hrun] at h
    cases h
    exact ⟨found, rfl, hname, hex⟩

theorem updateTokens_succeeds (hg : g.Consistent) (name : String)
    (change : List Expr → List Expr) :
    (∃ g', updateTokens name change g = .ok () g') ↔ (g.find? name).isSome = true := by
  cases hf : g.find? name with
  | none => simp [updateTokens_missing hg hf]
  | some found =>
    obtain ⟨g', hrun, -, -⟩ := updateTokens_found hg hf change
    simp [hrun]

theorem edit_succeeds (hg : g.Consistent) (name : String) (e : Edit) :
    (∃ g', edit name e g = .ok () g') ↔
      ∃ found, g.find? name = some found ∧ (found.space = .template → e.priority = none) := by
  constructor
  · rintro ⟨g', h⟩
    cases hf : g.find? name with
    | none =>
      rw [edit_missing hg hf] at h
      cases h
    | some found =>
      refine ⟨found, rfl, fun hs => ?_⟩
      by_cases he : e.priority = none
      · exact he
      · rw [edit_refused hg hf hs he] at h
        cases h
  · rintro ⟨found, hf, he⟩
    obtain ⟨g', hrun, -, -⟩ := edit_found hg hf he
    exact ⟨g', hrun⟩

theorem effect_edit (hg : g.Consistent) {e : Edit} (h : edit name e g = .ok () g') :
    (Operation.edit name e).Effect g g' := by
  obtain ⟨found, hf, he⟩ := (edit_succeeds hg name e).mp ⟨g', h⟩
  obtain ⟨g'', hrun, hname, hex⟩ := edit_found hg hf he
  rw [hrun] at h
  cases h
  exact ⟨found, hf, hname, hex⟩

theorem effect_perform (hg : g.Consistent) {op : Operation} (h : g.perform op = (.ok (), g')) :
    op.Effect g g' := by
  have hrun : op.run g = .ok () g' := perform_ok.mp h
  cases op with
  | define name body => exact effect_define hg hrun
  | putDefinition kind name body options => exact effect_putDefinition hg hrun
  | putTemplate name params body options => exact effect_putTemplate hg hrun
  | appendDirective name content =>
    simp only [Operation.run, appendDirective_eq] at hrun
    split at hrun
    · cases hrun
    · cases hrun
      rfl
  | assign handle key body => exact effect_assign hg hrun
  | change kind name c => exact effect_changeDefinition hg hrun
  | extend name alternatives =>
    exact effect_updateTokens hg (fun tokens => [.choice (tokens ++ alternatives)]) hrun
  | replace name body => exact effect_updateTokens hg (fun _ => body.tokens) hrun
  | edit name e => exact effect_edit hg hrun

/-! ## Order -/

/-- Each namespace has the names that it had, in their order, and perhaps more behind them. -/
structure Grammar.Extends (g g' : Grammar) : Prop where
  rules : g.rules.keys <+: g'.rules.keys
  terminals : g.terminals.keys <+: g'.terminals.keys
  templates : g.templates.keys <+: g'.templates.keys
  directives : g.directives <+: g'.directives

theorem Grammar.Extends.refl (g : Grammar) : g.Extends g :=
  ⟨List.prefix_rfl, List.prefix_rfl, List.prefix_rfl, List.prefix_rfl⟩

theorem Grammar.Extends.trans {g'' : Grammar} (h : g.Extends g') (h' : g'.Extends g'') :
    g.Extends g'' where
  rules := h.rules.trans h'.rules
  terminals := h.terminals.trans h'.terminals
  templates := h.templates.trans h'.templates
  directives := h.directives.trans h'.directives

theorem extends_setDefinitions (g : Grammar) {kind : NameClass} {es : Entries Definition}
    (h : (g.definitions kind).keys <+: es.keys) : g.Extends (g.setDefinitions kind es) := by
  cases kind with
  | rule => exact ⟨h, List.prefix_rfl, List.prefix_rfl, List.prefix_rfl⟩
  | terminal => exact ⟨List.prefix_rfl, h, List.prefix_rfl, List.prefix_rfl⟩

theorem extends_move (h : g.Move g') : g.Extends g' := by
  cases h with
  | fileDefinition d => exact extends_setDefinitions g (Entries.keys_prefix_put _ _ _)
  | fileTemplate t =>
    exact ⟨List.prefix_rfl, List.prefix_rfl, Entries.keys_prefix_put _ _ _, List.prefix_rfl⟩
  | appendDirective d =>
    exact ⟨List.prefix_rfl, List.prefix_rfl, List.prefix_rfl, List.prefix_append _ _⟩
  | changeDefinition kind name f => exact extends_setDefinitions g (Entries.keys_prefix_update _ _ _)
  | changeTemplate name f =>
    exact ⟨List.prefix_rfl, List.prefix_rfl, Entries.keys_prefix_update _ _ _, List.prefix_rfl⟩

theorem extends_perform (g : Grammar) (op : Operation) : g.Extends (g.perform op).2 := by
  rcases perform_cases g op with ⟨e, he⟩ | ⟨g', hg', hm⟩
  · rw [he]
    exact .refl g
  · rw [hg']
    exact extends_move hm

theorem extends_runAll (g : Grammar) (ops : List Operation) : g.Extends (g.runAll ops) := by
  induction ops generalizing g with
  | nil => exact .refl g
  | cons op ops ih => exact (extends_perform g op).trans (ih _)

/-- An operation that succeeds on a reachable grammar changes one definition at its place, or adds one
behind the others. `extend` and `replace` succeed exactly where the name leads to a definition, and
`edit` does unless it sets the priority of a template. Over a run the names of each namespace keep
their order, and new ones come behind them. -/
theorem success_changes_one_place (hg : g.IsReachable) :
    (∀ op g', g.perform op = (.ok (), g') → op.Effect g g') ∧
      (∀ name alternatives,
        (g.perform (.extend name alternatives)).1 = .ok () ↔ (g.find? name).isSome = true) ∧
      (∀ name body, (g.perform (.replace name body)).1 = .ok () ↔ (g.find? name).isSome = true) ∧
      (∀ name e, (g.perform (.edit name e)).1 = .ok () ↔
        ∃ found, g.find? name = some found ∧ (found.space = .template → e.priority = none)) ∧
      ∀ ops, g.Extends (g.runAll ops) := by
  have hc := hg.consistent
  refine ⟨fun op g' h => effect_perform hc h, fun name alternatives => ?_, fun name body => ?_,
    fun name e => ?_, extends_runAll g⟩
  · rw [perform_succeeds]
    exact updateTokens_succeeds hc name fun tokens => [.choice (tokens ++ alternatives)]
  · rw [perform_succeeds]
    exact updateTokens_succeeds hc name fun _ => body.tokens
  · rw [perform_succeeds]
    exact edit_succeeds hc name e

/-- A rule and a template of one name. -/
def sharedName : Grammar := (Grammar.new 0).runAll
  [.define "shared" { tokens := [.text "a"] },
    .putTemplate "shared" (.text "p") { tokens := [.text "b"] } {},
    .define "last" { tokens := [.text "c"] }]

/-- Under the name of a rule and a template, the rule gets the other tokens. It stays in front of the
rule that came after it. -/
theorem sharedName_replaces_the_rule :
    let op := Operation.replace "shared" { tokens := [.text "d"] }
    let g' := (sharedName.perform op).2
    sharedName.IsReachable ∧ (sharedName.perform op).1 = .ok () ∧ op.Effect sharedName g' ∧
      g'.rules = [("shared", ⟨.rule, "shared", [.text "d"], .none, 1⟩),
        ("last", ⟨.rule, "last", [.text "c"], .none, 1⟩)] ∧
      g'.templates = sharedName.templates := by
  intro op g'
  have hreach : sharedName.IsReachable := ⟨0, _, rfl⟩
  obtain ⟨heffect, -, hreplace, -, -⟩ := success_changes_one_place hreach
  have hfound : (sharedName.find? "shared").isSome = true := rfl
  have hok : (sharedName.perform op).1 = .ok () := (hreplace "shared" _).mpr hfound
  have hperform : sharedName.perform op = (.ok (), g') := Prod.ext hok rfl
  exact ⟨hreach, hok, heffect op g' hperform, rfl, rfl⟩

end GrammarText
