import GrammarText.Proofs.Grammar.Frame

/-!
A change of the definition that a name leads to is a registration of the name anew.

`extend`, `replace` and `edit` reach into the entries and change a definition at its place. A
registration takes a whole definition through every check and files it. On a consistent grammar the
two ways come to one state.

- `Found.registration`: registers a name again where it was found, in the place of what is there,
  with given tokens, modifier and priority.
- `updateAt_filed`, `registration_run`: what either way comes to, as one definition filed under the
  name. A registration of what was found passes every check.
- `change_is_registration`: each change equals a registration, and the registration never fails.
-/

namespace GrammarText

open Grammar

variable {g : Grammar} {name : String} {found : Found}

namespace Found

/-- Registers the name again in the namespace of what was found, in its place. A template keeps its
parameters, which are handed over as a tuple. -/
def registration (found : Found) (name : String) (tokens : List Expr) (modifier : Modifier)
    (priority? : Option Int) : Operation :=
  let options : DefOptions :=
    { modifier, priority := priority?.getD defaultPriority, replace := true }
  match found with
  | definition d => .putDefinition d.kind name { tokens } options
  | template t => .putTemplate name (.tuple t.params) { tokens } options

/-- The same definition with all of its content given anew, but for the parameters of a template. -/
def withContent (tokens : List Expr) (modifier : Modifier) (priority? : Option Int) :
    Found → Found :=
  map (fun d => { d with tokens, modifier, priority := priority?.getD defaultPriority })
    fun t => { t with tokens, modifier }

theorem withTokens_eq_withContent (found : Found) (tokens : List Expr) :
    found.withTokens tokens = found.withContent tokens found.modifier found.priority? := by
  cases found <;> rfl

/-- An edit that does not set the priority of a template. -/
theorem edited_eq_withContent (found : Found) (e : Edit) :
    found.edited e = found.withContent found.tokens (e.modifier.getD found.modifier)
      (e.priority.or found.priority?) := by
  cases found with
  | definition d =>
    cases hp : e.priority <;>
      simp [edited, withContent, map, hp, tokens, modifier, priority?]
  | template t => rfl

end Found

/-- The grammar with a definition or a template filed under the name. -/
def Grammar.filed (g : Grammar) (name : String) : Found → Grammar
  | .definition d => g.setDefinitions d.kind ((g.definitions d.kind).put name d)
  | .template t => { g with templates := g.templates.put name t }

/-! ## The two ways -/

theorem updateAt_filed (hg : g.Consistent) (hf : g.find? name = some found)
    (f : Definition → Definition) (ft : TemplateDef → TemplateDef)
    (hkind : ∀ d, (f d).kind = d.kind) :
    updateAt found.space name f ft g = .ok () (g.filed name (found.map f ft)) := by
  cases found with
  | definition d =>
    have hget := (find?_definition hg hf).1
    refine (updateAt_definition g d.kind name f ft).trans ?_
    rw [Entries.update_of_get? hget, Found.map, filed, hkind]
  | template t =>
    have hget := (find?_template hg hf).1
    show EStateM.Result.ok () { g with templates := g.templates.update name ft } = _
    rw [Entries.update_of_get? hget]
    rfl

theorem updateTokens_filed (hg : g.Consistent) (hf : g.find? name = some found)
    (change : List Expr → List Expr) :
    updateTokens name change g = .ok () (g.filed name (found.withTokens (change found.tokens))) := by
  rw [updateTokens_at hg hf, updateAt_filed hg hf]
  · cases found <;> rfl
  · exact fun _ => rfl

theorem edit_filed (hg : g.Consistent) (hf : g.find? name = some found) {e : Edit}
    (he : found.space = .template → e.priority = none) :
    edit name e g = .ok () (g.filed name (found.edited e)) :=
  (edit_at hg hf he).trans (updateAt_filed hg hf _ _ fun _ => rfl)

/-- What was found has a name that its namespace takes, and a template has a parameter. So no check
refuses it, and as the registration is to replace what is there, neither does its own name. -/
theorem registration_run (hg : g.Consistent) (hf : g.find? name = some found) (tokens : List Expr)
    (modifier : Modifier) (priority? : Option Int)
    (hp : found.space = .template → priority? = none) :
    (found.registration name tokens modifier priority?).run g =
      .ok () (g.filed name (found.withContent tokens modifier priority?)) := by
  cases found with
  | definition d =>
    obtain ⟨hget, rfl⟩ := find?_definition hg hf
    have hname : nameProblem? d.kind.space d.name = none :=
      ((hg.definitions d.kind).each _ (Entries.mem_of_get? hget)).2.2
    simp only [Found.registration, Operation.run, putDefinition_eq, hname, Bool.not_true,
      Bool.and_false]
    rfl
  | template t =>
    obtain ⟨hget, rfl⟩ := find?_template hg hf
    obtain ⟨hname, hparams⟩ := (hg.templates.each _ (Entries.mem_of_get? hget)).2
    cases hp rfl
    have hsome : t.params.isEmpty = false := by simpa using hparams
    simp only [Found.registration, Operation.run, putTemplate_eq, hname, Expr.params, hsome,
      Bool.not_true, Bool.and_false]
    rfl

/-! ## The result -/

/-- On a reachable grammar, a change of what a name leads to is the registration of the name anew,
with replacement: `replace` with the tokens of the body, `extend` with one choice between the tokens
and the alternatives, both with the modifier and the priority that were there, and `edit` with the
tokens that were there and what it sets. The two come to the same grammar, in the same order, and
the registration always succeeds. The modifier of the body plays no part, and a template has no
priority. -/
theorem change_is_registration (hg : g.IsReachable) (hf : g.find? name = some found) :
    (∀ body : Body, g.perform (.replace name body) = g.perform
      (found.registration name body.tokens found.modifier found.priority?)) ∧
    (∀ alternatives, g.perform (.extend name alternatives) = g.perform
      (found.registration name [.choice (found.tokens ++ alternatives)] found.modifier
        found.priority?)) ∧
    (∀ e : Edit, (found.space = .template → e.priority = none) →
      g.perform (.edit name e) = g.perform (found.registration name found.tokens
        (e.modifier.getD found.modifier) (e.priority.or found.priority?))) ∧
    ∀ tokens modifier priority?, (found.space = .template → priority? = none) →
      (g.perform (found.registration name tokens modifier priority?)).1 = .ok () := by
  have hc := hg.consistent
  -- a template that was found has no priority of its own
  have hown : found.space = .template → found.priority? = none := by
    cases found with
    | definition d => cases hk : d.kind <;> simp [Found.space, hk, NameClass.space]
    | template t => exact fun _ => rfl
  have hrun := registration_run hc hf
  refine ⟨fun body => ?_, fun alternatives => ?_, fun e he => ?_, fun tokens modifier p hp => ?_⟩
  · have hchange : Operation.run (.replace name body) g = _ :=
      updateTokens_filed hc hf fun _ => body.tokens
    rw [perform_eq, perform_eq, hchange, hrun _ _ _ hown, Found.withTokens_eq_withContent]
  · have hchange : Operation.run (.extend name alternatives) g = _ :=
      updateTokens_filed hc hf fun tokens => [.choice (tokens ++ alternatives)]
    rw [perform_eq, perform_eq, hchange, hrun _ _ _ hown, Found.withTokens_eq_withContent]
  · have hchange : Operation.run (.edit name e) g = _ := edit_filed hc hf he
    have hpriority : found.space = .template → e.priority.or found.priority? = none := fun hs => by
      rw [he hs, hown hs, Option.none_or]
    rw [perform_eq, perform_eq, hchange, hrun _ _ _ hpriority, Found.edited_eq_withContent]
  · rw [perform_eq, hrun tokens modifier p hp]

/-- A rule with a mark and a priority, and a template. -/
def wordAndPair : Grammar := (Grammar.new 0).runAll
  [.putDefinition .rule "word" { tokens := [.text "a"] }
      { modifier := .keepTerminals, priority := 3 },
    .putTemplate "pair" (.handle ⟨.rule, "x", 0⟩)
      { tokens := [.handle ⟨.rule, "x", 0⟩, .handle ⟨.rule, "x", 0⟩] } {}]

/-- The mark that comes with the other tokens of the rule is left out, and the template gets one. -/
theorem wordAndPair_registered_anew :
    let x : Expr := .handle ⟨.rule, "x", 0⟩
    wordAndPair.IsReachable ∧
      wordAndPair.find? "word" =
        some (.definition ⟨.rule, "word", [.text "a"], .keepTerminals, 3⟩) ∧
      wordAndPair.perform (.replace "word" { tokens := [.text "b"], modifier := some .inline }) =
        wordAndPair.perform (.putDefinition .rule "word" { tokens := [.text "b"] }
          { modifier := .keepTerminals, priority := 3, replace := true }) ∧
      wordAndPair.find? "pair" = some (.template ⟨"pair", [x], [x, x], .none⟩) ∧
      wordAndPair.perform (.edit "pair" { modifier := some .inline }) =
        wordAndPair.perform (.putTemplate "pair" (.tuple [x]) { tokens := [x, x] }
          { modifier := .inline, replace := true }) ∧
      (wordAndPair.perform (.putTemplate "pair" (.tuple [x]) { tokens := [x, x] }
          { modifier := .inline, replace := true })).1 = .ok () := by
  intro x
  have hreach : wordAndPair.IsReachable := ⟨0, _, rfl⟩
  have hword : wordAndPair.find? "word" =
      some (.definition ⟨.rule, "word", [.text "a"], .keepTerminals, 3⟩) := rfl
  have hpair : wordAndPair.find? "pair" = some (.template ⟨"pair", [x], [x, x], .none⟩) := rfl
  obtain ⟨hreplace, -, -, -⟩ := change_is_registration hreach hword
  obtain ⟨-, -, hedit, hok⟩ := change_is_registration hreach hpair
  exact ⟨hreach, hword, hreplace _, hpair, hedit { modifier := some .inline } fun _ => rfl,
    hok [x, x] .inline none fun _ => rfl⟩

end GrammarText
