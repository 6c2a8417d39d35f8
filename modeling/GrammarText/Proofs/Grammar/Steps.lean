import GrammarText.Grammar.Operation
import Mathlib.Logic.Basic

/-!
What each operation on a grammar comes to, as one equation.

An operation is written as checks, a look at the grammar, and one write at the end. The equations
(`putDefinition_eq`, `putTemplate_eq`, `appendDirective_eq`, `define_eq`, `assign_eq`,
`updateTokens_eq`, `edit_eq`) say for every grammar which check fails first, with which error, and
what is written if none does. `perform_eq` carries them over to a run.
-/

namespace GrammarText

open Grammar

variable {α : Type}

/-! ## Checks and looks -/

theorem get_bind (step : Grammar → GrammarStep α) (g : Grammar) :
    (get >>= step) g = step g g := rfl

theorem check_bind (check : Except GrammarError α) (step : α → GrammarStep Unit) (g : Grammar) :
    (liftM check >>= step) g = match check with
      | .ok a => step a g
      | .error e => .error e g := by
  cases check <;> rfl

theorem unless_bind (c : Prop) [Decidable c] (e : GrammarError) (step : Unit → GrammarStep Unit)
    (g : Grammar) :
    (if c then throw e >>= step else step ()) g = if c then .error e g else step () g := by
  split <;> rfl

theorem checkName_bind (space : Namespace) (name : String) (step : Unit → GrammarStep Unit)
    (g : Grammar) :
    (liftM (checkName space name) >>= step) g = match nameProblem? space name with
      | some problem => .error (.invalidName name space problem) g
      | none => step () g := by
  rw [check_bind, checkName]
  cases nameProblem? space name <;> rfl

theorem fileUnder_bind (entries : Entries α) (space : Namespace) (name : String) (value : α)
    (replace : Bool) (step : Entries α → GrammarStep Unit) (g : Grammar) :
    (liftM (fileUnder entries space name value replace) >>= step) g =
      if entries.has name && !replace then .error (.duplicateName name space) g
      else step (entries.put name value) g := by
  rw [check_bind, fileUnder]
  by_cases h : (entries.has name && !replace) = true
  · rw [if_pos h, if_pos h]
  · rw [if_neg h, if_neg h]

/-! ## Filing -/

theorem putDefinition_eq (g : Grammar) (kind : NameClass) (name : String) (body : Body)
    (options : DefOptions) :
    putDefinition kind name body options g =
      match nameProblem? kind.space name with
      | some problem => .error (.invalidName name kind.space problem) g
      | none =>
        if (g.definitions kind).has name && !options.replace then
          .error (.duplicateName name kind.space) g
        else .ok () (g.setDefinitions kind
          ((g.definitions kind).put name (.ofBody kind name body options))) := by
  refine (checkName_bind _ _ _ g).trans ?_
  cases nameProblem? kind.space name with
  | some problem => rfl
  | none => exact fileUnder_bind _ _ _ _ _ _ g

theorem putTemplate_eq (g : Grammar) (name : String) (params : Expr) (body : Body)
    (options : DefOptions) :
    putTemplate name params body options g =
      match ruleProblem? name with
      | some problem => .error (.invalidName name .template problem) g
      | none =>
        if options.priority ≠ defaultPriority then .error (.templatePriority name) g
        else if params.params.isEmpty then .error (.noParameters name) g
        else if g.templates.has name && !options.replace then
          .error (.duplicateName name .template) g
        else
          let t := TemplateDef.ofBody name params.params body options.modifier
          .ok () { g with templates := g.templates.put name t } := by
  refine (checkName_bind _ _ _ g).trans ?_
  rw [nameProblem?]
  cases ruleProblem? name with
  | some problem => rfl
  | none =>
    refine (unless_bind _ _ _ g).trans (if_congr Iff.rfl rfl ?_)
    refine (unless_bind _ _ _ g).trans (if_congr Iff.rfl rfl ?_)
    exact fileUnder_bind _ _ _ _ _ _ g

theorem appendDirective_eq (g : Grammar) (name : String) (content : DirectiveContent) :
    appendDirective name content g =
      match ruleProblem? name with
      | some problem => .error (.invalidName name .directive problem) g
      | none => .ok () { g with directives := g.directives ++ [⟨name, content⟩] } :=
  checkName_bind _ _ _ g

theorem define_eq (g : Grammar) (name : String) (body : Body) :
    define name body g = match classify name with
      | .ok kind => putDefinition kind name body {} g
      | .error e => .error e g := by
  refine (check_bind _ _ g).trans ?_
  cases classify name <;> rfl

theorem assign_eq (g : Grammar) (h : Handle) (key : Key) (body : Body) :
    assign h key body g =
      if h.issuer ≠ g.id then .error (.foreignHandle h.name) g
      else match key, h.kind with
        | .priority n, kind => putDefinition kind h.name body { priority := n } g
        | .params items, .rule => putTemplate h.name (.tuple items) body {} g
        | .params _, .terminal => .error (.terminalAsTemplate h.name) g := by
  refine (get_bind _ g).trans ?_
  refine (unless_bind (h.issuer ≠ g.id) _ _ g).trans (if_congr Iff.rfl rfl ?_)
  cases key with
  | priority n => rfl
  | params items => cases h.kind <;> rfl

/-! ## Changing what a name leads to -/

theorem place_bind (name : String) (step : Namespace → GrammarStep Unit) (g : Grammar) :
    (place name >>= step) g =
      if g.rules.has name then step .rule g
      else if g.terminals.has name then step .terminal g
      else if g.templates.has name then step .template g
      else .error (.unknownDefinition name) g := by
  change ((if g.rules.has name then pure .rule
    else if g.terminals.has name then pure .terminal
    else if g.templates.has name then pure .template
    else throw (.unknownDefinition name) : GrammarStep Namespace) >>= step) g = _
  repeat' split
  all_goals rfl

theorem updateTokens_eq (g : Grammar) (name : String) (change : List Expr → List Expr) :
    updateTokens name change g =
      if g.rules.has name then
        .ok () { g with rules := g.rules.update name fun d => { d with tokens := change d.tokens } }
      else if g.terminals.has name then
        .ok () { g with
          terminals := g.terminals.update name fun d => { d with tokens := change d.tokens } }
      else if g.templates.has name then
        .ok () { g with
          templates := g.templates.update name fun t => { t with tokens := change t.tokens } }
      else .error (.unknownDefinition name) g :=
  place_bind name _ g

theorem edit_eq (g : Grammar) (name : String) (e : Edit) :
    edit name e g =
      if g.rules.has name then
        .ok () { g with rules := g.rules.update name fun d =>
          { d with modifier := e.modifier.getD d.modifier,
                   priority := e.priority.getD d.priority } }
      else if g.terminals.has name then
        .ok () { g with terminals := g.terminals.update name fun d =>
          { d with modifier := e.modifier.getD d.modifier,
                   priority := e.priority.getD d.priority } }
      else if g.templates.has name then
        if e.priority.isSome then .error (.templatePriority name) g
        else .ok () { g with templates := g.templates.update name fun t =>
          { t with modifier := e.modifier.getD t.modifier } }
      else .error (.unknownDefinition name) g := by
  refine (place_bind name _ g).trans (if_congr Iff.rfl rfl (if_congr Iff.rfl rfl
    (if_congr Iff.rfl ?_ rfl)))
  exact (unless_bind _ _ _ g).trans (if_congr (by simp) rfl rfl)

/-! ## Runs -/

theorem perform_eq (g : Grammar) (op : Operation) :
    g.perform op = match op.run g with
      | .ok _ g' => (.ok (), g')
      | .error e g' => (.error e, g') := rfl

end GrammarText
