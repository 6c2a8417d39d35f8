import GrammarText.Grammar.Basic

/-!
Changes to the definition that a name leads to.

A name leads to a rule, or else to a terminal, or else to a template (`Grammar.find?`). So a
template that shares its name with a rule is out of reach here.

- `Grammar.extend`: makes the body one choice between what it was and more alternatives.
- `Grammar.replace`: gives the definition another body.
- `Grammar.edit`: changes the modifier and the priority. A template has no priority.
-/

namespace GrammarText

/-- The definition that a name leads to. -/
inductive Found where
  | definition (d : Definition)
  | template (t : TemplateDef)
  deriving Inhabited

namespace Found

def name : Found → String
  | definition d => d.name
  | template t => t.name

def tokens : Found → List Expr
  | definition d => d.tokens
  | template t => t.tokens

def modifier : Found → Modifier
  | definition d => d.modifier
  | template t => t.modifier

def priority? : Found → Option Int
  | definition d => some d.priority
  | template _ => none

def space : Found → Namespace
  | definition d => d.kind.space
  | template _ => .template

end Found

/-- What an edit changes; the rest stays as it is. -/
structure Edit where
  modifier : Option Modifier := none
  priority : Option Int := none
  deriving DecidableEq, Repr, Inhabited

namespace Grammar

def find? (g : Grammar) (name : String) : Option Found :=
  match g.rules.get? name with
  | some d => some (.definition d)
  | none => match g.terminals.get? name with
    | some d => some (.definition d)
    | none => (g.templates.get? name).map .template

/-- The namespace of the definition that a name leads to. -/
def place (name : String) : GrammarStep Namespace := do
  let g ← get
  if g.rules.has name then return .rule
  else if g.terminals.has name then return .terminal
  else if g.templates.has name then return .template
  else throw (.unknownDefinition name)

/-- Changes the rule, terminal or template under a name. -/
def updateAt (space : Namespace) (name : String) (onDefinition : Definition → Definition)
    (onTemplate : TemplateDef → TemplateDef) : GrammarStep Unit :=
  modify fun g => match space with
    | .rule => { g with rules := g.rules.update name onDefinition }
    | .terminal => { g with terminals := g.terminals.update name onDefinition }
    | .template => { g with templates := g.templates.update name onTemplate }
    | .directive => g

def updateTokens (name : String) (change : List Expr → List Expr) : GrammarStep Unit := do
  let space ← place name
  updateAt space name (fun d => { d with tokens := change d.tokens })
    (fun t => { t with tokens := change t.tokens })

def extend (name : String) (alternatives : List Expr) : GrammarStep Unit :=
  updateTokens name fun tokens => [.choice (tokens ++ alternatives)]

/-- The modifier of the body is left out. -/
def replace (name : String) (body : Body) : GrammarStep Unit :=
  updateTokens name fun _ => body.tokens

def edit (name : String) (e : Edit) : GrammarStep Unit := do
  let space ← place name
  if space = .template ∧ e.priority.isSome then throw (.templatePriority name)
  updateAt space name
    (fun d => { d with modifier := e.modifier.getD d.modifier,
                       priority := e.priority.getD d.priority })
    (fun t => { t with modifier := e.modifier.getD t.modifier })

end Grammar

end GrammarText
