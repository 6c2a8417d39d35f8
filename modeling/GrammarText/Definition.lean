import GrammarText.Expr.Describe
import GrammarText.Expr.Render

/-!
The definitions of a grammar, each written on a line of its own.

- `Definition`: a rule or a terminal, `name.2: body`.
- `TemplateDef`: a rule with parameters, `name` and then `a, b` in braces, and the body.
- `Directive`: a line such as `%import common.WS`.

A `Modifier` is a mark before the name. A definition's priority stands behind its name, unless it is
the default one.
-/

namespace GrammarText

inductive Modifier where
  | none
  /-- `_rule` is inlined; `_TERM` is left out of the tree. -/
  | inline
  /-- `?rule` is inlined when it has a single child. -/
  | inlineSingle
  /-- `!rule` keeps all of its terminals. -/
  | keepTerminals
  deriving DecidableEq, Repr, Inhabited

def Modifier.symbol : Modifier → String
  | .none => ""
  | .inline => "_"
  | .inlineSingle => "?"
  | .keepTerminals => "!"

/-- The tokens of a definition, with the modifier that they were marked with, if any. -/
structure Body where
  tokens : List Expr := []
  modifier : Option Modifier := .none
  deriving Inhabited

def defaultPriority : Int := 1

/-- How a definition is filed. -/
structure DefOptions where
  modifier : Modifier := .none
  priority : Int := defaultPriority
  /-- Take the place of a definition that has the name already. -/
  replace : Bool := false
  deriving DecidableEq, Repr, Inhabited

structure Definition where
  kind : NameClass
  name : String
  tokens : List Expr
  modifier : Modifier
  priority : Int
  deriving Inhabited

namespace Definition

/-- The modifier of the body wins over the one of the options. -/
def ofBody (kind : NameClass) (name : String) (body : Body) (options : DefOptions) : Definition :=
  { kind, name, tokens := body.tokens, modifier := body.modifier.getD options.modifier,
    priority := options.priority }

/-- A change of a definition in its place. -/
inductive Change where
  | push (token : Expr)
  /-- The modifier of the body is left out. -/
  | setTokens (body : Body)
  | setModifier (modifier : Modifier)
  | setPriority (priority : Int)

def change (d : Definition) : Change → Definition
  | .push token => { d with tokens := d.tokens ++ [token] }
  | .setTokens body => { d with tokens := body.tokens }
  | .setModifier modifier => { d with modifier := modifier }
  | .setPriority priority => { d with priority := priority }

def changeAll (d : Definition) (changes : List Change) : Definition := changes.foldl change d

/-- Writes what stands before the tokens. -/
def renderHead (d : Definition) : Emission := do
  emit d.modifier.symbol
  emit d.name
  if d.priority ≠ defaultPriority then do emit "."; emit (toString d.priority)
  emit ": "

def render (ctx : Context) (d : Definition) : Emission := do
  d.renderHead
  Expr.renderSeparated ctx " " d.tokens

def kindWord : NameClass → String
  | .rule => "RuleDef"
  | .terminal => "TerminalDef"

def describe (d : Definition) : String :=
  dumpEntry (kindWord d.kind ++ ":" ++ d.name) (joinLines (Expr.describeAll d.tokens))

def references (d : Definition) : List String := Expr.referencesAll d.tokens

end Definition

structure TemplateDef where
  name : String
  params : List Expr
  tokens : List Expr
  modifier : Modifier
  deriving Inhabited

namespace TemplateDef

/-- The modifier of the body wins over the given one. -/
def ofBody (name : String) (params : List Expr) (body : Body) (modifier : Modifier) : TemplateDef :=
  { name, params, tokens := body.tokens, modifier := body.modifier.getD modifier }

def render (ctx : Context) (t : TemplateDef) : Emission := do
  emit t.modifier.symbol
  emit t.name
  Expr.renderWrapped ctx "\x7b" "\x7d" t.params ", "
  emit ": "
  Expr.renderSeparated ctx " " t.tokens

/-- The dump shows the tokens alone. -/
def describe (t : TemplateDef) : String :=
  dumpEntry ("TemplateDef:" ++ t.name) (joinLines (Expr.describeAll t.tokens))

def references (t : TemplateDef) : List String := Expr.referencesAll t.tokens

end TemplateDef

inductive DirectiveContent where
  /-- Written as it is. -/
  | raw (text : String)
  | node (e : Expr)
  deriving Inhabited

structure Directive where
  name : String
  content : DirectiveContent
  deriving Inhabited

namespace Directive

def render (ctx : Context) (d : Directive) : Emission := do
  emit "%"
  emit d.name
  emit " "
  match d.content with
  | .raw text => emit text
  | .node e => e.render ctx

def describe (d : Directive) : String :=
  dumpEntry ("DirectiveDef:" ++ d.name) (match d.content with
    | .raw text => text
    | .node e => e.describe)

/-- The names that the content refers to; a raw text refers to nothing. -/
def references (d : Directive) : List String :=
  match d.content with
  | .raw _ => []
  | .node e => e.references

end Directive

end GrammarText
