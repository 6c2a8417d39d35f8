import GrammarText.Context.Basic
import GrammarText.Error
import GrammarText.Text.Escape

/-!
Grammar expressions: what may stand in the body of a definition.

An expression is a tree. Its leaves are texts, literals, patterns, ranges and handles to other
definitions; inner positions group, repeat, choose and name what they hold. Two kinds of position
wait for the context of a generation: a `deferred` one computes an expression from it, and a
`branch` picks one of two by a yes-or-no key.

`tuple` and `list` are the short forms of `group` and `optional`. They are written alike; a `tuple`
moreover spreads into the arguments of an instantiation (`Expr.arguments`), and all but `optional`
spread into the parameters of a template (`Expr.params`).
-/

namespace GrammarText

/-- The operator behind a repeated group. -/
inductive Repetition where
  | zeroOrMore
  | oneOrMore
  | zeroOrOne
  deriving DecidableEq, Repr

def Repetition.symbol : Repetition → String
  | .zeroOrMore => "*"
  | .oneOrMore => "+"
  | .zeroOrOne => "?"

/-- The operator's name in a dump. -/
def Repetition.word : Repetition → String
  | .zeroOrMore => "Some"
  | .oneOrMore => "Many"
  | .zeroOrOne => "Maybe"

inductive RangeEnd where
  | number (n : Int)
  | char (c : Char)
  deriving DecidableEq, Repr

def RangeEnd.written : RangeEnd → String
  | .number n => toString n
  | .char c => Text.quote (String.singleton c)

/-- Identity of a grammar. -/
abbrev GrammarId := Nat

/-- A name of a rule or a terminal, issued by a grammar that may or may not define it. -/
structure Handle where
  kind : NameClass
  name : String
  issuer : GrammarId
  deriving DecidableEq, Repr

inductive Expr where
  /-- A text, written as a quoted literal. -/
  | text (s : String)
  | tuple (items : List Expr)
  | list (items : List Expr)
  /-- A quoted literal with flags behind its closing quote. -/
  | literal (value flags : String)
  | regexp (pattern flags : String)
  /-- Written as it is. -/
  | verbatim (s : String)
  | handle (h : Handle)
  /-- An instantiation of the template of that name. -/
  | template (name : String) (args : List Expr)
  | group (items : List Expr)
  | optional (items : List Expr)
  /-- Alternatives, without parentheses around them. -/
  | choice (items : List Expr)
  | repetition (op : Repetition) (items : List Expr)
  | bounded (content : Expr) (bound : Bound)
  | range (first last : RangeEnd)
  /-- A name for the result of the items. -/
  | aliased (name : String) (items : List Expr)
  | deferred (label : Option String) (resolve : Context → Except GrammarError Expr)
  | branch (key : String) (default : Bool) (yes no : Expr)

namespace Expr

instance : Inhabited Expr := ⟨verbatim ""⟩

/-! ## Forms built of others -/

/-- Writes nothing. -/
def empty : Expr := verbatim ""

def either (a b : Expr) : Expr := choice [a, b]

/-- Any number of operands joined by a binary "or", from the left. -/
def orElseAll : Expr → List Expr → Expr
  | first, [] => first
  | first, e :: rest => orElseAll (either first e) rest

def choiceGroup (items : List Expr) : Expr := group [choice items]

/-- `item`, then a repetition of `sep item`. -/
def separated (op : Repetition) (sep item : Expr) : Expr := group [item, repetition op [sep, item]]

/-- A bounded repetition, refused for a bound that allows no run. -/
def repeated (content : Expr) (bound : Bound) : Except GrammarError Expr :=
  if bound.IsValid then .ok (bounded content bound) else .error (.invalidBound bound)

/-! ## Splitting -/

/-- The parameters of a template that the expression gives. -/
def params : Expr → List Expr
  | tuple items => items
  | list items => items
  | group items => items
  | e => [e]

/-- The arguments of an instantiation that the expression gives. -/
def arguments : Expr → List Expr
  | tuple items => items
  | e => [e]

/-- The expression without a short form at its top. -/
def spelledOut : Expr → Expr
  | text s => literal s ""
  | tuple items => group items
  | list items => optional items
  | e => e

/-! ## Leaves -/

def writtenLiteral (value flags : String) : String := Text.quote value ++ flags

def writtenRegexp (pattern flags : String) : String := "/" ++ pattern ++ "/" ++ flags

def writtenRange (first last : RangeEnd) : String := first.written ++ ".." ++ last.written

/-- The label that a dump shows for a variable. -/
def variableLabel (label : Option String) : String := label.getD "<resolver>"

/-! ## References -/

mutual

/-- The names that an expression refers to by handles and instantiations, in order, each as often
as it occurs. Both sides of a branch count; a variable refers to nothing before it is resolved. -/
def references : Expr → List String
  | handle h => [h.name]
  | template name args => name :: referencesAll args
  | tuple items | list items | group items | optional items | choice items => referencesAll items
  | repetition _ items | aliased _ items => referencesAll items
  | bounded content _ => references content
  | branch _ _ yes no => references yes ++ references no
  | text _ | literal .. | regexp .. | verbatim _ | range .. | deferred .. => []

def referencesAll : List Expr → List String
  | [] => []
  | e :: rest => references e ++ referencesAll rest

end

end Expr

end GrammarText
