/-!
The names of a grammar.

An identifier begins with an ASCII letter or an underscore and goes on with ASCII letters, digits
and underscores. A rule name is an identifier with a lowercase letter and no uppercase one; a
terminal name is the opposite. So no name is both, and an identifier of underscores and digits
alone, or of mixed case, is neither.

- `ruleProblem?`, `terminalProblem?`: the first thing that keeps a text from being such a name.
- `NameClass.of?`: the class of a name.
-/

namespace GrammarText

/-- The namespace that the case of a name picks. -/
inductive NameClass where
  | rule
  | terminal
  deriving DecidableEq, Repr, Inhabited

/-- What keeps a text from being a name. -/
inductive NameProblem where
  | empty
  | badStart
  | badCharacter
  | uppercaseInRule
  | noLowercaseInRule
  | lowercaseInTerminal
  | noUppercaseInTerminal
  deriving DecidableEq, Repr

def NameProblem.message : NameProblem → String
  | .empty => "names cannot be empty"
  | .badStart => "names must start with a letter or underscore"
  | .badCharacter => "names must contain only letters, digits and underscores"
  | .uppercaseInRule => "rule names cannot contain uppercase letters"
  | .noLowercaseInRule => "rule names must contain at least one lowercase letter"
  | .lowercaseInTerminal => "terminal names cannot contain lowercase letters"
  | .noUppercaseInTerminal => "terminal names must contain at least one uppercase letter"

/-- An ASCII letter or an underscore. -/
def isNameStart (c : Char) : Bool := c.isAlpha || c == '_'

/-- An ASCII letter, a digit or an underscore. -/
def isNameChar (c : Char) : Bool := c.isAlphanum || c == '_'

def identifierProblem? : List Char → Option NameProblem
  | [] => some .empty
  | c :: rest =>
    if !isNameStart c then some .badStart
    else if !rest.all isNameChar then some .badCharacter
    else none

def ruleProblem? (name : String) : Option NameProblem :=
  match identifierProblem? name.toList with
  | some problem => some problem
  | none =>
    if name.toList.any Char.isUpper then some .uppercaseInRule
    else if !name.toList.any Char.isLower then some .noLowercaseInRule
    else none

def terminalProblem? (name : String) : Option NameProblem :=
  match identifierProblem? name.toList with
  | some problem => some problem
  | none =>
    if name.toList.any Char.isLower then some .lowercaseInTerminal
    else if !name.toList.any Char.isUpper then some .noUppercaseInTerminal
    else none

def isRuleName (name : String) : Bool := (ruleProblem? name).isNone

def isTerminalName (name : String) : Bool := (terminalProblem? name).isNone

/-- The class of a name, or `none` if it names neither a rule nor a terminal. -/
def NameClass.of? (name : String) : Option NameClass :=
  if isRuleName name then some .rule
  else if isTerminalName name then some .terminal
  else none

end GrammarText
