import GrammarText.Grammar.Basic
import GrammarText.Text.Blank
import GrammarText.Text.Search

/-!
Names that a grammar refers to and nothing defines.

A name is accounted for if it is defined in any namespace, if a directive brings it in
(`Directive.declaredNames`), or if the referring definition is a template and one of its parameters
refers to it.

- `Grammar.undefinedReferences`: the other names, each once, in the order of their first reference.
-/

namespace GrammarText

/-- The names listed between the first opening and the last closing parenthesis, if they stand in
this order. -/
def parenthesizedNames? (text : List Char) : Option (List String) :=
  match Text.splitAtFirst? ['('] text with
  | none => none
  | some (_, after) => match Text.splitAtFirst? [')'] after.reverse with
    | none => none
    | some (_, inner) =>
      some (((Text.cut (· == ',') inner.reverse).map fun piece =>
        String.ofList (Text.trimChars piece)).filter (· ≠ ""))

/-- The last of the pieces between the points of a text. -/
def lastPiece (text : List Char) : List Char := (text.reverse.takeWhile (· ≠ '.')).reverse

/-- The names that the text of an import brings in: the one behind an arrow, or those listed in
parentheses, or the last piece of the path. -/
def importedNames (text : List Char) : List String :=
  match Text.splitAtFirst? ['-', '>'] text with
  | some (_, after) => [String.ofList (Text.trimChars after)]
  | none => match parenthesizedNames? text with
    | some names => names
    | none => [String.ofList (lastPiece (Text.trimChars text))]

/-- The names that a directive brings in. Only the raw text of an import or a declaration counts. -/
def Directive.declaredNames (d : Directive) : List String :=
  match d.content with
  | .node _ => []
  | .raw text =>
    if d.name = "declare" then Text.words text
    else if d.name = "import" then importedNames text.toList
    else []

namespace Grammar

/-- The references of one definition, and the names that count as defined inside it alone. -/
structure Scope where
  names : List String
  locals : List String := []

def scopes (g : Grammar) : List Scope :=
  (g.terminals.values ++ g.rules.values).map (fun d => { names := d.references })
    ++ g.directives.map (fun d => { names := d.references })
    ++ g.templates.values.map (fun t =>
      { names := t.references, locals := Expr.referencesAll t.params })

def undefinedReferences (g : Grammar) : List String :=
  let declared := g.directives.flatMap (·.declaredNames)
  (g.scopes.flatMap fun s => s.names.filter fun name =>
    !g.isDefined name && !declared.contains name && !s.locals.contains name).eraseDups

end Grammar

end GrammarText
