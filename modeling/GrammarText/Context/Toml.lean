import GrammarText.Context.Basic
import GrammarText.Text.Blank
import GrammarText.Text.Search
import GrammarText.Toml.Library

/-!
Context values written in TOML.

A context comes from a table of a document (`Context.ofContents?`) or from assignments such as
`key=value` (`Context.parseAssignment?`), whose values are read as TOML where they can be and stand
for themselves otherwise (`Value.parse`).

The two ways ask for different forms of a document. In a table, a value is whatever form of value can
be filled from it first (`Value.ofContent?`); in an assignment, each value of TOML has its own
(`Value.ofTree`).
-/

namespace GrammarText

variable [Toml.Library]

namespace Value

/-! ## Values of a table -/

mutual

/-- The first form of value, in their order, that can be filled from a content. -/
def ofContent? (content : Toml.Content) : Option Value :=
  content.boolean?.map bool
    <|> content.integer?.map int
    <|> content.float?.map float
    <|> content.string?.map str
    <|> match content with
      | .array items => (ofContentItems? items).map list
      | .table entries => (ofContentEntries? entries).map table
      | _ => none

def ofContentItems? : List Toml.Content → Option (List Value)
  | [] => some []
  | item :: rest => match ofContent? item with
    | none => none
    | some v => (ofContentItems? rest).map (v :: ·)

def ofContentEntries? : List (String × Toml.Content) → Option (List (String × Value))
  | [] => some []
  | (key, item) :: rest => match ofContent? item with
    | none => none
    | some v => (ofContentEntries? rest).map ((key, v) :: ·)

end

/-! ## Values of an assignment -/

mutual

/-- A date or time stands for its text. -/
def ofTree : Toml.Tree → Value
  | .string s => str s
  | .integer n => int n
  | .float x => float x
  | .boolean b => bool b
  | .datetime text => str text
  | .array items => list (ofTreeItems items)
  | .table entries => table (ofTreeEntries entries)

def ofTreeItems : List Toml.Tree → List Value
  | [] => []
  | item :: rest => ofTree item :: ofTreeItems rest

def ofTreeEntries : List (String × Toml.Tree) → List (String × Value)
  | [] => []
  | (key, item) :: rest => (key, ofTree item) :: ofTreeEntries rest

end

/-- The value behind `value = ` in a document that begins so and goes on with `raw`. -/
def parse? (raw : String) : Option Value :=
  match Toml.table? ("value = " ++ raw) with
  | none => none
  | some entries => (Entries.get? entries "value").map ofTree

/-- The value of an argument: as TOML if it can be read so, and otherwise the text itself. -/
def parse (raw : String) : Value := (parse? raw).getD (str raw)

end Value

namespace Context

/-- The context in a table of a document. -/
def ofContents? (entries : List (String × Toml.Content)) : Option Context :=
  (Value.ofContentEntries? entries).map Context.mk

/-- The context in the outermost table of a document. -/
def parse? (text : String) : Option Context := (Toml.contents? text).bind ofContents?

/-- The key and the value around the first equals sign, without the blanks around them. There must
be a key. -/
def parseAssignment? (assignment : String) : Option (String × Value) :=
  match Text.splitAtFirst? ['='] assignment.toList with
  | none => none
  | some (before, after) =>
    let key := Text.trimChars before
    if key.isEmpty then none
    else some (String.ofList key, Value.parse (String.ofList (Text.trimChars after)))

end Context

end GrammarText
