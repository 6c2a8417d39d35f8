import GrammarText.Toml.Document
import GrammarText.Toml.Library

/-!
The library that the program runs with: documents are read by `Toml.parse`.

- `Value.tree?`: the value of a document as it is kept. All numbers must have a value, integers have
  64 bits, and a table that begins with the reserved key must stand for a date or time.
- `Value.content`: the value as fields are filled from it.
-/

namespace GrammarText.Toml

/-- The date or time that the entries of a table stand for, if the first one has the reserved key:
then it must be the text of one. -/
def reservedDatetime? : List (String × Value) → Option (Option Datetime)
  | (key, item) :: _ =>
    if key = datetimeKey then match item with
      | .string s => some (Datetime.read? s.toList)
      | _ => some none
    else none
  | [] => none

mutual

def Value.tree? : Value → Option Tree
  | .string s => some (.string s)
  | .integer n => if fitsSigned n then some (.integer n) else none
  | .float x => some (.float x)
  | .badNumber => none
  | .boolean b => some (.boolean b)
  | .datetime d => some (.datetime d.written)
  | .array items => (treeItems? items).map .array
  | .table entries => match reservedDatetime? entries with
    | some datetime => datetime.map fun d => .datetime d.written
    | none => (treeEntries? entries).map .table

def treeItems? : List Value → Option (List Tree)
  | [] => some []
  | item :: rest => match item.tree? with
    | none => none
    | some t => (treeItems? rest).map (t :: ·)

def treeEntries? : List (String × Value) → Option (List (String × Tree))
  | [] => some []
  | (key, item) :: rest => match item.tree? with
    | none => none
    | some t => (treeEntries? rest).map ((key, t) :: ·)

end

mutual

def Value.content : Value → Content
  | .string s => .string s
  | .integer n => .integer n
  | .float x => .float x
  | .badNumber => .badNumber
  | .boolean b => .boolean b
  | .datetime d => .table [(datetimeKey, .string d.written)]
  | .array items => .array (contentItems items)
  | .table entries => .table (contentEntries entries)

def contentItems : List Value → List Content
  | [] => []
  | item :: rest => item.content :: contentItems rest

def contentEntries : List (String × Value) → List (String × Content)
  | [] => []
  | (key, item) :: rest => (key, item.content) :: contentEntries rest

end

/-- A float can stand for every integer of 64 bits, with or without a sign. -/
instance standard : Library where
  table? text := (parse text).bind treeEntries?
  contents? text := (parse text).map contentEntries
  floatOf? n :=
    if 0 ≤ n ∧ n < Decimal.twoPow 64 then some (Decimal.ofDecimal false n.toNat 0) else none

end GrammarText.Toml
