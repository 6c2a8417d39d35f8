import GrammarText.Decimal.Shortest
import GrammarText.Entries
import GrammarText.Text.Shown

/-!
The values of a generation context.

- `Value.truthy`: how a value answers a yes-or-no question. False, zero, the empty text and the
  empty collections answer no.
- `Value.shown`: a value as it would stand in a document.
-/

namespace GrammarText

inductive Value where
  | bool (b : Bool)
  | int (n : Int)
  | float (x : Float)
  | str (s : String)
  | list (items : List Value)
  | table (entries : List (String × Value))
  deriving Inhabited

namespace Value

def truthy : Value → Bool
  | bool b => b
  | int n => n != 0
  | float x => x != 0.0
  | str s => !s.isEmpty
  | list items => !items.isEmpty
  | table entries => !entries.isEmpty

def str? : Value → Option String
  | str s => some s
  | _ => none

/-- A number from 0.0001 up to 10 ^ 16 has a point and digits on both sides of it, any other an
exponent. -/
def floatLayout : Decimal.Layout :=
  { leastPlaces := -3, mostPlaces := 16, mark := "e", nan := "nan", infinity := "inf" }

mutual

def shown : Value → String
  | bool b => if b then "true" else "false"
  | int n => toString n
  | float x => floatLayout.text x
  | str s => Text.shown s
  | list items => "[" ++ shownItems items ++ "]"
  | table entries => "\x7b " ++ shownEntries entries ++ " \x7d"

/-- Items with a comma between every two. -/
def shownItems : List Value → String
  | [] => ""
  | [v] => v.shown
  | v :: w :: rest => v.shown ++ ", " ++ shownItems (w :: rest)

/-- Entries with a comma between every two; the keys stand as they are. -/
def shownEntries : List (String × Value) → String
  | [] => ""
  | [(k, v)] => k ++ " = " ++ v.shown
  | (k, v) :: e :: rest => k ++ " = " ++ v.shown ++ ", " ++ shownEntries (e :: rest)

end

end Value

end GrammarText
