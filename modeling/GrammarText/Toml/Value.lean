import GrammarText.Entries
import GrammarText.Toml.Datetime

/-!
The values of a TOML document.

A document may hold texts that have the form of a number and no value. Like integers of any size,
they are kept, and it is up to the reader of a value which numbers to accept: one that is never
looked at does no harm. The entries of a table are in the order of their keys.
-/

namespace GrammarText.Toml

inductive Value where
  | string (s : String)
  | integer (n : Int)
  | float (x : Float)
  /-- The form of a number without a value, such as a float beyond the largest number. -/
  | badNumber
  | boolean (b : Bool)
  | datetime (d : Datetime)
  | array (items : List Value)
  | table (entries : List (String × Value))
  deriving Inhabited

/-- Puts an entry before the first one with a greater key. -/
def insertSorted {α : Type} (key : String) (value : α) : Entries α → Entries α
  | [] => [(key, value)]
  | (k, v) :: rest =>
    if key < k then (key, value) :: (k, v) :: rest else (k, v) :: insertSorted key value rest

end GrammarText.Toml
