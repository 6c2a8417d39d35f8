import GrammarText.Decimal.Binary

/-!
What the program takes of a library that reads TOML.

A document is asked for in one of two forms. `Tree` is its value as the library keeps it. `Content`
is what a record is filled from: it holds what was written, and whoever fills a field says what may
stand there.

- `Library`: the two forms of a document, and the float that an integer is taken for.
- `datetimeKey`: there are no dates and times among the contents. They are handed over as tables with
  this key.
- `Content.string?`, `Content.boolean?`, `Content.integer?`, `Content.float?`: what a field of one of
  these types takes.
-/

namespace GrammarText

/-- Whether an integer has 64 bits, one of them for the sign. -/
def fitsSigned (n : Int) : Bool := -(Decimal.twoPow 63 : Int) ≤ n && n < Decimal.twoPow 63

namespace Toml

/-- The key of a table that stands for a date or time. -/
def datetimeKey : String := "$__toml_private_datetime"

/-- A value of a document. -/
inductive Tree where
  | string (s : String)
  | integer (n : Int)
  | float (x : Float)
  | boolean (b : Bool)
  /-- A date or time, by the text that it is shown as. -/
  | datetime (text : String)
  | array (items : List Tree)
  | table (entries : List (String × Tree))
  deriving Inhabited

/-- A value of a document that a field is filled from. -/
inductive Content where
  | string (s : String)
  | integer (n : Int)
  | float (x : Float)
  /-- The form of a number without a value. No field takes it, but it does no harm where no field is
  filled from it. -/
  | badNumber
  | boolean (b : Bool)
  | array (items : List Content)
  | table (entries : List (String × Content))
  deriving Inhabited

class Library where
  /-- The outermost table of a document. -/
  table? (text : String) : Option (List (String × Tree))
  /-- The contents of the outermost table of a document. -/
  contents? (text : String) : Option (List (String × Content))
  /-- The float that an integer is taken for where there must be one. -/
  floatOf? (n : Int) : Option Float

export Library (table? contents?)

namespace Content

def string? : Content → Option String
  | string s => some s
  | _ => none

def boolean? : Content → Option Bool
  | boolean b => some b
  | _ => none

def integer? : Content → Option Int
  | integer n => if fitsSigned n then some n else none
  | _ => none

def float? [Library] : Content → Option Float
  | float x => some x
  | integer n => Library.floatOf? n
  | _ => none

end Content

end Toml

end GrammarText
