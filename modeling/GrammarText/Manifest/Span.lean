import GrammarText.Text.Search

/-!
Where the name of a definition stands in the text of a manifest.

The name is looked for as the value of a field `name`, in three spellings, then between double
quotes anywhere, then anywhere; the first place of the first spelling that occurs is taken.
-/

namespace GrammarText

/-- A piece of a text, in bytes. -/
structure Span where
  offset : Nat
  length : Nat
  deriving DecidableEq, Repr

/-- The spellings in which a name is looked for: what stands before the name and what behind it. -/
def nameSpellings : List (String × String) :=
  [("name = \"", "\""), ("name=\"", "\""), ("name = '", "'"), ("\"", "\""), ("", "")]

/-- The place of a name in one spelling. -/
def spanIn? (source name : String) (spelling : String × String) : Option Span :=
  (Text.find? source (spelling.1 ++ name ++ spelling.2)).map fun offset =>
    ⟨offset + spelling.1.utf8ByteSize, name.utf8ByteSize⟩

def nameSpan? (source name : String) : Option Span :=
  nameSpellings.findSome? (spanIn? source name)

end GrammarText
