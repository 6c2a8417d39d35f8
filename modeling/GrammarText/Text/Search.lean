/-!
The first occurrence of one text in another.

- `splitAtFirst?`: what stands before and after the first occurrence.
- `find?`: its place, counted in bytes of UTF-8.
-/

namespace GrammarText.Text

/-- What stands before and after the first occurrence of `pattern`. -/
def splitAtFirst? (pattern : List Char) : List Char → Option (List Char × List Char)
  | [] => if pattern.isEmpty then some ([], []) else none
  | c :: rest =>
    if pattern.isPrefixOf (c :: rest) then some ([], (c :: rest).drop pattern.length)
    else (splitAtFirst? pattern rest).map fun (before, after) => (c :: before, after)

/-- The number of bytes that a text takes in UTF-8. -/
def byteLength : List Char → Nat
  | [] => 0
  | c :: rest => c.utf8Size + byteLength rest

/-- The number of bytes before the first occurrence of `pattern` in `text`. -/
def find? (text pattern : String) : Option Nat :=
  (splitAtFirst? pattern.toList text.toList).map fun (before, _) => byteLength before

end GrammarText.Text
