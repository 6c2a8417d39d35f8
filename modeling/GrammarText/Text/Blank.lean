/-!
Blank characters: the Unicode property White_Space, and what is read with it.

- `isBlank`: the 25 characters of the property.
- `trim`: a text without the blanks at its two ends.
- `words`: the longest runs of a text that hold no blank.
-/

namespace GrammarText.Text

/-- The ranges of code points of the property White_Space. -/
def blankRanges : List (Nat × Nat) :=
  [(0x9, 0xd), (0x20, 0x20), (0x85, 0x85), (0xa0, 0xa0), (0x1680, 0x1680), (0x2000, 0x200a),
   (0x2028, 0x2029), (0x202f, 0x202f), (0x205f, 0x205f), (0x3000, 0x3000)]

def isBlank (c : Char) : Bool := blankRanges.any fun r => r.1 ≤ c.toNat && c.toNat ≤ r.2

def trimChars (cs : List Char) : List Char :=
  (((cs.dropWhile isBlank).reverse).dropWhile isBlank).reverse

def trim (s : String) : String := String.ofList (trimChars s.toList)

/-- Cuts a text before every character of `isEnd`, which is left out; `piece` holds, last first,
the characters since the cut before. -/
def cutAux (isEnd : Char → Bool) (piece : List Char) : List Char → List (List Char)
  | [] => [piece.reverse]
  | c :: rest =>
    if isEnd c then piece.reverse :: cutAux isEnd [] rest else cutAux isEnd (c :: piece) rest

/-- The pieces of a text between the characters of `isEnd`, empty ones included. -/
def cut (isEnd : Char → Bool) (cs : List Char) : List (List Char) := cutAux isEnd [] cs

def words (s : String) : List String :=
  ((cut isBlank s.toList).filter (!·.isEmpty)).map String.ofList

end GrammarText.Text
