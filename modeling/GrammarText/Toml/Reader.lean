/-!
Readers of TOML text, and what may stand between its parts.

- `Reader`: reads a value from the front of a text and gives the rest, or refuses.
- `skipSpace`: spaces and tabs. `skipTrivia`: line breaks and comments as well. A carriage return
  counts only before a line feed, and a comment may hold no control character but the tab.
-/

namespace GrammarText.Toml

/-- Reads a value from the front of a text and gives the rest. -/
abbrev Reader (α : Type) := List Char → Option (α × List Char)

def isSpace (c : Char) : Bool := c == ' ' || c == '\t'

/-- A character that may stand in comments and quoted texts: no control character but the tab. -/
def isTextChar (c : Char) : Bool := c == '\t' || (0x20 ≤ c.toNat && c.toNat != 0x7f)

/-- A character of a key that stands without quotes. -/
def isBareChar (c : Char) : Bool := c.isAlphanum || c == '_' || c == '-'

def skipSpace (cs : List Char) : List Char := cs.dropWhile isSpace

/-- Skips blanks, line breaks and comments; `inComment` while the end of a line is awaited. -/
def skipTriviaAux (inComment : Bool) : List Char → Option (List Char)
  | [] => some []
  | '\r' :: '\n' :: rest => skipTriviaAux false rest
  | c :: rest =>
    if c = '\n' then skipTriviaAux false rest
    else if inComment then if isTextChar c then skipTriviaAux true rest else none
    else if isSpace c then skipTriviaAux false rest
    else if c = '#' then skipTriviaAux true rest
    else if c = '\r' then none
    else some (c :: rest)

def skipTrivia (cs : List Char) : Option (List Char) := skipTriviaAux false cs

/-- Reads one given character. -/
def readChar (wanted : Char) : Reader Unit
  | [] => none
  | c :: rest => if c = wanted then some ((), rest) else none

/-- The value of a decimal digit. -/
def digitVal (c : Char) : Nat := c.toNat - 48

/-- The number written by decimal digits. -/
def digitsVal (digits : List Char) : Nat := digits.foldl (fun n c => 10 * n + digitVal c) 0

end GrammarText.Toml
