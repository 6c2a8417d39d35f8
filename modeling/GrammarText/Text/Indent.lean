/-!
Indented blocks, as they stand between the parentheses of a dump.

`indentBlock` puts a text on lines of its own, each line four spaces further in; an empty text
stays empty, so that an entry without content is written on one line.
-/

namespace GrammarText.Text

/-- The characters that begin a line of a block. -/
def indentMargin : List Char := ['\n', ' ', ' ', ' ', ' ']

/-- Writes four spaces after every line feed. -/
def indentChars (cs : List Char) : List Char :=
  cs.flatMap fun c => if c = '\n' then indentMargin else [c]

def indentBlock (s : String) : String :=
  if s.isEmpty then "" else String.ofList (indentMargin ++ indentChars s.toList ++ ['\n'])

end GrammarText.Text
