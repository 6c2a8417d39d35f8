import GrammarText.Expr.Basic
import GrammarText.Text.Indent

/-!
Dumps of expressions, for a reader who looks at the tree.

An entry is its name and, in parentheses, the indented block of what it holds: the dumps of its
items, one below the other, or the text of a leaf. An entry that holds nothing ends on the line
on which it began.
-/

namespace GrammarText

/-- An entry of a dump. -/
def dumpEntry (name content : String) : String := name ++ "(" ++ Text.indentBlock content ++ ")"

def joinLines (lines : List String) : String := String.intercalate "\n" lines

namespace Expr

mutual

def describe : Expr → String
  | text s => Text.quote s
  | tuple items => dumpEntry "Group" (joinLines (describeAll items))
  | list items => dumpEntry "Optional" (joinLines (describeAll items))
  | literal value flags => dumpEntry "Literal" (writtenLiteral value flags)
  | regexp pattern flags => dumpEntry "RegExp" (writtenRegexp pattern flags)
  | verbatim s => dumpEntry "Prerendered" s
  | handle h => match h.kind with
    | .rule => dumpEntry "RuleRef" h.name
    | .terminal => dumpEntry "TerminalRef" h.name
  | template name args => dumpEntry ("Template:" ++ name) (joinLines (describeAll args))
  | group items => dumpEntry "Group" (joinLines (describeAll items))
  | optional items => dumpEntry "Optional" (joinLines (describeAll items))
  | choice items => dumpEntry "Option" (joinLines (describeAll items))
  | repetition op items => dumpEntry op.word (joinLines (describeAll items))
  | bounded content bound => dumpEntry "Repeat" (describe content ++ " ~ " ++ bound.text)
  | range first last => dumpEntry "Range" (writtenRange first last)
  | aliased name items => dumpEntry ("Alias:" ++ name) (joinLines (describeAll items))
  | deferred label _ => dumpEntry "Variable" (variableLabel label)
  | branch key _ yes no =>
    dumpEntry ("BoolVariable:" ++ key) (describe yes ++ "\n" ++ describe no)

def describeAll : List Expr → List String
  | [] => []
  | e :: rest => describe e :: describeAll rest

end

end Expr

end GrammarText
