import GrammarText.Text.Escape
import GrammarText.Toml.Reader

/-!
Quoted texts of TOML.

Between double quotes an escape begins with a backslash; between single quotes every character
stands for itself. Either quote, three times, encloses a text of several lines: a line break right
behind the opening quotes is left out, one or two quotes may stand before the closing ones, and
between double quotes a backslash at the end of a line takes all blanks up to the next character
with it.
-/

namespace GrammarText.Toml

/-- The character that a two-character escape stands for, by its second character. -/
def shortEscape? (c : Char) : Option Char :=
  if c = 'b' then some '\x08'
  else if c = 't' then some '\t'
  else if c = 'n' then some '\n'
  else if c = 'f' then some '\x0c'
  else if c = 'r' then some '\r'
  else if c = 'e' then some '\x1b'
  else if c = '"' then some '"'
  else if c = '\\' then some '\\'
  else none

/-- The character written by exactly `count` hexadecimal digits. -/
def numericEscape? (count : Nat) (cs : List Char) : Option Char :=
  if (cs.take count).length = count then
    (Text.readHexOnto? 0 (cs.take count)).bind Text.charOfCode?
  else none

/-- The character that an escape stands for, and the number of characters of the escape behind the
backslash. -/
def escape? : List Char → Option (Char × Nat)
  | [] => none
  | c :: rest => match shortEscape? c with
    | some decoded => some (decoded, 1)
    | none => match Text.escapeWidth? c with
      | some count => (numericEscape? count rest).map fun decoded => (decoded, count + 1)
      | none => none

/-- Reads up to the closing double quote. -/
def readBasic : List Char → Option (List Char × List Char)
  | [] => none
  | '"' :: rest => some ([], rest)
  | '\\' :: rest => match escape? rest with
    | none => none
    | some (c, used) => match readBasic (rest.drop used) with
      | none => none
      | some (text, after) => some (c :: text, after)
  | c :: rest =>
    if isTextChar c then
      match readBasic rest with
      | none => none
      | some (text, after) => some (c :: text, after)
    else none
termination_by cs => cs.length

/-- Reads up to the closing single quote. -/
def readLiteral : List Char → Option (List Char × List Char)
  | [] => none
  | '\x27' :: rest => some ([], rest)
  | c :: rest =>
    if isTextChar c then
      match readLiteral rest with
      | none => none
      | some (text, after) => some (c :: text, after)
    else none

/-- The quotes, two at most, that still belong to a text whose closing quotes were read before
them. -/
def quotesBeforeClose (quote : Char) : List Char → List Char × List Char
  | [] => ([], [])
  | [c] => if c = quote then ([c], []) else ([], [c])
  | c :: d :: rest =>
    if c = quote then if d = quote then ([c, d], rest) else ([c], d :: rest)
    else ([], c :: d :: rest)

/-- Skips spaces, tabs and line breaks. -/
def skipBreaks : List Char → List Char
  | [] => []
  | '\r' :: '\n' :: rest => skipBreaks rest
  | c :: rest => if isSpace c || c = '\n' then skipBreaks rest else c :: rest

theorem length_skipBreaks_le (cs : List Char) : (skipBreaks cs).length ≤ cs.length := by
  fun_induction skipBreaks cs with
  | case1 => simp
  | case2 rest ih => simp only [List.length_cons]; omega
  | case3 c rest _ _ ih => simp only [List.length_cons]; omega
  | case4 => simp

/-- Whether nothing but spaces and tabs stands before the end of the line. -/
def endsLine (cs : List Char) : Bool :=
  match skipSpace cs with
  | '\n' :: _ => true
  | '\r' :: '\n' :: _ => true
  | _ => false

/-- Reads up to the three closing double quotes. -/
def readBasicBlock : List Char → Option (List Char × List Char)
  | [] => none
  | '"' :: '"' :: '"' :: rest => some (quotesBeforeClose '"' rest)
  | '\r' :: '\n' :: rest => match readBasicBlock rest with
    | none => none
    | some (text, after) => some ('\r' :: '\n' :: text, after)
  | '\\' :: rest =>
    if endsLine rest then readBasicBlock (skipBreaks rest)
    else match escape? rest with
      | none => none
      | some (c, used) => match readBasicBlock (rest.drop used) with
        | none => none
        | some (text, after) => some (c :: text, after)
  | c :: rest =>
    if isTextChar c || c = '\n' then
      match readBasicBlock rest with
      | none => none
      | some (text, after) => some (c :: text, after)
    else none
termination_by cs => cs.length
decreasing_by
  all_goals simp only [List.length_cons, List.length_drop]
  all_goals have := length_skipBreaks_le rest
  all_goals omega

/-- Reads up to the three closing single quotes. -/
def readLiteralBlock : List Char → Option (List Char × List Char)
  | [] => none
  | '\x27' :: '\x27' :: '\x27' :: rest => some (quotesBeforeClose '\x27' rest)
  | '\r' :: '\n' :: rest => match readLiteralBlock rest with
    | none => none
    | some (text, after) => some ('\r' :: '\n' :: text, after)
  | c :: rest =>
    if isTextChar c || c = '\n' then
      match readLiteralBlock rest with
      | none => none
      | some (text, after) => some (c :: text, after)
    else none

/-- Leaves out the line break at the front of a text. -/
def dropBreak : List Char → List Char
  | '\n' :: rest => rest
  | '\r' :: '\n' :: rest => rest
  | cs => cs

/-- Reads a quoted text of one line. -/
def readQuotedLine : Reader String
  | '"' :: rest => (readBasic rest).map fun (text, after) => (String.ofList text, after)
  | '\x27' :: rest => (readLiteral rest).map fun (text, after) => (String.ofList text, after)
  | _ => none

/-- Reads a quoted text of one line or several. -/
def readQuoted : Reader String
  | '"' :: '"' :: '"' :: rest =>
    (readBasicBlock (dropBreak rest)).map fun (text, after) => (String.ofList text, after)
  | '\x27' :: '\x27' :: '\x27' :: rest =>
    (readLiteralBlock (dropBreak rest)).map fun (text, after) => (String.ofList text, after)
  | cs => readQuotedLine cs

end GrammarText.Toml
