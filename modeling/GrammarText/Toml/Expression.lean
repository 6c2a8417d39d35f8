import GrammarText.Toml.Number
import GrammarText.Toml.Quoted
import GrammarText.Toml.Table

/-!
Keys and values of a TOML document, as text.

Arrays and inline tables may hold blanks, line breaks, comments and a comma at the end, and they
nest `maxNesting` deep at most. A key has at most as many parts.

- `readKey`: a key, dotted or not, as its list of parts.
- `readValue`: a value.
-/

namespace GrammarText.Toml

/-- How many arrays and inline tables may stand inside each other, and how many parts a key may
have. -/
def maxNesting : Nat := 80

/-! ## Keys -/

def readKeyPart : Reader String := fun cs =>
  match cs with
  | '"' :: _ => readQuotedLine cs
  | '\x27' :: _ => readQuotedLine cs
  | _ =>
    let bare := cs.takeWhile isBareChar
    if bare.isEmpty then none else some (String.ofList bare, cs.dropWhile isBareChar)

/-- Reads parts with points between them; blanks may stand around a point. -/
def readKeyParts (cs : List Char) : Option (List String × List Char) :=
  match readKeyPart cs with
  | none => none
  | some (part, after) => match skipSpace after with
    | '.' :: rest =>
      if (skipSpace rest).length < cs.length then
        (readKeyParts (skipSpace rest)).map fun (parts, rest) => (part :: parts, rest)
      else none
    | _ => some ([part], after)
termination_by cs.length

/-- Reads a key of at most `maxNesting` parts. -/
def readKey : Reader (List String) := fun cs =>
  match readKeyParts cs with
  | none => none
  | some (parts, rest) => if parts.length ≤ maxNesting then some (parts, rest) else none

/-! ## Values without parts -/

/-- A character that ends a value which is neither quoted nor bracketed. -/
def endsScalar (c : Char) : Bool := c ∈ " \t\r\n,[]\x7b\x7d=#\"\x27".toList

/-- Whether the text is a date and nothing else. -/
def isDate (cs : List Char) : Bool :=
  match readDate cs with
  | some (_, []) => true
  | _ => false

/-- Splits off the characters of a value which is neither quoted nor bracketed. A date and a time
with one space between them are one value. -/
def splitScalar (cs : List Char) : List Char × List Char :=
  let first := cs.takeWhile (!endsScalar ·)
  match cs.dropWhile (!endsScalar ·) with
  | ' ' :: c :: rest =>
    if isDate first && c.isDigit then
      let second := (c :: rest).takeWhile (!endsScalar ·)
      (first ++ ' ' :: second, (c :: rest).dropWhile (!endsScalar ·))
    else (first, ' ' :: c :: rest)
  | rest => (first, rest)

def scalar? (cs : List Char) : Option Value :=
  if cs = ['t', 'r', 'u', 'e'] then some (.boolean true)
  else if cs = ['f', 'a', 'l', 's', 'e'] then some (.boolean false)
  else match number? cs with
    | some v => some v
    | none => (Datetime.read? cs).map .datetime

def readScalar : Reader Value := fun cs =>
  let (first, rest) := splitScalar cs
  (scalar? first).map fun v => (v, rest)

/-! ## Arrays and inline tables -/

/-- Reads the items of an array, after its opening bracket. -/
def readItems (item : Reader Value) (cs : List Char) : Option (List Value × List Char) :=
  match skipTrivia cs with
  | none => none
  | some (']' :: rest) => some ([], rest)
  | some start => match item start with
    | none => none
    | some (v, after) => match skipTrivia after with
      | some (']' :: rest) => some ([v], rest)
      | some (',' :: rest) =>
        if rest.length < cs.length then
          (readItems item rest).map fun (vs, rest) => (v :: vs, rest)
        else none
      | _ => none
termination_by cs.length

/-- Reads a key, the sign behind it and its value. -/
def readInlineEntry (item : Reader Value) : Reader (List String × Value) := fun cs => do
  let (path, cs) ← readKey cs
  let cs ← skipTrivia cs
  let (_, cs) ← readChar '=' cs
  let cs ← skipTrivia cs
  let (v, cs) ← item cs
  return ((path, v), cs)

/-- Reads the entries of an inline table onto `items`, after its opening brace. -/
def readInlineEntries (item : Reader Value) (items : Items) (cs : List Char) :
    Option (Items × List Char) :=
  match skipTrivia cs with
  | none => none
  | some ('\x7d' :: rest) => some (items, rest)
  | some start => match readInlineEntry item start with
    | none => none
    | some ((path, v), after) => match insertPath v true path items with
      | none => none
      | some items => match skipTrivia after with
        | some ('\x7d' :: rest) => some (items, rest)
        | some (',' :: rest) =>
          if rest.length < cs.length then readInlineEntries item items rest else none
        | _ => none
termination_by cs.length

/-- Reads a value with at most `depth` arrays and inline tables inside each other. -/
def readValue : (depth : Nat) → Reader Value
  | 0 => fun cs => match cs with
    | '"' :: _ => (readQuoted cs).map fun (s, rest) => (.string s, rest)
    | '\x27' :: _ => (readQuoted cs).map fun (s, rest) => (.string s, rest)
    | _ => readScalar cs
  | depth + 1 => fun cs => match cs with
    | '[' :: rest => (readItems (readValue depth) rest).map fun (vs, rest) => (.array vs, rest)
    | '\x7b' :: rest =>
      (readInlineEntries (readValue depth) [] rest).map fun (items, rest) =>
        (.table (entriesValue items), rest)
    | _ => readValue 0 cs

end GrammarText.Toml
