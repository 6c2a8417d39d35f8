/-!
Quoted literals of a grammar text.

A literal is written between double quotes in printable ASCII only. A backslash, a quote, a line
feed, a carriage return and a tab have two-character forms; any other character outside
U+0020 to U+007E is written by its code point, in two, four or eight lowercase hexadecimal digits.

- `escape`, `quote`: the written form of a text, without and with its quotes.
- `unescape?`: the text that a written form stands for. It also reads digits of either case and a
  number that begins with a plus sign, and it refuses an unknown escape, a number that is cut
  short and a number that is no character.
-/

namespace GrammarText.Text

/-! ## Hexadecimal numbers -/

/-- The lowercase hexadecimal digit of `d < 16`. -/
def hexChar (d : Nat) : Char := if d < 10 then Char.ofNat (48 + d) else Char.ofNat (87 + d)

/-- The last `width` hexadecimal digits of `n`, the most significant first. -/
def hexDigits : Nat → Nat → List Char
  | 0, _ => []
  | width + 1, n => hexDigits width (n / 16) ++ [hexChar (n % 16)]

/-- The value of a hexadecimal digit, in either case. -/
def hexVal? (c : Char) : Option Nat :=
  if '0' ≤ c ∧ c ≤ '9' then some (c.toNat - 48)
  else if 'a' ≤ c ∧ c ≤ 'f' then some (c.toNat - 87)
  else if 'A' ≤ c ∧ c ≤ 'F' then some (c.toNat - 55)
  else none

/-- Reads digits onto the number `acc` read so far. -/
def readHexOnto? (acc : Nat) : List Char → Option Nat
  | [] => some acc
  | c :: rest => match hexVal? c with
    | some d => readHexOnto? (16 * acc + d) rest
    | none => none

/-- Reads an unsigned number in base 16; one plus sign may stand before its digits. -/
def readHex? : List Char → Option Nat
  | [] => none
  | ['+'] => none
  | '+' :: digits => readHexOnto? 0 digits
  | digits => readHexOnto? 0 digits

/-- The character with code point `n`; there is none for a surrogate or beyond U+10FFFF. -/
def charOfCode? (n : Nat) : Option Char := if n.isValidChar then some (Char.ofNat n) else none

/-! ## Writing -/

/-- The written form of one character. -/
def escapeChar (c : Char) : List Char :=
  if c = '\\' then ['\\', '\\']
  else if c = '"' then ['\\', '"']
  else if c = '\n' then ['\\', 'n']
  else if c = '\r' then ['\\', 'r']
  else if c = '\t' then ['\\', 't']
  else if ' ' ≤ c ∧ c ≤ '~' then [c]
  else if c.toNat ≤ 0xff then '\\' :: 'x' :: hexDigits 2 c.toNat
  else if c.toNat ≤ 0xffff then '\\' :: 'u' :: hexDigits 4 c.toNat
  else '\\' :: 'U' :: hexDigits 8 c.toNat

def escapeChars (cs : List Char) : List Char := cs.flatMap escapeChar

def escape (s : String) : String := String.ofList (escapeChars s.toList)

def quote (s : String) : String := "\"" ++ escape s ++ "\""

/-! ## Reading -/

/-- The character that a two-character escape stands for, by its second character. -/
def shortEscape? (c : Char) : Option Char :=
  if c = '\\' then some '\\'
  else if c = '"' then some '"'
  else if c = 'n' then some '\n'
  else if c = 'r' then some '\r'
  else if c = 't' then some '\t'
  else none

/-- The number of digits after the letter of a numeric escape. -/
def escapeWidth? (c : Char) : Option Nat :=
  if c = 'x' then some 2 else if c = 'u' then some 4 else if c = 'U' then some 8 else none

/-- The character written by the next `width` characters of a numeric escape. -/
def numericEscape? (width : Nat) (cs : List Char) : Option Char :=
  if (cs.take width).length = width then (readHex? (cs.take width)).bind charOfCode? else none

def unescapeChars? : List Char → Option (List Char)
  | [] => some []
  | ['\\'] => none
  | '\\' :: e :: rest => match shortEscape? e with
    | some c => (unescapeChars? rest).map (c :: ·)
    | none => match escapeWidth? e with
      | none => none
      | some width => match numericEscape? width rest with
        | none => none
        | some c => (unescapeChars? (rest.drop width)).map (c :: ·)
  | c :: rest => (unescapeChars? rest).map (c :: ·)
termination_by cs => cs.length

def unescape? (s : String) : Option String := (unescapeChars? s.toList).map String.ofList

end GrammarText.Text
