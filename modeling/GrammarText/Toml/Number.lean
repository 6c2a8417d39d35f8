import GrammarText.Decimal.Binary
import GrammarText.Toml.Value
import GrammarText.Text.Blank
import GrammarText.Text.Escape

/-!
Numbers of TOML.

An underscore may stand between two digits. A decimal number has no superfluous zero at its front;
an unsigned integer may be in base 16, 8 or 2 behind `0x`, `0o` or `0b`. A float has a fraction, an
exponent or both, or it is `inf` or `nan`.

Three forms are numbers without a value (`Value.badNumber`): a float beyond the largest number, a
base without digits behind it, and a decimal integer in groups that hold other characters
(`isRagged`).
-/

namespace GrammarText.Toml

/-- The digits of a group of them, without the underscores between two. -/
def ungroup? (isDigit : Char → Bool) : List Char → Option (List Char)
  | [] => none
  | [c] => if isDigit c then some [c] else none
  | c :: '_' :: rest => if isDigit c then (ungroup? isDigit rest).map (c :: ·) else none
  | c :: rest => if isDigit c then (ungroup? isDigit rest).map (c :: ·) else none

/-- The digits of a decimal number before its point. -/
def wholeDigits? (cs : List Char) : Option (List Char) :=
  match ungroup? Char.isDigit cs with
  | some ['0'] => some ['0']
  | some ('0' :: _) => none
  | digits => digits

/-- The number written by digits in a base up to 16. -/
def baseVal (base : Nat) (digits : List Char) : Nat :=
  digits.foldl (fun n c => base * n + (Text.hexVal? c).getD 0) 0

/-- Reads the digits behind the mark of a base up to 16. -/
def baseInteger? (base : Nat) (cs : List Char) : Option Value :=
  if cs.isEmpty then some .badNumber
  else (ungroup? (fun c => (Text.hexVal? c).any (· < base)) cs).map fun digits =>
    .integer (baseVal base digits)

/-- Splits off a sign. -/
def splitSign : List Char → Option Bool × List Char
  | '+' :: rest => (some false, rest)
  | '-' :: rest => (some true, rest)
  | cs => (none, cs)

/-- The digits of an exponent, with their sign; an absent exponent is zero. -/
def exponent? : List Char → Option Int
  | [] => some 0
  | _ :: rest =>
    let (sign, digits) := splitSign rest
    (ungroup? Char.isDigit digits).map fun digits =>
      if sign = some true then -(digitsVal digits : Int) else digitsVal digits

/-- The digits of a fraction; an absent fraction has none. -/
def fraction? : List Char → Option (List Char)
  | [] => some []
  | _ :: rest => ungroup? Char.isDigit rest

def isExponentMark (c : Char) : Bool := c == 'e' || c == 'E'

/-- The float nearest to a decimal number. -/
def floatOf (negative : Bool) (mantissa : Nat) (exponent : Int) : Value :=
  if Decimal.nearestDecimal mantissa exponent = Decimal.infinityBits then .badNumber
  else .float (Decimal.ofDecimal negative mantissa exponent)

/-- Reads a number without its sign as a float. -/
def unsignedFloat? (negative : Bool) (cs : List Char) : Option Value :=
  if cs = ['i', 'n', 'f'] then
    let sign := if negative then Decimal.twoPow 63 else 0
    some (.float (Float.ofBits (Decimal.infinityBits + sign).toUInt64))
  else if cs = ['n', 'a', 'n'] then some (.float (0.0 / 0.0))
  else
    let mantissa := cs.takeWhile (!isExponentMark ·)
    let whole := mantissa.takeWhile (· ≠ '.')
    match wholeDigits? whole, fraction? (mantissa.drop whole.length),
        exponent? (cs.drop mantissa.length) with
    | some whole, some fraction, some exponent =>
      some (floatOf negative (digitsVal (whole ++ fraction)) (exponent - fraction.length))
    | _, _, _ => none

def isHexDigit (c : Char) : Bool := (Text.hexVal? c).isSome

/-- Whether a text is a decimal integer without a sign but for what stands in its groups: the first
group holds digits and begins with no zero, and next to an underscore there are only digits, which
may be those of base 16 after the first group. A point or the mark of an exponent stands nowhere. -/
def isRagged (cs : List Char) : Bool :=
  match Text.cut (· == '_') cs with
  | [] => false
  | first :: groups =>
    !first.isEmpty && first.all Char.isDigit && first.head? != some '0'
      && groups.all (fun group => group.head?.any isHexDigit)
      && groups.dropLast.all (fun group => group.getLast?.any isHexDigit)
      && cs.all fun c => c != '.' && !isExponentMark c

def number? (cs : List Char) : Option Value :=
  match cs with
  | '0' :: 'x' :: digits => baseInteger? 16 digits
  | '0' :: 'o' :: digits => baseInteger? 8 digits
  | '0' :: 'b' :: digits => baseInteger? 2 digits
  | cs =>
    let (sign, unsigned) := splitSign cs
    let negative := sign == some true
    match wholeDigits? unsigned with
    | some digits =>
      some (.integer (if negative then -(digitsVal digits : Int) else digitsVal digits))
    | none => match unsignedFloat? negative unsigned with
      | some v => some v
      | none => if isRagged unsigned then some .badNumber else none

end GrammarText.Toml
