import GrammarText.Decimal.Binary

/-!
The shortest decimal that reads back as a binary number.

Every real number between two middles rounds to the number between them; the middles themselves do
if the mantissa is even. Of the decimals with the fewest digits in that interval, `shortest` picks
the one next to the number, and of two equally near the larger.

- `shortest`: the digits of a positive number.
- `Layout`: how digits are laid out as text; `Layout.text` writes a number with a layout.
-/

namespace GrammarText.Decimal

/-- The number of decimal digits of `n`. -/
def digitCount (n : Nat) : Nat := (Nat.toDigits 10 n).length

/-- The exponent `k` with `10 ^ (k - 1) ≤ num / den < 10 ^ k`. -/
def decimalExponent (num den : Nat) : Int :=
  if den ≤ num then digitCount (num / den)
  else 1 - (digitCount ((den + num - 1) / num - 1) : Int)

/-- A positive number and the ends of the interval of reals that round to it, over one
denominator. -/
structure Rounding where
  value : Nat
  low : Nat
  high : Nat
  den : Nat
  /-- Whether the ends round to the number as well. -/
  closed : Bool

/-- The interval of `mantissa * 2 ^ exponent`, in quarters of the last place. Below a power of two
the numbers stand twice as close. -/
def Rounding.of (mantissa : Nat) (exponent : Int) : Rounding :=
  let below := if mantissa = twoPow 52 ∧ -1074 < exponent then 1 else 2
  let scale := twoPow (exponent - 2).toNat
  { value := 4 * mantissa * scale
    low := (4 * mantissa - below) * scale
    high := (4 * mantissa + 2) * scale
    den := twoPow (2 - exponent).toNat
    closed := mantissa % 2 = 0 }

/-- The sign of `count * 10 ^ unit - num / den`. -/
def compareUnits (count : Nat) (unit : Int) (num den : Nat) : Ordering :=
  compare (count * tenPow unit.toNat * den) (num * tenPow (-unit).toNat)

/-- The point of the grid `10 ^ unit` that stands for the number, if one of its two neighbours on
the grid rounds to it. -/
def Rounding.onGrid? (r : Rounding) (unit : Int) : Option Nat :=
  let floor := r.value * tenPow (-unit).toNat / (r.den * tenPow unit.toNat)
  let lowSide := compareUnits floor unit r.low r.den
  let highSide := compareUnits (floor + 1) unit r.high r.den
  let down := lowSide == .gt || (lowSide == .eq && r.closed)
  let up := highSide == .lt || (highSide == .eq && r.closed)
  let nearerUp := compareUnits (2 * floor + 1) unit (2 * r.value) r.den != .gt
  if up && (!down || nearerUp) then some (floor + 1) else if down then some floor else none

/-- Tries the grids with `digits`, `digits + 1`, … digits, `tries` of them. -/
def Rounding.search (r : Rounding) (top : Int) : (digits tries : Nat) → Nat × Int
  | digits, 0 => ((r.onGrid? (top - digits)).getD 0, top - digits)
  | digits, tries + 1 => match r.onGrid? (top - digits) with
    | some count => (count, top - digits)
    | none => r.search top (digits + 1) tries

/-- The shortest decimal `count * 10 ^ unit` that reads back as the positive number
`mantissa * 2 ^ exponent`. Seventeen digits always suffice. -/
def shortest (mantissa : Nat) (exponent : Int) : Nat × Int :=
  let r := Rounding.of mantissa exponent
  r.search (decimalExponent r.value r.den) 1 16

/-- How the digits of a number are laid out. -/
structure Layout where
  /-- The least and the greatest number of places before the point of a positional text. -/
  leastPlaces : Int
  mostPlaces : Int
  /-- The mark before the exponent of any other number. -/
  mark : String
  nan : String
  infinity : String

def zeros (n : Nat) : List Char := List.replicate n '0'

/-- Digits with a point after `places` of them, and at least one digit on each side of it. -/
def positional (digits : List Char) (places : Int) : String :=
  if places ≤ 0 then String.ofList (['0', '.'] ++ zeros (-places).toNat ++ digits)
  else if (digits.length : Int) ≤ places then
    String.ofList (digits ++ zeros (places.toNat - digits.length) ++ ['.', '0'])
  else String.ofList (digits.take places.toNat ++ '.' :: digits.drop places.toNat)

/-- One digit, the others after a point, and the exponent. -/
def scientific (mark : String) (digits : List Char) (places : Int) : String :=
  let others := digits.drop 1
  String.ofList (digits.take 1 ++ if others.isEmpty then [] else '.' :: others)
    ++ mark ++ toString (places - 1)

/-- The text of a number that is not negative. -/
def Layout.magnitude (layout : Layout) (mantissa : Nat) (exponent : Int) : String :=
  if mantissa = 0 then positional ['0'] 1
  else
    let (count, unit) := shortest mantissa exponent
    let written := Nat.toDigits 10 count
    let places := written.length + unit
    let digits := (written.reverse.dropWhile (· == '0')).reverse
    if layout.leastPlaces ≤ places ∧ places ≤ layout.mostPlaces then positional digits places
    else scientific layout.mark digits places

def Layout.text (layout : Layout) (x : Float) : String :=
  match Binary.ofBits x.toBits with
  | .nan => layout.nan
  | .infinite negative => (if negative then "-" else "") ++ layout.infinity
  | .finite negative mantissa exponent =>
    (if negative then "-" else "") ++ layout.magnitude mantissa exponent

end GrammarText.Decimal
