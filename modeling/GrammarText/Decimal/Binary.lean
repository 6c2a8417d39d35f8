/-!
Binary floating-point numbers of 64 bits, as integers times powers of two.

- `Binary.ofBits`: the sign and the kind of a number; a finite one is `mantissa * 2 ^ exponent`.
- `nearest`: the number next to a ratio of naturals. A ratio in the middle between two numbers goes
  to the one with the even mantissa, and one beyond the largest number to infinity.
- `ofDecimal`: the number next to a decimal one.
-/

namespace GrammarText.Decimal

inductive Binary where
  | nan
  | infinite (negative : Bool)
  | finite (negative : Bool) (mantissa : Nat) (exponent : Int)
  deriving DecidableEq, Repr

/-- `2 ^ n`. -/
def twoPow (n : Nat) : Nat := Nat.pow 2 n

/-- `10 ^ n`. -/
def tenPow (n : Nat) : Nat := Nat.pow 10 n

def Binary.ofBits (bits : UInt64) : Binary :=
  let negative := decide (twoPow 63 ≤ bits.toNat)
  let field : Nat := bits.toNat / twoPow 52 % twoPow 11
  let fraction : Nat := bits.toNat % twoPow 52
  if field = 2047 then if fraction = 0 then .infinite negative else .nan
  else if field = 0 then .finite negative fraction (-1074)
  else .finite negative (twoPow 52 + fraction) ((field : Int) - 1075)

/-- The natural number next to `num / den`, an even one when two are equally near. -/
def roundEven (num den : Nat) : Nat :=
  let whole := num / den
  let rest := 2 * (num % den)
  if rest < den ∨ (rest = den ∧ whole % 2 = 0) then whole else whole + 1

/-- The bits of positive infinity. -/
def infinityBits : Nat := 2047 * twoPow 52

/-- `num / (den * 2 ^ exponent)`, to the nearest natural number. -/
def scaledRound (num den : Nat) (exponent : Int) : Nat :=
  if 0 ≤ exponent then roundEven num (den * twoPow exponent.toNat)
  else roundEven (num * twoPow (-exponent).toNat) den

/-- The bits of the number next to `num / den`. The exponent is the one that leaves the mantissa 53
bits, or the least exponent there is; a mantissa that rounds up to 54 bits carries into the field of
the exponent. -/
def nearest (num den : Nat) : Nat :=
  if num = 0 then 0
  else
    let low : Int := max ((num.log2 : Int) - den.log2 - 53) (-1074)
    let wide := scaledRound num den low
    let exponent := if wide < twoPow 53 then low else low + 1
    min infinityBits (scaledRound num den exponent + (exponent + 1074).toNat * twoPow 52)

/-- The bits of the number next to `mantissa * 10 ^ exponent`. Outside the range of all numbers the
power of ten is not computed. -/
def nearestDecimal (mantissa : Nat) (exponent : Int) : Nat :=
  if mantissa = 0 then 0
  else if 1025 ≤ (mantissa.log2 : Int) + 3 * exponent ∧ 0 ≤ exponent then infinityBits
  else if (mantissa.log2 : Int) + 1 + 3 * exponent < -1080 ∧ exponent < 0 then 0
  else if 0 ≤ exponent then nearest (mantissa * tenPow exponent.toNat) 1
  else nearest mantissa (tenPow (-exponent).toNat)

/-- The number next to `mantissa * 10 ^ exponent`, with the given sign. -/
def ofDecimal (negative : Bool) (mantissa : Nat) (exponent : Int) : Float :=
  let magnitude := nearestDecimal mantissa exponent
  Float.ofBits (if negative then magnitude + twoPow 63 else magnitude).toUInt64

end GrammarText.Decimal
