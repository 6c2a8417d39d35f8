import GrammarText.Toml.Reader

/-!
Dates and times of TOML: a date, a time, both, or both with an offset from universal time.

- `Datetime.read?`: reads one. The date and the time are joined by a `T` in either case or a
  space; the seconds may be missing; of a fraction of a second the first nine digits count.
- `Datetime.written`: its normal form, with a `T`, a capital `Z`, the seconds, and a fraction
  without zeros at its end.
-/

namespace GrammarText.Toml

structure Date where
  year : Nat
  month : Nat
  day : Nat
  deriving DecidableEq, Repr

structure Time where
  hour : Nat
  minute : Nat
  second : Nat
  nanosecond : Nat
  deriving DecidableEq, Repr

inductive Offset where
  | universal
  | minutes (east : Int)
  deriving DecidableEq, Repr

inductive Datetime where
  | date (d : Date)
  | time (t : Time)
  | moment (d : Date) (t : Time) (offset : Option Offset)
  deriving DecidableEq, Repr

/-! ## Reading -/

/-- Reads a number of exactly `count` digits. -/
def readDigits (count : Nat) : Reader Nat := fun cs =>
  let digits := cs.take count
  if digits.length = count ∧ digits.all Char.isDigit then some (digitsVal digits, cs.drop count)
  else none

def isLeapYear (year : Nat) : Bool := year % 4 == 0 && (year % 100 != 0 || year % 400 == 0)

def daysIn (year month : Nat) : Nat :=
  if month = 2 then if isLeapYear year then 29 else 28
  else if month ∈ [4, 6, 9, 11] then 30
  else 31

def readDate : Reader Date := fun cs => do
  let (year, cs) ← readDigits 4 cs
  let (_, cs) ← readChar '-' cs
  let (month, cs) ← readDigits 2 cs
  let (_, cs) ← readChar '-' cs
  let (day, cs) ← readDigits 2 cs
  if 1 ≤ month ∧ month ≤ 12 ∧ 1 ≤ day ∧ day ≤ daysIn year month then
    return (⟨year, month, day⟩, cs)
  else none

/-- Reads the digits after the point of a second, as a number of nanoseconds. -/
def readFraction : Reader Nat := fun cs =>
  let digits := cs.takeWhile Char.isDigit
  if digits.isEmpty then none
  else some (digitsVal ((digits ++ List.replicate 9 '0').take 9), cs.dropWhile Char.isDigit)

/-- Reads seconds and a fraction of them, if they are there. -/
def readSeconds : Reader (Nat × Nat)
  | ':' :: cs => do
    let (second, cs) ← readDigits 2 cs
    match cs with
    | '.' :: cs => do
      let (nanosecond, cs) ← readFraction cs
      return ((second, nanosecond), cs)
    | cs => return ((second, 0), cs)
  | cs => some ((0, 0), cs)

/-- Reads a time; the sixtieth second of a minute may be there. -/
def readTime : Reader Time := fun cs => do
  let (hour, cs) ← readDigits 2 cs
  let (_, cs) ← readChar ':' cs
  let (minute, cs) ← readDigits 2 cs
  let ((second, nanosecond), cs) ← readSeconds cs
  if hour ≤ 23 ∧ minute ≤ 59 ∧ second ≤ 60 then return (⟨hour, minute, second, nanosecond⟩, cs)
  else none

def readOffset : Reader Offset
  | [] => none
  | c :: cs =>
    if c = 'Z' ∨ c = 'z' then some (.universal, cs)
    else if c = '+' ∨ c = '-' then do
      let (hours, cs) ← readDigits 2 cs
      let (_, cs) ← readChar ':' cs
      let (minutes, cs) ← readDigits 2 cs
      if hours ≤ 23 ∧ minutes ≤ 59 then
        let east : Int := 60 * hours + minutes
        return (.minutes (if c = '-' then -east else east), cs)
      else none
    else none

/-- Reads what stands behind a date: nothing, or a time and perhaps an offset. -/
def readAfterDate (d : Date) : List Char → Option Datetime
  | [] => some (.date d)
  | c :: cs =>
    if c = 'T' ∨ c = 't' ∨ c = ' ' then
      match readTime cs with
      | none => none
      | some (t, []) => some (.moment d t none)
      | some (t, cs) => match readOffset cs with
        | some (offset, []) => some (.moment d t (some offset))
        | _ => none
    else none

def Datetime.read? (cs : List Char) : Option Datetime :=
  match readDate cs with
  | some (d, rest) => readAfterDate d rest
  | none => match readTime cs with
    | some (t, []) => some (.time t)
    | _ => none

/-! ## Writing -/

/-- The decimal digits of `n`, with zeros before them up to `width` digits. -/
def padded (width n : Nat) : String :=
  let digits := Nat.toDigits 10 n
  String.ofList (List.replicate (width - digits.length) '0' ++ digits)

def Date.written (d : Date) : String :=
  padded 4 d.year ++ "-" ++ padded 2 d.month ++ "-" ++ padded 2 d.day

/-- The point and digits of a fraction, or nothing if it is zero. -/
def writtenFraction (nanosecond : Nat) : String :=
  if nanosecond = 0 then ""
  else "." ++ String.ofList
    ((padded 9 nanosecond).toList.reverse.dropWhile (· == '0')).reverse

def Time.written (t : Time) : String :=
  padded 2 t.hour ++ ":" ++ padded 2 t.minute ++ ":" ++ padded 2 t.second
    ++ writtenFraction t.nanosecond

def Offset.written : Offset → String
  | .universal => "Z"
  | .minutes east => (if east < 0 then "-" else "+") ++ padded 2 (east.natAbs / 60) ++ ":"
      ++ padded 2 (east.natAbs % 60)

def Datetime.written : Datetime → String
  | .date d => d.written
  | .time t => t.written
  | .moment d t offset => d.written ++ "T" ++ t.written ++ (offset.map Offset.written).getD ""

end GrammarText.Toml
