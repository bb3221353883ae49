/- # ScriptReader.Number.Shortest — numbers as decimal text

A number is written with the fewest digits that read back as the same number.
The reals that round to a number form an interval around it, ends included iff
its significand is even; among the decimal grids `10 ^ place`, from coarse to
fine, the first with a point in the interval decides the digits. Of two such
points the nearer is taken, and of two equally near the greater.

From `10 ^ -4` up to `10 ^ 16` the digits stand in their places with at least
one on either side of the point; other magnitudes are written with one digit
before the point and a power of ten.
-/
import ScriptReader.Number.Binary64

namespace ScriptReader

set_option autoImplicit false

namespace Binary64

/-! ## The shortest digits -/

/-- The interval that rounds to `significand * 2 ^ exponent`, in units of a quarter of
`2 ^ exponent`. It is narrower below a power of two, where the next number is nearer. -/
structure Interval where
  low : Nat
  centre : Nat
  high : Nat
  closed : Bool
  exponent : Int

def interval (significand : Nat) (exponent : Int) : Interval where
  low := 4 * significand - if significand = hiddenBit ∧ leastExponent < exponent then 1 else 2
  centre := 4 * significand
  high := 4 * significand + 2
  closed := significand % 2 = 0
  exponent := exponent - 2

namespace Interval

/-- Factors that bring the interval's units and the steps of the grid `10 ^ place` to a
common measure: `low * fst` and `step * snd` are compared as naturals. -/
def measure (range : Interval) (place : Int) : Nat × Nat :=
  (Nat.pow 2 range.exponent.toNat * Nat.pow 10 (-place).toNat,
    Nat.pow 2 (-range.exponent).toNat * Nat.pow 10 place.toNat)

/-- The step of the grid `10 ^ place` inside the interval that is nearest to its centre. -/
def step? (range : Interval) (place : Int) : Option Nat :=
  let (unit, pitch) := range.measure place
  let inside (step : Nat) : Bool :=
    if range.closed then range.low * unit ≤ step * pitch && step * pitch ≤ range.high * unit
    else range.low * unit < step * pitch && step * pitch < range.high * unit
  let below := range.centre * unit / pitch
  let above := below + 1
  if inside below && inside above then
    if range.centre * unit - below * pitch < above * pitch - range.centre * unit then some below
    else some above
  else if inside below then some below
  else if inside above then some above
  else none

/-- The first grid with a step inside the interval, from `place` downwards. -/
def search (range : Interval) : Nat → Int → Nat × Int
  | 0, place => (0, place)
  | fuel + 1, place =>
    match range.step? place with
    | some step => (step, place)
    | none => search range fuel (place - 1)

end Interval

/-- The shortest decimal `digits * 10 ^ place` that reads back as a positive number. The
search starts at or above the number's own magnitude, and seventeen digits always suffice,
so twenty-four grids are enough. -/
def shortest (significand : Nat) (exponent : Int) : Nat × Int :=
  (interval significand exponent).search 24
    (((significand.log2 : Int) + exponent + 1) * 30103 / 100000 + 1)

/-! ## Layout -/

/-- Digits in their places: `digits * 10 ^ place` with digits on both sides of the point. -/
def positional (digits : List Char) (place : Int) : List Char :=
  let whole := (digits.length : Int) + place
  if whole ≤ 0 then ['0', '.'] ++ List.replicate (-whole).toNat '0' ++ digits
  else if 0 ≤ place then digits ++ List.replicate place.toNat '0' ++ ['.', '0']
  else digits.take whole.toNat ++ ['.'] ++ digits.drop whole.toNat

/-- One digit, a point if more follow, and the power of ten. -/
def scientific (digits : List Char) (place : Int) : List Char :=
  let power := (digits.length : Int) + place - 1
  digits.take 1 ++ (if digits.length ≤ 1 then [] else ['.'] ++ digits.drop 1) ++ ['e'] ++
    (toString power).toList

/-- The text of a number. -/
def toText : Binary64 → String
  | .nan => "NaN"
  | .infinite negative => if negative then "-inf" else "inf"
  | .finite negative significand exponent =>
    let (step, place) := shortest significand exponent
    let digits := Nat.toDigits 10 step
    let power := (digits.length : Int) + place - 1
    let body :=
      if significand = 0 then ['0', '.', '0']
      else if -4 ≤ power ∧ power < 16 then positional digits place
      else scientific digits place
    String.ofList (if negative then '-' :: body else body)

end Binary64

end ScriptReader
