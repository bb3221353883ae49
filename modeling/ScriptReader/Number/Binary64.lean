/- # ScriptReader.Number.Binary64 — double precision numbers, exactly

A number is not a number, infinite, or `significand * 2 ^ exponent` with a
sign. `Binary64.nearest` rounds a quotient of naturals to the nearest number,
a tie to the even significand; it yields one representation per number, with
`2 ^ 52 ≤ significand < 2 ^ 53` except at the least exponent, where the
significand may be smaller. All arithmetic is on naturals and integers, so
nothing here depends on the machine's own floating point.
-/
namespace ScriptReader

set_option autoImplicit false

/-- A double precision number. -/
inductive Binary64 where
  | nan
  | infinite (negative : Bool)
  | finite (negative : Bool) (significand : Nat) (exponent : Int)
  deriving DecidableEq, Repr, Inhabited

namespace Binary64

/-- The exponent at which significands may be short, and zero is written. -/
def leastExponent : Int := -1074

/-- The exponent of the largest finite numbers. -/
def greatestExponent : Int := 971

/-- `2 ^ 52`, the least significand of full length. -/
def hiddenBit : Nat := 0x10000000000000

def zero (negative : Bool) : Binary64 := .finite negative 0 leastExponent

/-! ## Rounding a quotient -/

/-- Numerator and denominator of `numerator / denominator / 2 ^ exponent`. -/
def descale (numerator denominator : Nat) (exponent : Int) : Nat × Nat :=
  (numerator * Nat.pow 2 (-exponent).toNat, denominator * Nat.pow 2 exponent.toNat)

/-- The greatest `e` with `2 ^ e ≤ numerator / denominator`, for positive arguments. The
difference of the bit lengths is that exponent or one more. -/
def magnitude (numerator denominator : Nat) : Int :=
  let guess : Int := (numerator.log2 : Int) - denominator.log2
  let quotient := descale numerator denominator guess
  if quotient.2 ≤ quotient.1 then guess else guess - 1

/-- The natural nearest to `numerator / denominator`; a tie goes to the even one. -/
def nearestNat (numerator denominator : Nat) : Nat :=
  let quotient := numerator / denominator
  let excess := 2 * (numerator % denominator)
  if denominator < excess ∨ (denominator = excess ∧ quotient % 2 = 1) then quotient + 1
  else quotient

/-- The number nearest to `numerator / denominator`, with the given sign. -/
def nearest (negative : Bool) (numerator denominator : Nat) : Binary64 :=
  if numerator = 0 then zero negative
  else
    let exponent := max leastExponent (magnitude numerator denominator - 52)
    let quotient := descale numerator denominator exponent
    let significand := nearestNat quotient.1 quotient.2
    let carried := significand = hiddenBit * 2
    let exponent := if carried then exponent + 1 else exponent
    if greatestExponent < exponent then .infinite negative
    else .finite negative (if carried then hiddenBit else significand) exponent

/-- The number nearest to `digits * 10 ^ scale`. The first two cases settle the values far
outside the range without building the power of ten. -/
def ofDecimal (negative : Bool) (digits : Nat) (scale : Int) : Binary64 :=
  if digits = 0 ∨ scale + digits.log2 < -400 then zero negative
  else if 400 < scale then .infinite negative
  else nearest negative (digits * Nat.pow 10 scale.toNat) (Nat.pow 10 (-scale).toNat)

/-! ## Views -/

def negative : Binary64 → Bool
  | .nan => false
  | .infinite negative => negative
  | .finite negative _ _ => negative

/-- The interchange encoding, for all numbers but `nan`: sign, eleven bits of biased
exponent, 52 bits of significand. -/
def encoding (x : Binary64) : Nat :=
  (if x.negative then 0x8000000000000000 else 0) +
    match x with
    | .nan => 0x7ff8000000000000
    | .infinite _ => 0x7ff0000000000000
    | .finite _ significand exponent =>
      if significand < hiddenBit then significand
      else (exponent - leastExponent + 1).toNat * hiddenBit + (significand - hiddenBit)

/-- Numeric equality: `nan` differs from everything, and zero has no sign. -/
def equal : Binary64 → Binary64 → Bool
  | .nan, _ => false
  | _, .nan => false
  | .infinite negative, .infinite negative' => negative == negative'
  | .finite negative significand exponent, .finite negative' significand' exponent' =>
    significand == significand' &&
      (significand == 0 || (negative == negative' && exponent == exponent'))
  | _, _ => false

end Binary64

end ScriptReader
