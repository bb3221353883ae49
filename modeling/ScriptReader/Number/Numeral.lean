/- # ScriptReader.Number.Numeral — the texts that stand for numbers

A numeral is an optional sign followed by a name of infinity, by `nan`, or by
decimal digits with an optional point and an optional power of ten. At least
one digit stands beside the point. `Binary64.ofNumeral?` gives the nearest
number, and nothing for any other text.
-/
import ScriptReader.Number.Binary64

namespace ScriptReader

set_option autoImplicit false

namespace Numeral

def digitValue (c : Char) : Nat := c.toNat - '0'.toNat

/-- The natural that a row of digits writes in base ten. -/
def natural (digits : List Char) : Nat :=
  digits.foldl (fun value c => 10 * value + digitValue c) 0

/-- The sign in front of a text, if one is written, and what follows it. -/
def splitSign : List Char → Bool × List Char
  | '-' :: rest => (true, rest)
  | '+' :: rest => (false, rest)
  | rest => (false, rest)

/-- The power of ten that `rest` writes; an empty text writes the zeroth. -/
def exponent? : List Char → Option Int
  | [] => some 0
  | c :: rest =>
    if c = 'e' ∨ c = 'E' then
      let (negative, digits) := splitSign rest
      if digits ≠ [] ∧ digits.all Char.isDigit then
        some (if negative then -(natural digits : Int) else natural digits)
      else none
    else none

/-- The digits after the point, if there is one, and what follows them. -/
def splitFraction : List Char → List Char × List Char
  | '.' :: rest => rest.span Char.isDigit
  | rest => ([], rest)

/-- Digits and scale of an unsigned decimal numeral: it stands for `digits * 10 ^ scale`. -/
def decimal? (text : List Char) : Option (Nat × Int) :=
  let (whole, rest) := text.span Char.isDigit
  let (fraction, rest) := splitFraction rest
  if whole ++ fraction = [] then none
  else (exponent? rest).map fun exponent =>
    (natural (whole ++ fraction), exponent - fraction.length)

/-- The number that a text stands for. -/
def value? (text : List Char) : Option Binary64 :=
  let (negative, rest) := splitSign text
  let word := String.ofList (rest.map Char.toLower)
  if word = "inf" ∨ word = "infinity" then some (.infinite negative)
  else if word = "nan" then some .nan
  else (decimal? rest).map fun (digits, scale) => .ofDecimal negative digits scale

end Numeral

/-- The number that a numeral stands for; `none` for a text that is no numeral. -/
def Binary64.ofNumeral? (text : String) : Option Binary64 := Numeral.value? text.toList

end ScriptReader
