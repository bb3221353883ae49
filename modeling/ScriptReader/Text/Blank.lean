/- # ScriptReader.Text.Blank — white space between words

Blank characters are those with the property White_Space. They separate words,
and they are what is trimmed from the end of a line that is shown.
-/
namespace ScriptReader

set_option autoImplicit false

namespace Text

/-- The code points with the property White_Space, as runs of first and last. -/
def blankRuns : List (Nat × Nat) :=
  [(0x9, 0xd), (0x20, 0x20), (0x85, 0x85), (0xa0, 0xa0), (0x1680, 0x1680), (0x2000, 0x200a),
   (0x2028, 0x2029), (0x202f, 0x202f), (0x205f, 0x205f), (0x3000, 0x3000)]

/-- Whether a code point lies in one of the runs. -/
def within (runs : List (Nat × Nat)) (point : Nat) : Bool :=
  runs.any fun run => run.1 ≤ point && point ≤ run.2

/-- Whether a character is white space. -/
def isBlank (c : Char) : Bool := within blankRuns c.toNat

/-- `text` without the longest suffix whose characters all satisfy `drop`. -/
def trimEnd (drop : Char → Bool) (text : List Char) : List Char :=
  (text.reverse.dropWhile drop).reverse

end Text

end ScriptReader
