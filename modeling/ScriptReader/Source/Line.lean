/- # ScriptReader.Source.Line — the line of an offset

A text is cut into lines, each with the line feed that ends it. `lineAt?` finds
the line of a byte offset, its number from one, and how many bytes of the line
lie before the offset. The end of the text belongs to the part behind the last
line feed, which may be empty.
-/
import ScriptReader.Text.Bytes
import ScriptReader.Text.Blank

namespace ScriptReader.Source

set_option autoImplicit false

/-- The lines of a text, each with the line feed that ends it. -/
def lines : List Char → List (List Char)
  | [] => []
  | c :: rest =>
    if c = '\n' then [c] :: lines rest
    else
      match lines rest with
      | [] => [[c]]
      | line :: more => (c :: line) :: more

/-- A line by number and text, and the bytes of it in front of a spot. -/
structure Spot where
  line : Nat
  text : List Char
  column : Nat
  deriving DecidableEq, Repr

/-- Whether a character ends a line or belongs to what ends it. -/
def isLineEnd (c : Char) : Bool := c = '\n' || c = '\r'

/-- The spot of an offset inside one of the lines, of which the first has number `line`. -/
def spotIn? (line offset : Nat) : List (List Char) → Option Spot
  | [] => none
  | text :: rest =>
    if offset < Text.byteSize text then some ⟨line, Text.trimEnd isLineEnd text, offset⟩
    else spotIn? (line + 1) (offset - Text.byteSize text) rest

/-- The text behind the last line feed. -/
def lastLine (source : List Char) : List Char :=
  (source.reverse.takeWhile (· ≠ '\n')).reverse

/-- The spot of the end of a text. -/
def endSpot (source : List Char) : Spot :=
  ⟨Text.lineFeeds source + 1, lastLine source, Text.byteSize (lastLine source)⟩

/-- The spot of a byte offset, if the text is that long. -/
def lineAt? (source : List Char) (offset : Nat) : Option Spot :=
  if Text.byteSize source < offset then none
  else some ((spotIn? 1 offset (lines source)).getD (endSpot source))

end ScriptReader.Source
