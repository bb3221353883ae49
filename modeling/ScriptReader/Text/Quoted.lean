/- # ScriptReader.Text.Quoted — text between double quotes

The quoted form of a text stands between double quotes on one line. The quote,
the backslash, NUL, tab, line feed and carriage return have escapes of their
own; a character that has no glyph, that shows as nothing, or that would attach
to the one before it, is written as its code point in hexadecimal; all others
stand for themselves.
-/
import ScriptReader.Text.Blank
import ScriptReader.Text.Unprintable
import ScriptReader.Text.Extending
import ScriptReader.Text.Ignorable

namespace ScriptReader

set_option autoImplicit false

namespace Text

/-- Whether a quoted text shows the character as it is, escapes apart. -/
def showsItself (c : Char) : Bool :=
  if c.toNat < 0x7f then 0x20 ≤ c.toNat
  else
    !within unprintableRuns c.toNat && !within extendingRuns c.toNat &&
      !within ignorableRuns c.toNat

/-- A character as it appears in a quoted text. -/
def escaped (c : Char) : List Char :=
  if c.toNat = 0 then ['\\', '0']
  else if c = '\t' then ['\\', 't']
  else if c = '\r' then ['\\', 'r']
  else if c = '\n' then ['\\', 'n']
  else if c = '"' then ['\\', '"']
  else if c = '\\' then ['\\', '\\']
  else if showsItself c then [c]
  else ['\\', 'u', '\x7b'] ++ Nat.toDigits 16 c.toNat ++ ['\x7d']

/-- The quoted form of a text. -/
def quoted (text : String) : String :=
  String.ofList ('"' :: text.toList.flatMap escaped ++ ['"'])

end Text

end ScriptReader
