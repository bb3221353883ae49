/- # ScriptReader.Source.Cursor — a free cursor over a text

A cursor is moved by any number of bytes and collects tokens. It may stand past
the end of the text or inside a character; reading from there has no answer, and
the cursor can still be moved on. Its offset is a word of 64 bits: a move past
the greatest one goes on from zero, so a great number of bytes moves it back.
Moving it never changes its line.
-/
import ScriptReader.Diagnostic
import ScriptReader.Text.Bytes

namespace ScriptReader.Source

set_option autoImplicit false

/-- A place in a text, and the tokens collected on the way. -/
structure Cursor where
  source : List Char
  offset : UInt64
  line : UInt32
  tokens : List Token

namespace Cursor

def start (source : String) : Cursor := ⟨source.toList, 0, 1, []⟩

/-- The cursor `bytes` further on, modulo `2 ^ 64`. -/
def advance (cursor : Cursor) (bytes : UInt64) : Cursor :=
  { cursor with offset := cursor.offset + bytes }

def push (cursor : Cursor) (token : Token) : Cursor :=
  { cursor with tokens := cursor.tokens ++ [token] }

def place (cursor : Cursor) : Place := .source cursor.offset.toNat cursor.line.toNat

def atEnd (cursor : Cursor) : Bool := Text.byteSize cursor.source ≤ cursor.offset.toNat

/-- The text from the cursor on, where the cursor stands between characters. -/
def remainder? (cursor : Cursor) : Option (List Char) :=
  Text.afterBytes? cursor.offset.toNat cursor.source

end Cursor

end ScriptReader.Source
