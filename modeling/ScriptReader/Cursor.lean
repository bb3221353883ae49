/- # ScriptReader.Cursor — a place in a stream of tokens

A cursor stands on a token of a stream that ends with the end of input. Moving on
from the last token stays there, so there always is a current token, and the
cursor never leaves the stream. An outcome is what comes of reading from a cursor:
a value or a refusal, each with the cursor that it leaves, or no answer at all for
want of levels.
-/
import ScriptReader.Diagnostic

namespace ScriptReader

set_option autoImplicit false

/-- A place in a token stream: the current token, its index, and the tokens behind it. -/
structure Cursor where
  index : Nat
  current : Token
  rest : List Token
  deriving DecidableEq, Repr

namespace Cursor

/-- A stream as it is read: the end of input is added where the last token is not one. -/
def closeStream (tokens : List Token) : List Token :=
  if tokens.getLast?.map Token.kind = some .endOfInput then tokens
  else tokens ++ [.endOfInput]

/-- The cursor on the first token of a stream. -/
def start (tokens : List Token) : Cursor :=
  match closeStream tokens with
  | [] => ⟨0, .endOfInput, []⟩
  | first :: rest => ⟨0, first, rest⟩

/-- The cursor on the next token; the last token is never left. -/
def next (cursor : Cursor) : Cursor :=
  match cursor.rest with
  | [] => cursor
  | token :: rest => ⟨cursor.index + 1, token, rest⟩

/-- The kind of the current token. -/
abbrev kind (cursor : Cursor) : TokenKind := cursor.current.kind

/-- Whether there is something left to read. -/
def hasMore (cursor : Cursor) : Bool := cursor.kind ≠ .endOfInput

/-- Levels of nesting that are enough from here on. -/
def budget (cursor : Cursor) : Nat := 8 * (cursor.rest.length + 2)

end Cursor

/-- What comes of carrying a recipe out. A refusal leaves the cursor where it was raised. -/
inductive Outcome (α : Type) where
  | accepted (value : α) (cursor : Cursor)
  | refused (diagnostic : Diagnostic) (cursor : Cursor)
  | exhausted
  deriving Repr

/-- The outcome with its value, if there is one, turned into another. -/
def Outcome.map {α β : Type} (change : α → β) : Outcome α → Outcome β
  | .accepted value cursor => .accepted (change value) cursor
  | .refused diagnostic cursor => .refused diagnostic cursor
  | .exhausted => .exhausted

/-- The current token, which has to be of the given kind. If it is not, the refusal is the
given one or the usual one, and the cursor stays. -/
def Cursor.expect (cursor : Cursor) (expected : TokenKind) (instead : Option Diagnostic) :
    Outcome Token :=
  if cursor.kind = expected then .accepted cursor.current cursor.next
  else
    .refused (instead.getD ⟨.unexpected expected cursor.kind, .token cursor.index⟩) cursor

end ScriptReader
