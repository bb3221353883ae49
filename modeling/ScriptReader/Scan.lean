/- # ScriptReader.Scan — from text to tokens

The scanner stands at a point of the text: a byte offset, a line, and the text
that is left. Lines are counted in 32 bits, so behind the line of the greatest number
they go on from zero. A step takes the first piece that a rule recognises there and
moves on by what the rule moves on by, or refuses the text at that point. `tokenize`
steps to the end and closes the stream; `step_rest_lt` is why that ends.
-/
import ScriptReader.Lexeme
import ScriptReader.Text.Bytes

namespace ScriptReader

set_option autoImplicit false

namespace Scan

/-- Where the scanner stands. -/
structure Point where
  offset : Nat
  line : UInt32
  rest : List Char
  deriving DecidableEq, Repr

namespace Point

def start (source : List Char) : Point := ⟨0, 1, source⟩

def place (point : Point) : Place := .source point.offset point.line.toNat

/-- The point so many bytes and lines further on. From inside a character nothing can be read. -/
def move (bytes : Nat) (lines : UInt32) (point : Point) : Point where
  offset := point.offset + bytes
  line := point.line + lines
  rest := (Text.afterBytes? bytes point.rest).getD []

/-- The point to which a rule moves on from here, over the piece that it took. -/
def past (point : Point) (rule : Lexeme.Rule) (lexeme : List Char) : Point :=
  point.move (rule.bytes lexeme) (rule.lines lexeme)

theorem past_rest {point : Point} {rule : Lexeme.Rule} {lexeme rest : List Char}
    (taken : rule.lexeme? point.rest = some lexeme) (whole : point.rest = lexeme ++ rest) :
    (point.past rule lexeme).rest = rest := by
  rw [past, move, Lexeme.Rule.bytes_eq taken, whole, Text.afterBytes?_append]
  rfl

theorem past_rest_lt {point : Point} {rule : Lexeme.Rule} {lexeme : List Char}
    (taken : rule.lexeme? point.rest = some lexeme) :
    (point.past rule lexeme).rest.length < point.rest.length := by
  obtain ⟨⟨rest, whole⟩, nonempty⟩ := Lexeme.Rule.lexeme?_isPrefix taken
  have positive := List.length_pos_iff.mpr nonempty
  rw [past_rest taken whole.symm, ← whole, List.length_append]
  omega

end Point

/-- Take one piece: the token it stands for, if any, and the point behind it. -/
def step (point : Point) : Except Diagnostic (Option Token × Point) :=
  match Lexeme.first? point.rest with
  | none => .error ⟨.unrecognised (String.ofList (point.rest.take 1)), point.place⟩
  | some (rule, lexeme) =>
    let next := point.past rule lexeme
    match rule.token? lexeme next.rest with
    | .error cause => .error ⟨cause, point.place⟩
    | .ok token => .ok (token, next)

theorem step_rest_lt {point next : Point} {token : Option Token}
    (stepped : step point = .ok (token, next)) : next.rest.length < point.rest.length := by
  unfold step at stepped
  split at stepped
  · cases stepped
  · rename_i rule lexeme taken
    dsimp only at stepped
    split at stepped
    · cases stepped
    · cases stepped
      exact Point.past_rest_lt (Lexeme.lexeme?_of_first? taken)

/-- The tokens of a text, with the one that closes the stream, and the last line. -/
structure Scanned where
  tokens : List Token
  lines : UInt32
  deriving DecidableEq, Repr

/-- Step from a point to the end of the text. -/
def scanFrom (point : Point) : Except Diagnostic Scanned :=
  if point.rest = [] then .ok ⟨[.endOfInput], point.line⟩
  else
    match stepped : step point with
    | .error diagnostic => .error diagnostic
    | .ok (token, next) =>
      have := step_rest_lt stepped
      match scanFrom next with
      | .error diagnostic => .error diagnostic
      | .ok scanned => .ok ⟨token.toList ++ scanned.tokens, scanned.lines⟩
termination_by point.rest.length

end Scan

/-- Cut a text into tokens and count its lines. -/
def scan (source : String) : Except Diagnostic Scan.Scanned :=
  Scan.scanFrom (.start source.toList)

/-- The tokens of a text; the last one is the end of input. -/
def tokenize (source : String) : Except Diagnostic (List Token) :=
  (scan source).map Scan.Scanned.tokens

end ScriptReader
