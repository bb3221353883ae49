/- # ScriptReader.Diagnostic — why a script is refused, and where

A diagnostic is a cause and a place. Splitting a text into tokens fails at an
offset of the text, on a line; reading the tokens fails at the index of a token.
The cause decides the wording: its name, its message, and for some causes a tip
about what to write instead.
-/
import ScriptReader.Token
import ScriptReader.Form
import ScriptReader.Text.Quoted

namespace ScriptReader

set_option autoImplicit false

/-- Where something went wrong: a byte offset and its line, or the index of a token. -/
inductive Place where
  | source (offset line : Nat)
  | token (index : Nat)
  deriving DecidableEq, Repr, Inhabited

/-- What went wrong. -/
inductive Cause where
  | unrecognised (text : String)
  | unterminatedText
  | malformedNumber (text : String)
  | unexpected (expected found : TokenKind)
  | expectedExpression (found : TokenKind)
  | expectedType (found : TokenKind)
  | missingInfixRule (kind : TokenKind)
  | missingTypeOrValue (name : String)
  | missingValue (name : String)
  | expectedCall (found : String)
  | unreadableNumber (text : String)
  deriving DecidableEq, Repr, Inhabited

/-- The two stages that can refuse a script. -/
inductive Stage where
  | scanning
  | parsing
  deriving DecidableEq, Repr, Inhabited

/-- Why a script is refused, and where. -/
structure Diagnostic where
  cause : Cause
  place : Place
  deriving DecidableEq, Repr, Inhabited

def Stage.name : Stage → String
  | .scanning => "LexError"
  | .parsing => "ParseError"

def Place.toText : Place → String
  | .source _ line => "line " ++ toString line
  | .token index => "token " ++ toString index

namespace Cause

def stage : Cause → Stage
  | .unrecognised _ | .unterminatedText | .malformedNumber _ => .scanning
  | _ => .parsing

def name : Cause → String
  | .unrecognised _ => "UnrecognisedToken"
  | .unterminatedText => "UnterminatedString"
  | .malformedNumber _ => "MalformedNumber"
  | .unexpected _ _ => "UnexpectedToken"
  | .expectedExpression _ => "ExpectedExpression"
  | .expectedType _ => "ExpectedType"
  | .missingInfixRule _ => "MissingInfixHandler"
  | .missingTypeOrValue _ => "MissingTypeOrInitializer"
  | .missingValue _ => "MissingInitializer"
  | .expectedCall _ => "ExpectedCallAfterNew"
  | .unreadableNumber _ => "NumberParseError"

def message : Cause → String
  | .unrecognised text => "unrecognised token: " ++ Text.quoted text
  | .unterminatedText => "unterminated string"
  | .malformedNumber text => "malformed number: " ++ Text.quoted text
  | .unexpected expected found => "expected " ++ expected.name ++ ", found " ++ found.name
  | .expectedExpression found => "expected expression, found " ++ found.name
  | .expectedType found => "expected type, found " ++ found.name
  | .missingInfixRule kind => "no infix handler registered for " ++ kind.name
  | .missingTypeOrValue name => "missing type or initializer for " ++ Text.quoted name
  | .missingValue name => "missing initializer for constant " ++ Text.quoted name
  | .expectedCall found => "expected call expression after new, found " ++ found
  | .unreadableNumber text => "error parsing number: " ++ Text.quoted text

/-- What to write instead, where there is something to suggest. -/
def tip? : Cause → Option String
  | .unexpected .semicolon found =>
    some ("Unexpected token: `" ++ found.name ++ "`, did you miss a semicolon?")
  | .unterminatedText => some "Add a closing `\"` to the string literal"
  | .malformedNumber text =>
    some ("Invalid number: `" ++ text ++ "`, identifiers cannot start with a digit")
  | .missingTypeOrValue name =>
    some ("Give `" ++ name ++ "` an explicit type (`: type`) or an initial value (`= value`)")
  | .missingValue name =>
    some ("Constant `" ++ name ++ "` must be given a value when it is declared")
  | .missingInfixRule _ =>
    some ("A binding power is registered without an infix handler; " ++
      "this is a bug in the parser tables")
  | _ => none

def form : Cause → Form
  | .unrecognised text => .record "UnrecognisedToken" [("token", .text text)]
  | .unterminatedText => .word "UnterminatedString"
  | .malformedNumber text => .record "MalformedNumber" [("token", .text text)]
  | .unexpected expected found =>
    .record "UnexpectedToken" [("expected", .word expected.name), ("found", .word found.name)]
  | .expectedExpression found => .record "ExpectedExpression" [("found", .word found.name)]
  | .expectedType found => .record "ExpectedType" [("found", .word found.name)]
  | .missingInfixRule kind => .record "MissingInfixHandler" [("kind", .word kind.name)]
  | .missingTypeOrValue name => .record "MissingTypeOrInitializer" [("identifier", .text name)]
  | .missingValue name => .record "MissingInitializer" [("identifier", .text name)]
  | .expectedCall found => .record "ExpectedCallAfterNew" [("found", .text found)]
  | .unreadableNumber text => .record "NumberParseError" [("token", .text text)]

end Cause

def Place.form : Place → Form
  | .source offset line =>
    .record "Source" [("offset", .word (toString offset)), ("line", .word (toString line))]
  | .token index => .around "Token" (.word (toString index))

namespace Diagnostic

/-- The line of the script, where the place knows it. -/
def line? (diagnostic : Diagnostic) : Option Nat :=
  match diagnostic.place with
  | .source _ line => some line
  | .token _ => none

/-- The diagnostic in one line. -/
def toText (diagnostic : Diagnostic) : String :=
  diagnostic.cause.stage.name ++ " at " ++ diagnostic.place.toText ++ ": " ++
    diagnostic.cause.message

/-- What the first line of a report says about the cause: the tip, or else the message. -/
def summary (diagnostic : Diagnostic) : String :=
  diagnostic.cause.tip?.getD diagnostic.cause.message

def form (diagnostic : Diagnostic) : Form :=
  .record "Error"
    [("internal_error", diagnostic.cause.form), ("position", diagnostic.place.form)]

end Diagnostic

end ScriptReader
