/- # ScriptReader.Grammar.Expression — the forms an expression can take

A prefix rule reads an expression from its first token on; an infix rule goes on
from the operand to its left and is told the operator's own power. Binary
operators group to the left, assignments and ranges to the right.
-/
import ScriptReader.Grammar.Recipe
import ScriptReader.Number.Numeral

namespace ScriptReader

set_option autoImplicit false

/-- The ways in which the language reads an expression from a token on. -/
inductive PrefixRule where
  | primary | operation | grouping | array | function | creation
  deriving DecidableEq, Repr

/-- The ways in which an expression of the language goes on at a token. -/
inductive InfixRule where
  | binary | assignment | range | call | member
  deriving DecidableEq, Repr

/-- How an expression goes on, given its left operand and the operator's power. -/
abbrev InfixRecipe := Expr → Power → Recipe Expr

namespace Recipe

/-- A comma, except in front of the closing bracket and at the end of input. -/
def separator (close : TokenKind) : Recipe Unit :=
  .peek fun token =>
    if token.kind = .endOfInput ∨ token.kind = close then .yield ()
    else do
      let _ ← expect .comma
      return ()

/-- The expression that a single token stands for: a number, a text literal or a name. -/
def ofToken (token : Token) : Except Cause Expr :=
  match token.kind with
  | .number =>
    match Binary64.ofNumeral? token.text with
    | some value => .ok (.number value)
    | none => .error (.unreadableNumber token.text)
  | .text => .ok (.text token.text)
  | .identifier => .ok (.symbol token.text)
  | kind => .error (.expectedExpression kind)

def primary : Recipe Expr := tokenAs ofToken

def operation : Recipe Expr := do
  let operator ← take
  let operand ← expression .unary
  return .operation operator operand

def grouping : Recipe Expr := do
  let _ ← expect .openParen
  let content ← expression .lowest
  let _ ← expect .closeParen
  return content

/-- Expressions between two brackets, of which the first is the current token. -/
def enclosed (opening closing : TokenKind) : Recipe (List Expr) := do
  let _ ← expect opening
  let contents ← arguments closing
  let _ ← expect closing
  return contents

def array : Recipe Expr := do
  let elements ← enclosed .openBracket .closeBracket
  return .array elements

/-- Parameters, result type and body of a function. -/
def functionRest : Recipe (Signature × List Statement) := do
  let _ ← expect .openParen
  let parameters ← parameters
  let _ ← expect .closeParen
  let result ← optional .colon (type .lowest)
  let body ← block
  return (⟨parameters, result⟩, body)

def functionLiteral : Recipe Expr := do
  let _ ← expect .fnWord
  let (signature, body) ← functionRest
  return .function signature body

/-- The creation that a call stands for behind `new`. -/
def ofCall : Expr → Except Cause Expr
  | .call callee arguments => .ok (.creation callee arguments)
  | other => .error (.expectedCall other.formName)

def creation : Recipe Expr := do
  let _ ← expect .newWord
  phraseAs (.expression .lowest) ofCall

def binary (left : Expr) (power : Power) : Recipe Expr := do
  let operator ← take
  let right ← expression power
  return .binary left operator right

def assignment (left : Expr) (power : Power) : Recipe Expr := do
  let operator ← take
  let value ← expression power.weaker
  return .assignment left operator value

def range (left : Expr) (power : Power) : Recipe Expr := do
  let _ ← take
  let upper ← expression power.weaker
  return .range left upper

def call (left : Expr) : Recipe Expr := do
  let arguments ← enclosed .openParen .closeParen
  return .call left arguments

/-- A property by name, or an element by index if the operator is an opening bracket. -/
def member (left : Expr) : Recipe Expr := do
  let operator ← take
  if operator.kind = .openBracket then
    let index ← expression .lowest
    let _ ← expect .closeBracket
    return .element left index
  else
    let property ← expectText .identifier
    return .member left property

end Recipe

/-- The recipe of a prefix rule. -/
def PrefixRule.recipe : PrefixRule → Recipe Expr
  | .primary => .primary
  | .operation => .operation
  | .grouping => .grouping
  | .array => .array
  | .function => .functionLiteral
  | .creation => .creation

/-- The recipe of an infix rule. The last two are not told a power. -/
def InfixRule.recipe : InfixRule → InfixRecipe
  | .binary => Recipe.binary
  | .assignment => Recipe.assignment
  | .range => Recipe.range
  | .call => fun left _ => .call left
  | .member => fun left _ => .member left

end ScriptReader
