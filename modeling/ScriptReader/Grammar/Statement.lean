/- # ScriptReader.Grammar.Statement — the forms a statement can take

A statement rule reads one statement from its first token on. Most rules pass
that token without looking at it, since they are chosen by it.
-/
import ScriptReader.Grammar.Expression

namespace ScriptReader

set_option autoImplicit false

/-- The ways in which the language reads a statement from a token on. -/
inductive StatementRule where
  | anyStatement | expression | block | declaration | function | conditional | importing
  | foreach | classDeclaration | returning | loop
  deriving DecidableEq, Repr

namespace Recipe

def expressionStatement : Recipe Statement := do
  let value ← expression .lowest
  let _ ← expect .semicolon
  return .expression value

def blockStatement : Recipe Statement := do
  let body ← block
  return .block body

/-- The value that a declaration gives, read in front of the semicolon. A constant has to
be given one, and so has a variable without a type. -/
def initialValue (constant : Bool) (name : String) (type : Option TypeExpr) :
    Recipe (Option Expr) :=
  .peek fun token =>
    if token.kind = .semicolon then
      if constant then .refuse (.missingValue name)
      else if type = none then .refuse (.missingTypeOrValue name)
      else .yield none
    else do
      let _ ← expect .assignment
      let value ← expression .assignment
      return some value

def declaration : Recipe Statement := do
  let opening ← take
  let constant := decide (opening.kind = .constWord)
  let name ← expectText .identifier
  let type ← optional .colon (type .lowest)
  let value ← initialValue constant name type
  let _ ← expect .semicolon
  return .declaration name constant value type

def functionDeclaration : Recipe Statement := do
  let _ ← take
  let name ← expectText .identifier
  let (signature, body) ← functionRest
  return .function name signature body

/-- What is imported; without a source it is imported from a source of its own name. -/
def importing : Recipe Statement := do
  let _ ← take
  let name ← expectText .identifier
  let source ← optional .fromWord (expectText .text)
  let _ ← expect .semicolon
  return .importing name (source.getD name)

def foreach : Recipe Statement := do
  let _ ← take
  let item ← expectText .identifier
  let index ← optional .comma (expectText .identifier)
  let _ ← expect .inWord
  let iterable ← expression .lowest
  let body ← block
  return .foreach item index iterable body

def classDeclaration : Recipe Statement := do
  let _ ← take
  let name ← expectText .identifier
  let body ← block
  return .classDeclaration name body

def returning : Recipe Statement := do
  let _ ← take
  let value ← ifKind .semicolon (.yield none) do
    let value ← expression .lowest
    return some value
  let _ ← expect .semicolon
  return .returning value

def loop : Recipe Statement := do
  let _ ← take
  let condition ← expression .assignment
  let body ← block
  return .loop condition body

end Recipe

/-- The recipe of a statement rule. -/
def StatementRule.recipe : StatementRule → Recipe Statement
  | .anyStatement => .statement
  | .expression => .expressionStatement
  | .block => .blockStatement
  | .declaration => .declaration
  | .function => .functionDeclaration
  | .conditional => .conditional
  | .importing => .importing
  | .foreach => .foreach
  | .classDeclaration => .classDeclaration
  | .returning => .returning
  | .loop => .loop

end ScriptReader
