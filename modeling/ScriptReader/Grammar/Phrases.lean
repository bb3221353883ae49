/- # ScriptReader.Grammar.Phrases — the recipe of each phrase

Given tables, every phrase has a recipe. An expression is begun by the recipe that
they hold for its first token; then, as long as the current token binds tighter than
the phrase asks for, the infix recipe of that token goes on. Types likewise, over
their own tables. Lists of statements, arguments and parameters are read one
element at a time.
-/
import ScriptReader.Grammar.Tables

namespace ScriptReader

set_option autoImplicit false

namespace Recipe

variable (tables : Tables)

def expressionPhrase (least : Power) : Recipe Expr := do
  let first ← kind
  match tables.prefixRule first with
  | none => refuseKind .expectedExpression
  | some recipe => do
    let left ← recipe
    expressionTail least left

def expressionTailPhrase (least : Power) (left : Expr) : Recipe Expr := do
  let next ← kind
  if least < tables.power next then
    match tables.infixRule next with
    | none => refuseKind .missingInfixRule
    | some recipe => do
      let whole ← recipe left (tables.power next)
      expressionTail least whole
  else return left

def typePhrase (least : Power) : Recipe TypeExpr := do
  let first ← kind
  match tables.typePrefixRule first with
  | none => refuseKind .expectedType
  | some recipe => do
    let left ← recipe
    typeTail least left

def typeTailPhrase (least : Power) (left : TypeExpr) : Recipe TypeExpr := do
  let next ← kind
  if least < tables.typePower next then
    match tables.typeInfixRule next with
    | none => refuseKind .missingInfixRule
    | some rule => do
      let whole ← rule left (tables.typePower next)
      typeTail least whole
  else return left

def statementPhrase : Recipe Statement := do
  let first ← kind
  match tables.statementRule first with
  | none => expressionStatement
  | some recipe => recipe

def statementsPhrase : Recipe (List Statement) := do
  let next ← kind
  if next = .endOfInput ∨ next = .closeCurly then return []
  else
    let first ← statement
    let rest ← statements
    return first :: rest

def argumentsPhrase (close : TokenKind) : Recipe (List Expr) := do
  let next ← kind
  if next = .endOfInput ∨ next = close then return []
  else
    let first ← expression .assignment
    separator close
    let rest ← arguments close
    return first :: rest

def parametersPhrase : Recipe (List Parameter) := do
  let next ← kind
  if next = .endOfInput ∨ next = .closeParen then return []
  else
    let name ← expectText .identifier
    let _ ← expect .colon
    let type ← type .lowest
    separator .closeParen
    let rest ← parameters
    return ⟨name, type⟩ :: rest

/-- A condition and its block; behind `else` stands another condition or a block. -/
def conditionalPhrase : Recipe Statement := do
  let _ ← take
  let condition ← expression .assignment
  let consequent ← block
  let alternative ← optional .elseWord (ifKind .ifWord conditional blockStatement)
  return .conditional condition consequent alternative

end Recipe

/-- The recipe of a phrase. -/
def Phrase.recipe (tables : Tables) : (phrase : Phrase) → Recipe phrase.Value
  | .expression least => .expressionPhrase tables least
  | .expressionTail least left => .expressionTailPhrase tables least left
  | .type least => .typePhrase tables least
  | .typeTail least left => .typeTailPhrase tables least left
  | .statement => .statementPhrase tables
  | .statements => .statementsPhrase
  | .conditional => .conditionalPhrase
  | .arguments close => .argumentsPhrase close
  | .parameters => .parametersPhrase

end ScriptReader
