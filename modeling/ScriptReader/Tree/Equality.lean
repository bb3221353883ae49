/- # ScriptReader.Tree.Equality — when two trees are equal

Trees are compared part by part, and numbers as numbers: `nan` differs from
itself, and the two zeros are equal. So a tree equals itself exactly when no
`nan` occurs in it.
-/
import ScriptReader.Tree

namespace ScriptReader

set_option autoImplicit false

mutual

def Expr.equal : Expr → Expr → Bool
  | .number value, .number value' => value.equal value'
  | .text value, .text value' => value == value'
  | .symbol name, .symbol name' => name == name'
  | .binary left operator right, .binary left' operator' right' =>
    left.equal left' && operator == operator' && right.equal right'
  | .assignment target operator value, .assignment target' operator' value' =>
    target.equal target' && operator == operator' && value.equal value'
  | .range lower upper, .range lower' upper' => lower.equal lower' && upper.equal upper'
  | .operation operator operand, .operation operator' operand' =>
    operator == operator' && operand.equal operand'
  | .member object property, .member object' property' =>
    object.equal object' && property == property'
  | .element object index, .element object' index' => object.equal object' && index.equal index'
  | .call callee arguments, .call callee' arguments' =>
    callee.equal callee' && equalExprs arguments arguments'
  | .creation callee arguments, .creation callee' arguments' =>
    callee.equal callee' && equalExprs arguments arguments'
  | .array elements, .array elements' => equalExprs elements elements'
  | .function signature body, .function signature' body' =>
    signature == signature' && equalStatements body body'
  | _, _ => false

def equalExprs : List Expr → List Expr → Bool
  | [], [] => true
  | expr :: rest, expr' :: rest' => expr.equal expr' && equalExprs rest rest'
  | _, _ => false

def equalOptionalExpr : Option Expr → Option Expr → Bool
  | none, none => true
  | some expr, some expr' => expr.equal expr'
  | _, _ => false

def Statement.equal : Statement → Statement → Bool
  | .block body, .block body' => equalStatements body body'
  | .declaration name constant value type, .declaration name' constant' value' type' =>
    name == name' && constant == constant' && equalOptionalExpr value value' && type == type'
  | .expression value, .expression value' => value.equal value'
  | .function name signature body, .function name' signature' body' =>
    name == name' && signature == signature' && equalStatements body body'
  | .conditional condition consequent alternative,
      .conditional condition' consequent' alternative' =>
    condition.equal condition' && equalStatements consequent consequent' &&
      equalOptionalStatement alternative alternative'
  | .importing name source, .importing name' source' => name == name' && source == source'
  | .foreach item index iterable body, .foreach item' index' iterable' body' =>
    item == item' && index == index' && iterable.equal iterable' && equalStatements body body'
  | .classDeclaration name body, .classDeclaration name' body' =>
    name == name' && equalStatements body body'
  | .returning value, .returning value' => equalOptionalExpr value value'
  | .loop condition body, .loop condition' body' =>
    condition.equal condition' && equalStatements body body'
  | _, _ => false

def equalStatements : List Statement → List Statement → Bool
  | [], [] => true
  | statement :: rest, statement' :: rest' =>
    statement.equal statement' && equalStatements rest rest'
  | _, _ => false

def equalOptionalStatement : Option Statement → Option Statement → Bool
  | none, none => true
  | some statement, some statement' => statement.equal statement'
  | _, _ => false

end

end ScriptReader
