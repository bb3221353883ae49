/- # ScriptReader.Tree.Outline — trees as forms

The form of each node of a tree: its variant, and inside it a record with the
node's parts in order. A body is a block of its own after a condition, and a
plain list in functions, classes and `foreach`.
-/
import ScriptReader.Tree
import ScriptReader.Form
import ScriptReader.Number.Shortest

namespace ScriptReader

set_option autoImplicit false

def Token.form (token : Token) : Form :=
  .record "Token" [("kind", .word token.kind.name), ("value", .text token.text)]

def TypeExpr.form : TypeExpr → Form
  | .name text => .around "Symbol" (.record "SymbolType" [("name", .text text)])
  | .list element => .around "List" (.record "ListType" [("underlying", element.form)])

def Parameter.form (parameter : Parameter) : Form :=
  .record "Parameter" [("name", .text parameter.name), ("type_", parameter.type.form)]

/-- The fields that a signature contributes to the function that has it. -/
def Signature.fields (signature : Signature) : List (String × Form) :=
  [("parameters", .list (signature.parameters.map Parameter.form)),
    ("return_type", .option (signature.result.map TypeExpr.form))]

/-- The form of a list of statements that stands as a block. -/
def Form.block (body : List Form) : Form := .record "BlockStmt" [("body", .list body)]

mutual

def Expr.form : Expr → Form
  | .number value =>
    .around "Number" (.record "NumberExpr" [("value", .word value.toText)])
  | .text value =>
    .around "String" (.record "StringExpr" [("value", .text value)])
  | .symbol name =>
    .around "Symbol" (.record "SymbolExpr" [("value", .text name)])
  | .binary left operator right =>
    .around "Binary" (.record "BinaryExpr"
      [("left", left.form), ("operator", operator.form), ("right", right.form)])
  | .assignment target operator value =>
    .around "Assignment" (.record "AssignmentExpr"
      [("assignee", target.form), ("operator", operator.form), ("value", value.form)])
  | .range lower upper =>
    .around "Range" (.record "RangeExpr" [("lower", lower.form), ("upper", upper.form)])
  | .operation operator operand =>
    .around "Prefix" (.record "PrefixExpr"
      [("operator", operator.form), ("right_expr", operand.form)])
  | .member object property =>
    .around "Member" (.record "MemberExpr"
      [("member", object.form), ("property", .text property)])
  | .element object index =>
    .around "Computed" (.record "ComputedExpr"
      [("member", object.form), ("property", index.form)])
  | .call callee arguments =>
    .around "Call" (.record "CallExpr"
      [("callee", callee.form), ("arguments", .list (exprForms arguments))])
  | .creation callee arguments =>
    .around "New" (.record "NewExpr"
      [("instantiation", .record "CallExpr"
        [("callee", callee.form), ("arguments", .list (exprForms arguments))])])
  | .array elements =>
    .around "ArrayLiteral" (.record "ArrayLiteralExpr"
      [("contents", .list (exprForms elements))])
  | .function signature body =>
    .around "Function" (.record "FunctionExpr"
      (signature.fields ++ [("body", .list (statementForms body))]))

def exprForms : List Expr → List Form
  | [] => []
  | expr :: rest => expr.form :: exprForms rest

def optionalExprForm : Option Expr → Form
  | none => .option none
  | some expr => .option (some expr.form)

def Statement.form : Statement → Form
  | .block body => .around "Block" (.block (statementForms body))
  | .declaration name constant value type =>
    .around "VarDecl" (.record "VarDeclStmt"
      [("identifier", .text name), ("is_constant", .flag constant),
        ("assigned_value", optionalExprForm value),
        ("explicit_type", .option (type.map TypeExpr.form))])
  | .expression value =>
    .around "Expression" (.record "ExpressionStmt" [("expression", value.form)])
  | .function name signature body =>
    .around "FnDecl" (.record "FnDeclStmt"
      (("identifier", .text name) :: signature.fields ++ [("body", .list (statementForms body))]))
  | .conditional condition consequent alternative =>
    .around "If" (.record "IfStmt"
      [("condition", condition.form), ("consequent", .block (statementForms consequent)),
        ("alternate", optionalStatementForm alternative)])
  | .importing name source =>
    .around "Import" (.record "ImportStmt"
      [("identifier", .text name), ("from", .text source)])
  | .foreach item index iterable body =>
    .around "Foreach" (.record "ForeachStmt"
      [("value", .text item), ("index", .option (index.map .text)),
        ("iterable", iterable.form), ("body", .list (statementForms body))])
  | .classDeclaration name body =>
    .around "ClassDecl" (.record "ClassDeclStmt"
      [("name", .text name), ("body", .list (statementForms body))])
  | .returning value =>
    .around "Return" (.record "ReturnStmt" [("value", optionalExprForm value)])
  | .loop condition body =>
    .around "While" (.record "WhileStmt"
      [("condition", condition.form), ("body", .block (statementForms body))])

def statementForms : List Statement → List Form
  | [] => []
  | statement :: rest => statement.form :: statementForms rest

def optionalStatementForm : Option Statement → Form
  | none => .option none
  | some statement => .option (some statement.form)

end

/-- The form of a whole program. -/
def programForm (body : List Statement) : Form := .block (statementForms body)

end ScriptReader
