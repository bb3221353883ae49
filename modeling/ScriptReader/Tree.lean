/- # ScriptReader.Tree — what a script says

Types, expressions and statements. A program is a list of statements. Wherever
the grammar asks for a braced body, the tree holds the list of its statements;
a block that is a statement of its own is `Statement.block`. Operators keep the
token they were written with.
-/
import ScriptReader.Token
import ScriptReader.Number.Binary64

namespace ScriptReader

set_option autoImplicit false

/-- A written type: a name, or a list of some type. -/
inductive TypeExpr where
  | name (text : String)
  | list (element : TypeExpr)
  deriving DecidableEq, Repr, Inhabited

/-- A parameter of a function. -/
structure Parameter where
  name : String
  type : TypeExpr
  deriving DecidableEq, Repr, Inhabited

/-- The parameters of a function and the type of its result, where one is written. -/
structure Signature where
  parameters : List Parameter
  result : Option TypeExpr
  deriving DecidableEq, Repr, Inhabited

mutual

/-- An expression. -/
inductive Expr where
  | number (value : Binary64)
  | text (value : String)
  | symbol (name : String)
  | binary (left : Expr) (operator : Token) (right : Expr)
  | assignment (target : Expr) (operator : Token) (value : Expr)
  | range (lower upper : Expr)
  | operation (operator : Token) (operand : Expr)
  | member (object : Expr) (property : String)
  | element (object index : Expr)
  | call (callee : Expr) (arguments : List Expr)
  | creation (callee : Expr) (arguments : List Expr)
  | array (elements : List Expr)
  | function (signature : Signature) (body : List Statement)

/-- A statement. -/
inductive Statement where
  | block (body : List Statement)
  | declaration (name : String) (constant : Bool) (value : Option Expr) (type : Option TypeExpr)
  | expression (value : Expr)
  | function (name : String) (signature : Signature) (body : List Statement)
  | conditional (condition : Expr) (consequent : List Statement) (alternative : Option Statement)
  | importing (name source : String)
  | foreach (item : String) (index : Option String) (iterable : Expr) (body : List Statement)
  | classDeclaration (name : String) (body : List Statement)
  | returning (value : Option Expr)
  | loop (condition : Expr) (body : List Statement)

end

instance : Inhabited Expr := ⟨.symbol ""⟩

instance : Inhabited Statement := ⟨.block []⟩

/-- The name of an expression's form, in diagnostics and listings. -/
def Expr.formName : Expr → String
  | .number _ => "NumberExpr"
  | .text _ => "StringExpr"
  | .symbol _ => "SymbolExpr"
  | .binary _ _ _ => "BinaryExpr"
  | .assignment _ _ _ => "AssignmentExpr"
  | .range _ _ => "RangeExpr"
  | .operation _ _ => "PrefixExpr"
  | .member _ _ => "MemberExpr"
  | .element _ _ => "ComputedExpr"
  | .call _ _ => "CallExpr"
  | .creation _ _ => "NewExpr"
  | .array _ => "ArrayLiteralExpr"
  | .function _ _ => "FunctionExpr"

/-- The name of a statement's form, in diagnostics and listings. -/
def Statement.formName : Statement → String
  | .block _ => "BlockStmt"
  | .declaration _ _ _ _ => "VarDeclStmt"
  | .expression _ => "ExpressionStmt"
  | .function _ _ _ => "FnDeclStmt"
  | .conditional _ _ _ => "IfStmt"
  | .importing _ _ => "ImportStmt"
  | .foreach _ _ _ _ => "ForeachStmt"
  | .classDeclaration _ _ => "ClassDeclStmt"
  | .returning _ => "ReturnStmt"
  | .loop _ _ => "WhileStmt"

/-- The statement with a variable made constant and a constant made variable; other
statements stay as they are. -/
def Statement.toggleConstant : Statement → Statement
  | .declaration name constant value type => .declaration name (!constant) value type
  | statement => statement

end ScriptReader
