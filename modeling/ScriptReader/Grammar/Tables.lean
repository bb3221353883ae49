/- # ScriptReader.Grammar.Tables — which token calls for which recipe

Tables say for each kind of token how a statement, an expression or a type that
begins with it is read, how expressions and types go on at it, and how tightly it
binds then. They hold recipes, those of the language's rules and any others. They
are built by inserting entries; a later entry for the same use of the same kind
replaces an earlier one. Prefix and infix entries do not touch each other, so `-`,
`[` and `(` can be both.
-/
import ScriptReader.Grammar.Statement
import ScriptReader.Grammar.TypeExpr

namespace ScriptReader

set_option autoImplicit false

/-- One entry of the tables: a rule of the language, or a recipe of one's own. For going on from
types there are only the latter. -/
inductive Entry where
  | statement (kind : TokenKind) (rule : StatementRule)
  | prefixForm (kind : TokenKind) (rule : PrefixRule)
  | infixForm (kind : TokenKind) (power : Power) (rule : InfixRule)
  | typePrefix (kind : TokenKind) (rule : TypePrefixRule)
  | typeInfix (kind : TokenKind) (power : Power) (rule : TypeInfixRule)
  | ownStatement (kind : TokenKind) (recipe : Recipe Statement)
  | ownPrefix (kind : TokenKind) (recipe : Recipe Expr)
  | ownInfix (kind : TokenKind) (power : Power) (recipe : InfixRecipe)
  | ownTypePrefix (kind : TokenKind) (recipe : Recipe TypeExpr)

/-- The recipes and powers of each kind of token. -/
structure Tables where
  statementRule : TokenKind → Option (Recipe Statement)
  prefixRule : TokenKind → Option (Recipe Expr)
  infixRule : TokenKind → Option InfixRecipe
  infixPower : TokenKind → Option Power
  typePrefixRule : TokenKind → Option (Recipe TypeExpr)
  typeInfixRule : TokenKind → Option TypeInfixRule
  typeInfixPower : TokenKind → Option Power

namespace Tables

/-- Tables without entries. -/
def empty : Tables where
  statementRule _ := none
  prefixRule _ := none
  infixRule _ := none
  infixPower _ := none
  typePrefixRule _ := none
  typeInfixRule _ := none
  typeInfixPower _ := none

/-- The function `entries` with the value at one kind replaced. -/
def assign {α : Type} (entries : TokenKind → Option α) (kind : TokenKind) (value : α) :
    TokenKind → Option α :=
  fun other => if other = kind then some value else entries other

/-- The tables with the recipe of a statement. -/
def insertStatement (tables : Tables) (kind : TokenKind) (recipe : Recipe Statement) : Tables :=
  { tables with statementRule := assign tables.statementRule kind recipe }

/-- The tables with a recipe that begins an expression. -/
def insertPrefix (tables : Tables) (kind : TokenKind) (recipe : Recipe Expr) : Tables :=
  { tables with prefixRule := assign tables.prefixRule kind recipe }

/-- The tables with a recipe that goes on from an expression, and its power. -/
def insertInfix (tables : Tables) (kind : TokenKind) (power : Power) (recipe : InfixRecipe) :
    Tables :=
  { tables with
    infixRule := assign tables.infixRule kind recipe
    infixPower := assign tables.infixPower kind power }

/-- The tables with a recipe that begins a type. -/
def insertTypePrefix (tables : Tables) (kind : TokenKind) (recipe : Recipe TypeExpr) : Tables :=
  { tables with typePrefixRule := assign tables.typePrefixRule kind recipe }

/-- The tables with a recipe that goes on from a type, and its power. -/
def insertTypeInfix (tables : Tables) (kind : TokenKind) (power : Power) (rule : TypeInfixRule) :
    Tables :=
  { tables with
    typeInfixRule := assign tables.typeInfixRule kind rule
    typeInfixPower := assign tables.typeInfixPower kind power }

/-- The tables with one more entry. -/
def insert (tables : Tables) : Entry → Tables
  | .statement kind rule => tables.insertStatement kind rule.recipe
  | .prefixForm kind rule => tables.insertPrefix kind rule.recipe
  | .infixForm kind power rule => tables.insertInfix kind power rule.recipe
  | .typePrefix kind rule => tables.insertTypePrefix kind rule.recipe
  | .typeInfix kind power rule => tables.insertTypeInfix kind power rule
  | .ownStatement kind recipe => tables.insertStatement kind recipe
  | .ownPrefix kind recipe => tables.insertPrefix kind recipe
  | .ownInfix kind power recipe => tables.insertInfix kind power recipe
  | .ownTypePrefix kind recipe => tables.insertTypePrefix kind recipe

/-- The tables with further entries, inserted in order. -/
def extend (tables : Tables) (entries : List Entry) : Tables := entries.foldl insert tables

/-- How tightly a kind binds on the right of an expression. -/
def power (tables : Tables) (kind : TokenKind) : Power := (tables.infixPower kind).getD .lowest

/-- How tightly a kind binds on the right of a type. -/
def typePower (tables : Tables) (kind : TokenKind) : Power :=
  (tables.typeInfixPower kind).getD .lowest

end Tables

/-- The entries of the language. -/
def languageEntries : List Entry :=
  [.infixForm .assignment .assignment .assignment,
   .infixForm .plusEquals .assignment .assignment,
   .infixForm .minusEquals .assignment .assignment,
   .infixForm .starEquals .assignment .assignment,
   .infixForm .slashEquals .assignment .assignment,
   .infixForm .nullishAssignment .assignment .assignment,
   .infixForm .and .logical .binary,
   .infixForm .or .logical .binary,
   .infixForm .dotDot .logical .range,
   .infixForm .less .relational .binary,
   .infixForm .lessEquals .relational .binary,
   .infixForm .greater .relational .binary,
   .infixForm .greaterEquals .relational .binary,
   .infixForm .equals .relational .binary,
   .infixForm .notEquals .relational .binary,
   .infixForm .plus .additive .binary,
   .infixForm .dash .additive .binary,
   .infixForm .star .multiplicative .binary,
   .infixForm .slash .multiplicative .binary,
   .infixForm .percent .multiplicative .binary,
   .infixForm .dot .member .member,
   .infixForm .openBracket .member .member,
   .infixForm .openParen .call .call,
   .prefixForm .number .primary,
   .prefixForm .text .primary,
   .prefixForm .identifier .primary,
   .prefixForm .typeofWord .operation,
   .prefixForm .dash .operation,
   .prefixForm .not .operation,
   .prefixForm .openBracket .array,
   .prefixForm .openParen .grouping,
   .prefixForm .fnWord .function,
   .prefixForm .newWord .creation,
   .statement .openCurly .block,
   .statement .letWord .declaration,
   .statement .constWord .declaration,
   .statement .fnWord .function,
   .statement .ifWord .conditional,
   .statement .importWord .importing,
   .statement .foreachWord .foreach,
   .statement .classWord .classDeclaration,
   .statement .returnWord .returning,
   .statement .whileWord .loop,
   .typePrefix .identifier .name,
   .typePrefix .openBracket .list]

/-- The tables of the language. -/
def Tables.language : Tables := Tables.empty.extend languageEntries

end ScriptReader
