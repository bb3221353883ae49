/- # ScriptReader.Grammar.TypeExpr — the forms a type can take

Types are read as expressions are: a prefix rule begins, and infix rules go on
from what stands to their left. The language itself has no infix rule for types;
whoever adds one gives a recipe for each left side and power.
-/
import ScriptReader.Grammar.Recipe

namespace ScriptReader

set_option autoImplicit false

/-- The ways in which the language reads a type from a token on. -/
inductive TypePrefixRule where
  | name | list
  deriving DecidableEq, Repr

/-- How a type goes on, given its left side and the operator's power. -/
abbrev TypeInfixRule := TypeExpr → Power → Recipe TypeExpr

namespace Recipe

def typeName : Recipe TypeExpr := do
  let name ← expectText .identifier
  return .name name

def typeList : Recipe TypeExpr := do
  let _ ← expect .openBracket
  let _ ← expect .closeBracket
  let element ← type .lowest
  return .list element

end Recipe

def TypePrefixRule.recipe : TypePrefixRule → Recipe TypeExpr
  | .name => .typeName
  | .list => .typeList

namespace TypeInfixRule

/-- A mark behind a type makes it a list. -/
def listOf : TypeInfixRule := fun left _ => do
  let _ ← Recipe.take
  return .list left

/-- Only the right side counts; it is read at the operator's own power. -/
def rightSide : TypeInfixRule := fun _ power => do
  let _ ← Recipe.take
  Recipe.type power

/-- Only the right side counts, as the element of a list; it is read at the next weaker
power. -/
def listOfRightSide : TypeInfixRule := fun _ power => do
  let _ ← Recipe.take
  let right ← Recipe.type power.weaker
  return .list right

end TypeInfixRule

end ScriptReader
