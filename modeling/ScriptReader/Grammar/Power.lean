/- # ScriptReader.Grammar.Power — how tightly an operator binds

Powers are ordered from the weakest to the strongest. An operand that is read at
a power ends in front of the first operator that binds no tighter, so reading the
right operand at the operator's own power groups to the left, and reading it at
the next weaker power groups to the right.
-/
namespace ScriptReader

set_option autoImplicit false

/-- The binding powers, weakest first. -/
inductive Power where
  | lowest | comma | assignment | logical | relational | additive | multiplicative | unary
  | call | member | primary
  deriving DecidableEq, Repr, Inhabited

namespace Power

/-- Every power once, in order. -/
def all : List Power :=
  [.lowest, .comma, .assignment, .logical, .relational, .additive, .multiplicative, .unary,
   .call, .member, .primary]

def name : Power → String
  | .lowest => "Default"
  | .comma => "Comma"
  | .assignment => "Assignment"
  | .logical => "Logical"
  | .relational => "Relational"
  | .additive => "Additive"
  | .multiplicative => "Multiplicative"
  | .unary => "Unary"
  | .call => "Call"
  | .member => "Member"
  | .primary => "Primary"

/-- The number of weaker powers. -/
def rank : Power → Nat
  | .lowest => 0
  | .comma => 1
  | .assignment => 2
  | .logical => 3
  | .relational => 4
  | .additive => 5
  | .multiplicative => 6
  | .unary => 7
  | .call => 8
  | .member => 9
  | .primary => 10

instance : LT Power := ⟨fun left right => left.rank < right.rank⟩

instance : LE Power := ⟨fun left right => left.rank ≤ right.rank⟩

instance (left right : Power) : Decidable (left < right) :=
  inferInstanceAs (Decidable (left.rank < right.rank))

instance (left right : Power) : Decidable (left ≤ right) :=
  inferInstanceAs (Decidable (left.rank ≤ right.rank))

/-- The next weaker power; the weakest is its own. -/
def weaker : Power → Power
  | .lowest | .comma => .lowest
  | .assignment => .comma
  | .logical => .assignment
  | .relational => .logical
  | .additive => .relational
  | .multiplicative => .additive
  | .unary => .multiplicative
  | .call => .unary
  | .member => .call
  | .primary => .member

theorem lt_iff_rank {left right : Power} : left < right ↔ left.rank < right.rank := Iff.rfl

theorem le_iff_rank {left right : Power} : left ≤ right ↔ left.rank ≤ right.rank := Iff.rfl

theorem rank_weaker (power : Power) : power.weaker.rank = power.rank - 1 := by
  cases power <;> rfl

end Power

end ScriptReader
