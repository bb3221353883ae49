/- # ScriptReader.Proofs.Language — the tables of the language, read off

The tables are built by insertions; here they are told by kinds. `Tables.power` of
the language is `lowest` for every kind that does not go on from an expression, and
the kinds that do are those that join two operands, and behind them the three that
open a call, an element or a property.
-/
import ScriptReader.Proofs.Forms

namespace ScriptReader

set_option autoImplicit false

namespace TokenKind

/-- The kinds that assign. -/
def assigning : List TokenKind :=
  [.assignment, .plusEquals, .minusEquals, .starEquals, .slashEquals, .nullishAssignment]

/-- The kinds that make binary expressions. -/
def combining : List TokenKind :=
  [.and, .or, .less, .lessEquals, .greater, .greaterEquals, .equals, .notEquals, .plus, .dash,
   .star, .slash, .percent]

/-- The kinds that join two operands. -/
def joining : List TokenKind := .dotDot :: assigning ++ combining

/-- The kinds that stand in front of an operand. -/
def signs : List TokenKind := [.dash, .not, .typeofWord]

/-- The kinds at which a list, a block or a branch ends. -/
def endings : List TokenKind := [.endOfInput, .closeCurly, .closeParen, .closeBracket, .elseWord]

theorem ne_of_not_mem_endings {kind ending : TokenKind} (other : kind ∉ endings)
    (member : ending ∈ endings) : kind ≠ ending := by
  rintro rfl
  exact other member

end TokenKind

/-- The kinds that call for a prefix rule in the language. -/
def PrefixRule.kinds : PrefixRule → List TokenKind
  | .primary => [.number, .text, .identifier]
  | .operation => TokenKind.signs
  | .grouping => [.openParen]
  | .array => [.openBracket]
  | .function => [.fnWord]
  | .creation => [.newWord]

theorem PrefixRule.not_mem_endings (rule : PrefixRule) :
    ∀ kind ∈ rule.kinds, kind ∉ TokenKind.endings := by
  cases rule <;> decide

/-- The kinds that call for an infix rule in the language. -/
def InfixRule.kinds : InfixRule → List TokenKind
  | .binary => TokenKind.combining
  | .assignment => TokenKind.assigning
  | .range => [.dotDot]
  | .call => [.openParen]
  | .member => [.dot, .openBracket]

/-- The kinds that call for a statement rule in the language. -/
def StatementRule.kinds : StatementRule → List TokenKind
  | .anyStatement | .expression => []
  | .block => [.openCurly]
  | .declaration => [.letWord, .constWord]
  | .function => [.fnWord]
  | .conditional => [.ifWord]
  | .importing => [.importWord]
  | .foreach => [.foreachWord]
  | .classDeclaration => [.classWord]
  | .returning => [.returnWord]
  | .loop => [.whileWord]

theorem StatementRule.not_mem_endings (rule : StatementRule) :
    ∀ kind ∈ rule.kinds, kind ∉ TokenKind.endings := by
  cases rule <;> decide

/-- The kinds that call for a type prefix rule in the language. -/
def TypePrefixRule.kinds : TypePrefixRule → List TokenKind
  | .name => [.identifier]
  | .list => [.openBracket]

namespace Tables

/-! ## Rules by kind -/

section Rules

variable {kind : TokenKind}

/-- The first of some rules that has the kind among its own. -/
def ruleFor? {Rule : Type} (rules : List Rule) (kinds : Rule → List TokenKind) (kind : TokenKind) :
    Option Rule :=
  rules.find? fun rule => kind ∈ kinds rule

/-- What tables hold for a kind, if they hold the recipes of some rules, each for its kinds. -/
theorem eq_some_iff_of_ruleFor? {Rule Form : Type} (rules : List Rule)
    {kinds : Rule → List TokenKind} {recipe : Rule → Form} {held : Option Form} {form : Form}
    (same : held = (ruleFor? rules kinds kind).map recipe)
    (chosen : ∀ rule, ruleFor? rules kinds kind = some rule ↔ kind ∈ kinds rule) :
    held = some form ↔ ∃ rule, kind ∈ kinds rule ∧ recipe rule = form := by
  simp only [same, Option.map_eq_some_iff, chosen]

theorem language_prefixRule_iff {recipe : Recipe Expr} :
    language.prefixRule kind = some recipe ↔
      ∃ rule : PrefixRule, kind ∈ rule.kinds ∧ rule.recipe = recipe := by
  apply eq_some_iff_of_ruleFor? [.primary, .operation, .grouping, .array, .function, .creation]
  · cases kind <;> rfl
  · intro rule
    cases rule <;> cases kind <;> decide

theorem language_infixRule_iff {recipe : InfixRecipe} :
    language.infixRule kind = some recipe ↔
      ∃ rule : InfixRule, kind ∈ rule.kinds ∧ rule.recipe = recipe := by
  apply eq_some_iff_of_ruleFor? [.binary, .assignment, .range, .call, .member]
  · cases kind <;> rfl
  · intro rule
    cases rule <;> cases kind <;> decide

theorem language_statementRule_iff {recipe : Recipe Statement} :
    language.statementRule kind = some recipe ↔
      ∃ rule : StatementRule, kind ∈ rule.kinds ∧ rule.recipe = recipe := by
  apply eq_some_iff_of_ruleFor? [.block, .declaration, .function, .conditional, .importing,
    .foreach, .classDeclaration, .returning, .loop]
  · cases kind <;> rfl
  · intro rule
    cases rule <;> cases kind <;> decide

theorem language_typePrefixRule_iff {recipe : Recipe TypeExpr} :
    language.typePrefixRule kind = some recipe ↔
      ∃ rule : TypePrefixRule, kind ∈ rule.kinds ∧ rule.recipe = recipe := by
  apply eq_some_iff_of_ruleFor? [.name, .list]
  · cases kind <;> rfl
  · intro rule
    cases rule <;> cases kind <;> decide

end Rules

/-! ## Powers by kind -/

variable {kind : TokenKind}

theorem exists_joins_of_joining (joining : kind ∈ TokenKind.joining) :
    ∃ rule : InfixRule, rule.joins ∧ kind ∈ rule.kinds := by
  simp only [TokenKind.joining, List.cons_append, List.mem_cons, List.mem_append] at joining
  rcases joining with rfl | assigning | combining
  · exact ⟨.range, rfl, List.mem_singleton_self _⟩
  · exact ⟨.assignment, rfl, assigning⟩
  · exact ⟨.binary, rfl, combining⟩

theorem joining_of_joins {rule : InfixRule} (joins : rule.joins) (found : kind ∈ rule.kinds) :
    kind ∈ TokenKind.joining := by
  simp only [TokenKind.joining, List.cons_append, List.mem_cons, List.mem_append]
  cases rule with
  | binary => exact .inr (.inr found)
  | assignment => exact .inr (.inl found)
  | range => exact .inl (List.mem_singleton.mp found)
  | call | member => cases joins

/-- An operator between two operands binds tighter than nothing at all, and less tightly than
a sign. -/
theorem language_power_of_joining (joining : kind ∈ TokenKind.joining) :
    .lowest < language.power kind ∧ language.power kind < .unary := by
  revert joining
  cases kind <;> decide

/-- No kind goes on from a type. -/
theorem language_typeInfixPower (kind : TokenKind) : language.typeInfixPower kind = none := rfl

end Tables

/-- The right operand is read at no weaker a power than the whole. -/
theorem le_rightPower {least power : Power} (tighter : least < power) (rule : InfixRule) :
    least ≤ rule.rightPower power ∧ rule.rightPower power ≤ power := by
  simp only [InfixRule.rightPower, Power.le_iff_rank]
  rw [Power.lt_iff_rank] at tighter
  split
  · rw [Power.rank_weaker]
    omega
  · omega

end ScriptReader
