/- # ScriptReader.Proofs.WellFormed — trees that can be read

A tree is well formed if every node could have been read: a declaration has what
its kind needs, operators are of their kinds, what stands behind `else` is a block
or a condition, and numbers are the values of numerals. Every tree that is read is
well formed (`Phrase.Reads.sound`).
-/
import ScriptReader.Proofs.Language

namespace ScriptReader

set_option autoImplicit false

/-! ## Well-formed trees -/

/-- The number is the value of some numeral. -/
def Binary64.Spellable (value : Binary64) : Prop :=
  ∃ text, Binary64.ofNumeral? text = some value

/-- Whether a statement can stand behind `else`. -/
def Statement.isAlternative : Statement → Bool
  | .block _ | .conditional _ _ _ => true
  | _ => false

mutual

/-- Every node of the expression could have been read. -/
def Expr.WellFormed : Expr → Prop
  | .number value => value.Spellable
  | .text _ | .symbol _ => True
  | .binary left operator right =>
    operator.kind ∈ TokenKind.combining ∧ left.WellFormed ∧ right.WellFormed
  | .assignment target operator value =>
    operator.kind ∈ TokenKind.assigning ∧ target.WellFormed ∧ value.WellFormed
  | .range lower upper => lower.WellFormed ∧ upper.WellFormed
  | .operation operator operand => operator.kind ∈ TokenKind.signs ∧ operand.WellFormed
  | .member object _ => object.WellFormed
  | .element object index => object.WellFormed ∧ index.WellFormed
  | .call callee arguments | .creation callee arguments =>
    callee.WellFormed ∧ wellFormedExprs arguments
  | .array elements => wellFormedExprs elements
  | .function _ body => wellFormedStatements body

def wellFormedExprs : List Expr → Prop
  | [] => True
  | expr :: rest => expr.WellFormed ∧ wellFormedExprs rest

def wellFormedOptionalExpr : Option Expr → Prop
  | none => True
  | some expr => expr.WellFormed

/-- Every node of the statement could have been read. -/
def Statement.WellFormed : Statement → Prop
  | .block body | .function _ _ body | .classDeclaration _ body => wellFormedStatements body
  | .declaration _ constant value type =>
    (type ≠ none ∨ value ≠ none) ∧ (constant → value ≠ none) ∧ wellFormedOptionalExpr value
  | .expression value => value.WellFormed
  | .conditional condition consequent alternative =>
    condition.WellFormed ∧ wellFormedStatements consequent ∧ wellFormedAlternative alternative
  | .importing _ _ => True
  | .foreach _ _ iterable body => iterable.WellFormed ∧ wellFormedStatements body
  | .returning value => wellFormedOptionalExpr value
  | .loop condition body => condition.WellFormed ∧ wellFormedStatements body

def wellFormedStatements : List Statement → Prop
  | [] => True
  | statement :: rest => statement.WellFormed ∧ wellFormedStatements rest

def wellFormedAlternative : Option Statement → Prop
  | none => True
  | some statement => statement.isAlternative ∧ statement.WellFormed

end

/-! ## What is read is well formed -/

/-- What is said of the value of each phrase that is read. A tail makes a well-formed expression
of one; signatures and types are always well formed. -/
def Sound : Readings
  | .expression _, _, value, _ => value.WellFormed
  | .expressionTail _ first, _, value, _ => first.WellFormed → value.WellFormed
  | .statement, _, statement, _ => statement.WellFormed
  | .statements, _, body, _ => wellFormedStatements body
  | .conditional, _, statement, _ => statement.isAlternative ∧ statement.WellFormed
  | .arguments _, _, contents, _ => wellFormedExprs contents
  | .type _, _, _, _ | .typeTail _ _, _, _, _ | .parameters, _, _, _ => True

section Recipes

variable {ahead left rest : List Token} {value first : Expr} {body : List Statement}
  {statement : Statement}

theorem wellFormed_block (read : Recipe.block.Reads Sound ahead body left) :
    wellFormedStatements body := by
  obtain ⟨_, _, _, _, inner⟩ := Recipe.reads_block.mp read
  exact inner

theorem wellFormed_enclosed {open' close : TokenKind} {contents : List Expr}
    (read : (Recipe.enclosed open' close).Reads Sound ahead contents left) :
    wellFormedExprs contents := by
  obtain ⟨_, _, _, _, inner⟩ := Recipe.reads_enclosed.mp read
  exact inner

theorem wellFormed_functionRest {signature : Signature}
    (read : Recipe.functionRest.Reads Sound ahead (signature, body) left) :
    wellFormedStatements body := by
  obtain ⟨_, _, _, _, _, _, _, _, block⟩ := Recipe.reads_functionRest.mp read
  exact wellFormed_block block

theorem wellFormed_of_ofToken {token : Token} (made : Recipe.ofToken token = .ok value) :
    value.WellFormed := by
  unfold Recipe.ofToken at made
  split at made
  · cases found : Binary64.ofNumeral? token.text with
    | none => simp [found] at made
    | some number =>
        simp only [found] at made
        cases made
        exact ⟨token.text, found⟩
  · cases made
    trivial
  · cases made
    trivial
  · cases made

theorem wellFormed_of_prefixRule {rule : PrefixRule} {token : Token}
    (found : token.kind ∈ rule.kinds)
    (read : rule.recipe.Reads Sound (token :: rest) value left) : value.WellFormed := by
  cases rule with
  | primary =>
      obtain ⟨_, _, made⟩ := Recipe.reads_primary.mp read
      exact wellFormed_of_ofToken made
  | operation =>
      obtain ⟨operator, _, operand, same, inner, rfl⟩ := Recipe.reads_operation.mp read
      cases same
      exact ⟨found, inner⟩
  | grouping =>
      obtain ⟨_, _, _, _, inner⟩ := Recipe.reads_grouping.mp read
      exact inner
  | array =>
      obtain ⟨elements, inner, rfl⟩ := Recipe.reads_array.mp read
      exact wellFormed_enclosed inner
  | function =>
      obtain ⟨_, _, signature, body, _, inner, rfl⟩ := Recipe.reads_functionLiteral.mp read
      exact wellFormed_functionRest inner
  | creation =>
      obtain ⟨_, _, callee, arguments, _, inner, rfl⟩ := Recipe.reads_creation.mp read
      exact inner

theorem wellFormed_of_infixRule {rule : InfixRule} {token : Token} {power : Power}
    (found : token.kind ∈ rule.kinds) (wellFormed : first.WellFormed)
    (read : (rule.recipe first power).Reads Sound (token :: rest) value left) :
    value.WellFormed := by
  cases rule with
  | binary | assignment =>
      obtain ⟨_, _, second, same, inner, rfl⟩ := (Recipe.reads_joining rfl).mp read
      cases same
      exact ⟨found, wellFormed, inner⟩
  | range =>
      obtain ⟨_, _, second, same, inner, rfl⟩ := (Recipe.reads_joining rfl).mp read
      exact ⟨wellFormed, inner⟩
  | call =>
      obtain ⟨arguments, inner, rfl⟩ := Recipe.reads_call.mp read
      exact ⟨wellFormed, wellFormed_enclosed inner⟩
  | member =>
      rcases Recipe.reads_member.mp read with ⟨_, _, index, _, _, inner, rfl⟩ | ⟨_, property, _, _, rfl⟩
      · exact ⟨wellFormed, inner⟩
      · exact wellFormed

theorem wellFormed_declaration (read : Recipe.declaration.Reads Sound ahead statement left) :
    statement.WellFormed := by
  obtain ⟨opening, name, _, _, type, content, _, _, _, initial, rfl⟩ :=
    Recipe.reads_declaration.mp read
  rcases Recipe.reads_initialValue.mp initial with ⟨_, _, _, variable', typed, rfl, _⟩ |
    ⟨_, _, given, _, inner, rfl⟩
  · refine ⟨.inl typed, ?_, trivial⟩
    intro constant
    rw [variable'] at constant
    cases constant
  · exact ⟨.inr (by simp), fun _ => by simp, inner⟩

theorem wellFormed_conditional
    (read : Recipe.conditionalPhrase.Reads Sound ahead statement left) :
    statement.isAlternative ∧ statement.WellFormed := by
  obtain ⟨_, _, condition, _, consequent, _, alternative, _, tested, inner, other, rfl⟩ :=
    Recipe.reads_conditionalPhrase.mp read
  have second : wellFormedAlternative alternative := by
    rcases Recipe.reads_optional.mp other with ⟨_, _, behind, _, rfl, next⟩ | ⟨_, _, _, _, rfl, _⟩
    · obtain ⟨token, _, _, next⟩ := Recipe.reads_ifKind.mp next
      by_cases again : token.kind = .ifWord
      · rw [if_pos again] at next
        exact Recipe.reads_conditional.mp next
      · rw [if_neg again] at next
        obtain ⟨body, block, rfl⟩ := Recipe.reads_blockStatement.mp next
        exact ⟨rfl, wellFormed_block block⟩
    · trivial
  exact ⟨rfl, tested, wellFormed_block inner, second⟩

theorem wellFormed_of_statementRule {rule : StatementRule}
    (found : rule.kinds ≠ []) (read : rule.recipe.Reads Sound ahead statement left) :
    statement.WellFormed := by
  cases rule with
  | anyStatement | expression => exact absurd rfl found
  | block =>
      obtain ⟨body, block, rfl⟩ := Recipe.reads_blockStatement.mp read
      exact wellFormed_block block
  | declaration => exact wellFormed_declaration read
  | function =>
      obtain ⟨_, name, _, signature, body, _, inner, rfl⟩ := Recipe.reads_functionDeclaration.mp read
      exact wellFormed_functionRest inner
  | conditional => exact (Recipe.reads_conditional.mp read).2
  | importing =>
      obtain ⟨_, name, _, source, _, _, _, rfl⟩ := Recipe.reads_importing.mp read
      trivial
  | foreach =>
      obtain ⟨_, item, _, index, _, _, iterable, _, body, _, _, collection, block, rfl⟩ :=
        Recipe.reads_foreach.mp read
      exact ⟨collection, wellFormed_block block⟩
  | classDeclaration =>
      obtain ⟨_, name, _, body, _, block, rfl⟩ := Recipe.reads_classDeclaration.mp read
      exact wellFormed_block block
  | returning =>
      rcases Recipe.reads_returning.mp read with
        ⟨_, _, _, rfl⟩ | ⟨_, _, _, content, _, _, _, inner, rfl⟩
      · trivial
      · exact inner
  | loop =>
      obtain ⟨_, _, condition, _, body, _, tested, block, rfl⟩ := Recipe.reads_loop.mp read
      exact ⟨tested, wellFormed_block block⟩

theorem sound_of_recipe {phrase : Phrase} {result : phrase.Value}
    (read : (phrase.recipe .language).Reads Sound ahead result left) :
    Sound phrase ahead result left := by
  cases phrase with
  | expression least =>
      obtain ⟨token, _, _, _, _, rfl, found, begun, tail⟩ := Recipe.reads_expressionPhrase.mp read
      obtain ⟨rule, member, rfl⟩ := Tables.language_prefixRule_iff.mp found
      exact tail (wellFormed_of_prefixRule member begun)
  | expressionTail least first =>
      intro wellFormed
      obtain ⟨token, _, rfl, ⟨_, same, _⟩ | ⟨_, _, _, _, found, joined, tail⟩⟩ :=
        Recipe.reads_expressionTailPhrase.mp read
      · rw [same]
        exact wellFormed
      · obtain ⟨rule, member, rfl⟩ := Tables.language_infixRule_iff.mp found
        exact tail (wellFormed_of_infixRule member wellFormed joined)
  | type least | typeTail least first | parameters => trivial
  | statement =>
      obtain ⟨token, _, rfl, ⟨_, inner⟩ | ⟨_, found, inner⟩⟩ :=
        Recipe.reads_statementPhrase.mp read
      · obtain ⟨content, _, wellFormed, rfl⟩ := Recipe.reads_expressionStatement.mp inner
        exact wellFormed
      · obtain ⟨rule, member, rfl⟩ := Tables.language_statementRule_iff.mp found
        exact wellFormed_of_statementRule (List.ne_nil_of_mem member) inner
  | statements =>
      obtain ⟨token, _, rfl, read⟩ := Recipe.reads_statementsPhrase.mp read
      by_cases ends : token.kind = .endOfInput ∨ token.kind = .closeCurly
      · rw [if_pos ends] at read
        rw [read.1]
        trivial
      · rw [if_neg ends] at read
        obtain ⟨_, _, _, wellFormed, others, rfl⟩ := read
        exact ⟨wellFormed, others⟩
  | conditional => exact wellFormed_conditional read
  | arguments close =>
      obtain ⟨token, _, rfl, read⟩ := Recipe.reads_argumentsPhrase.mp read
      by_cases ends : token.kind = .endOfInput ∨ token.kind = close
      · rw [if_pos ends] at read
        rw [read.1]
        trivial
      · rw [if_neg ends] at read
        obtain ⟨_, _, _, _, wellFormed, _, others, rfl⟩ := read
        exact ⟨wellFormed, others⟩

end Recipes

theorem Phrase.Reads.sound {phrase : Phrase} {ahead left : List Token} {value : phrase.Value}
    (read : Phrase.Reads .language phrase ahead value left) : Sound phrase ahead value left :=
  read.induct fun _ _ _ _ inner => sound_of_recipe (inner.mono fun _ _ _ _ both => both.2)

end ScriptReader
