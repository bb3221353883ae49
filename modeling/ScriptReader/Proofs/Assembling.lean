/- # ScriptReader.Proofs.Assembling — putting readings of the language together

The rules of the language as ways to build a reading: a token that calls for a
rule, what the rule reads behind it, and how the reading goes on. A list is read
from its end on, since each element leaves what the next one begins with.
-/
import ScriptReader.Proofs.Language

namespace ScriptReader

set_option autoImplicit false

/-! ## What ends an expression or a statement -/

/-- The token ahead does not go on from an expression that asks for the power. -/
def Stops (least : Power) (ahead : List Token) : Prop :=
  ∃ token rest, ahead = token :: rest ∧ ¬ least < Tables.language.power token.kind

theorem Stops.mono {least least' : Power} (le : least ≤ least') {ahead : List Token}
    (stops : Stops least ahead) : Stops least' ahead := by
  obtain ⟨token, rest, same, stops⟩ := stops
  refine ⟨token, rest, same, ?_⟩
  rw [Power.lt_iff_rank] at stops ⊢
  rw [Power.le_iff_rank] at le
  omega

theorem Stops.ne_nil {least : Power} {ahead : List Token} (stops : Stops least ahead) :
    ahead ≠ [] := by
  obtain ⟨token, rest, rfl, -⟩ := stops
  simp

theorem stops_of_kind {least : Power} {text : String} {kind : TokenKind} {rest : List Token}
    (stops : Tables.language.power kind = .lowest) :
    Stops least (⟨kind, text⟩ :: rest) := by
  refine ⟨_, rest, rfl, ?_⟩
  rw [stops]
  exact Nat.not_lt_zero _

/-- The token ahead does not belong to a statement in front of it. -/
def EndsStatement (ahead : List Token) : Prop :=
  ∃ token rest, ahead = token :: rest ∧ token.kind ≠ .elseWord

/-- The token ahead ends a list that the bracket closes. -/
def EndsList (close : TokenKind) (ahead : List Token) : Prop :=
  ∃ token rest, ahead = token :: rest ∧ (token.kind = .endOfInput ∨ token.kind = close)

theorem endsList_close {close : TokenKind} {text : String} {rest : List Token} :
    EndsList close (⟨close, text⟩ :: rest) :=
  ⟨_, rest, rfl, .inr rfl⟩

theorem EndsList.ne_nil {close : TokenKind} {ahead : List Token} (ends : EndsList close ahead) :
    ahead ≠ [] := by
  obtain ⟨token, rest, rfl, -⟩ := ends
  simp

/-- The end of a list of statements may stand behind a statement. -/
theorem EndsList.endsStatement {ahead : List Token} (ends : EndsList .closeCurly ahead) :
    EndsStatement ahead := by
  obtain ⟨token, rest, rfl, ends⟩ := ends
  refine ⟨token, rest, rfl, ?_⟩
  rcases ends with ends | ends <;> simp [ends]

/-! ## Expressions, types and statements -/

namespace Phrase

variable {least : Power} {kind : TokenKind} {text : String} {token : Token}
  {ahead middle left rest : List Token} {first value whole : Expr}

theorem reads_tail_of_stops (stops : Stops least left) :
    Reads .language (.expressionTail least value) left value left := by
  obtain ⟨token, rest, rfl, stops⟩ := stops
  rw [reads_iff]
  exact Recipe.reads_expressionTailPhrase.mpr ⟨token, rest, rfl, .inl ⟨stops, rfl, rfl⟩⟩

theorem reads_tail_of_infixRule (rule : InfixRule) (found : kind ∈ rule.kinds)
    (tighter : least < Tables.language.power kind)
    (read : (rule.recipe first (Tables.language.power kind)).Reads (Reads .language)
      (⟨kind, text⟩ :: rest) value middle)
    (tail : Reads .language (.expressionTail least value) middle whole left) :
    Reads .language (.expressionTail least first) (⟨kind, text⟩ :: rest) whole left := by
  rw [reads_iff]
  exact Recipe.reads_expressionTailPhrase.mpr ⟨_, rest, rfl, .inr
    ⟨tighter, _, value, middle, Tables.language_infixRule_iff.mpr ⟨rule, found, rfl⟩, read, tail⟩⟩

/-- An operator and its right operand, and the expression goes on from both. -/
theorem reads_tail_of_joins {rule : InfixRule} {second : Expr} (joins : rule.joins)
    (found : token.kind ∈ rule.kinds) (tighter : least < Tables.language.power token.kind)
    (operand : Reads .language (.expression (rule.rightPower (Tables.language.power token.kind))) rest
      second middle)
    (tail : Reads .language (.expressionTail least (rule.join first token second)) middle whole
      left) : Reads .language (.expressionTail least first) (token :: rest) whole left :=
  reads_tail_of_infixRule rule found tighter
    ((Recipe.reads_joining joins).mpr ⟨token, rest, second, rfl, operand, rfl⟩) tail

theorem reads_expression_of_prefixRule (rule : PrefixRule) (found : kind ∈ rule.kinds)
    (read : rule.recipe.Reads (Reads .language) (⟨kind, text⟩ :: rest) value middle)
    (tail : Reads .language (.expressionTail least value) middle whole left) :
    Reads .language (.expression least) (⟨kind, text⟩ :: rest) whole left := by
  rw [reads_iff]
  exact Recipe.reads_expressionPhrase.mpr
    ⟨_, rest, _, value, middle, rfl, Tables.language_prefixRule_iff.mpr ⟨rule, found, rfl⟩, read,
      tail⟩

theorem reads_typeTail_of_ne_nil {type : TypeExpr} (more : left ≠ []) :
    Reads .language (.typeTail least type) left type left := by
  rw [reads_iff]
  exact (Recipe.reads_typeTailPhrase Tables.language_typeInfixPower).mpr ⟨more, rfl, rfl⟩

theorem reads_type_of_prefixRule (rule : TypePrefixRule) {type : TypeExpr}
    (found : kind ∈ rule.kinds)
    (read : rule.recipe.Reads (Reads .language) (⟨kind, text⟩ :: rest) type left)
    (more : left ≠ []) : Reads .language (.type least) (⟨kind, text⟩ :: rest) type left := by
  rw [reads_iff]
  exact Recipe.reads_typePhrase.mpr ⟨_, rest, _, type, left, rfl,
    Tables.language_typePrefixRule_iff.mpr ⟨rule, found, rfl⟩, read, reads_typeTail_of_ne_nil more⟩

theorem reads_statement_of_rule (rule : StatementRule) {statement : Statement}
    (found : kind ∈ rule.kinds)
    (read : rule.recipe.Reads (Reads .language) (⟨kind, text⟩ :: rest) statement left) :
    Reads .language .statement (⟨kind, text⟩ :: rest) statement left := by
  rw [reads_iff]
  exact Recipe.reads_statementPhrase.mpr
    ⟨_, rest, rfl, .inr ⟨_, Tables.language_statementRule_iff.mpr ⟨rule, found, rfl⟩, read⟩⟩

/-- No expression begins where something could end. -/
theorem exists_head_of_reads_expression (read : Reads .language (.expression least) ahead value left) :
    ∃ token rest, ahead = token :: rest ∧ token.kind ∉ TokenKind.endings := by
  rw [reads_iff] at read
  obtain ⟨token, rest, _, _, _, rfl, found, -⟩ := Recipe.reads_expressionPhrase.mp read
  obtain ⟨rule, member, -⟩ := Tables.language_prefixRule_iff.mp found
  exact ⟨token, rest, rfl, rule.not_mem_endings _ member⟩

theorem exists_head_of_reads_statement {statement : Statement}
    (read : Reads .language .statement ahead statement left) :
    ∃ token rest, ahead = token :: rest ∧ token.kind ∉ TokenKind.endings := by
  rw [reads_iff] at read
  obtain ⟨token, rest, rfl, ⟨-, read⟩ | ⟨_, found, -⟩⟩ := Recipe.reads_statementPhrase.mp read
  · obtain ⟨content, _, read, -⟩ := Recipe.reads_expressionStatement.mp read
    exact exists_head_of_reads_expression read
  · obtain ⟨rule, member, -⟩ := Tables.language_statementRule_iff.mp found
    exact ⟨token, rest, rfl, rule.not_mem_endings _ member⟩

theorem endsStatement_of_reads {statement : Statement}
    (read : Reads .language .statement ahead statement left) : EndsStatement ahead := by
  obtain ⟨token, rest, rfl, other⟩ := exists_head_of_reads_statement read
  exact ⟨token, rest, rfl, TokenKind.ne_of_not_mem_endings other (by decide)⟩

theorem endsStatement_of_reads_statements {body : List Statement}
    (read : Reads .language .statements ahead body left) : EndsStatement ahead := by
  rw [reads_iff] at read
  obtain ⟨token, rest, rfl, read⟩ := Recipe.reads_statementsPhrase.mp read
  by_cases ends : token.kind = .endOfInput ∨ token.kind = .closeCurly
  · refine ⟨token, rest, rfl, ?_⟩
    rcases ends with ends | ends <;> simp [ends]
  · rw [if_neg ends] at read
    obtain ⟨first, middle, others, read, -⟩ := read
    exact endsStatement_of_reads read

/-! ### Lists -/

theorem reads_statements_of_ends (ends : EndsList .closeCurly left) :
    Reads .language .statements left [] left := by
  obtain ⟨token, rest, rfl, ends⟩ := ends
  rw [reads_iff]
  refine Recipe.reads_statementsPhrase.mpr ⟨token, rest, rfl, ?_⟩
  rw [if_pos ends]
  exact ⟨rfl, rfl⟩

theorem reads_statements_nil {text : String} :
    Reads .language .statements (⟨.closeCurly, text⟩ :: rest) [] (⟨.closeCurly, text⟩ :: rest) :=
  reads_statements_of_ends endsList_close

theorem reads_statements_cons {statement : Statement} {body : List Statement}
    (read : Reads .language .statement ahead statement middle)
    (more : Reads .language .statements middle body left) :
    Reads .language .statements ahead (statement :: body) left := by
  obtain ⟨token, rest, rfl, other⟩ := exists_head_of_reads_statement read
  rw [reads_iff]
  refine Recipe.reads_statementsPhrase.mpr ⟨token, rest, rfl, ?_⟩
  have goesOn : ¬ (token.kind = .endOfInput ∨ token.kind = .closeCurly) :=
    not_or.mpr ⟨TokenKind.ne_of_not_mem_endings other (by decide),
      TokenKind.ne_of_not_mem_endings other (by decide)⟩
  rw [if_neg goesOn]
  exact ⟨statement, middle, body, read, more, rfl⟩

end Phrase

section Separators

variable {readings : Readings} {close : TokenKind} {text : String} {left rest : List Token}

theorem Recipe.reads_separator_of_ends (ends : EndsList close left) :
    (separator close).Reads readings left () left := by
  obtain ⟨token, rest, rfl, ends⟩ := ends
  refine reads_separator.mpr ⟨token, rest, rfl, ?_⟩
  rw [if_pos ends]

theorem Recipe.reads_separator_close :
    (separator close).Reads readings (⟨close, text⟩ :: rest) () (⟨close, text⟩ :: rest) :=
  reads_separator_of_ends endsList_close

theorem Recipe.reads_separator_comma (other : close ≠ .comma) :
    (separator close).Reads readings (⟨.comma, text⟩ :: rest) () rest := by
  refine reads_separator.mpr ⟨_, rest, rfl, ?_⟩
  rw [if_neg (by simp [other.symm])]
  exact ⟨rfl, rfl⟩

end Separators

namespace Phrase

variable {ahead middle behind left rest : List Token} {close : TokenKind}

theorem reads_arguments_of_ends (ends : EndsList close left) :
    Reads .language (.arguments close) left [] left := by
  obtain ⟨token, rest, rfl, ends⟩ := ends
  rw [reads_iff]
  refine Recipe.reads_argumentsPhrase.mpr ⟨token, rest, rfl, ?_⟩
  rw [if_pos ends]
  exact ⟨rfl, rfl⟩

theorem reads_arguments_nil {text : String} :
    Reads .language (.arguments close) (⟨close, text⟩ :: rest) [] (⟨close, text⟩ :: rest) :=
  reads_arguments_of_ends endsList_close

theorem reads_arguments_cons {first : Expr} {others : List Expr}
    (closing : close ∈ [.closeParen, .closeBracket])
    (read : Reads .language (.expression .assignment) ahead first middle)
    (apart : (Recipe.separator close).Reads (Reads .language) middle () behind)
    (more : Reads .language (.arguments close) behind others left) :
    Reads .language (.arguments close) ahead (first :: others) left := by
  obtain ⟨token, rest, rfl, other⟩ := exists_head_of_reads_expression read
  rw [reads_iff]
  refine Recipe.reads_argumentsPhrase.mpr ⟨token, rest, rfl, ?_⟩
  have member : close ∈ TokenKind.endings := by
    simp only [List.mem_cons, List.not_mem_nil, or_false] at closing
    rcases closing with rfl | rfl <;> decide
  have goesOn : ¬ (token.kind = .endOfInput ∨ token.kind = close) :=
    not_or.mpr ⟨TokenKind.ne_of_not_mem_endings other (by decide),
      TokenKind.ne_of_not_mem_endings other member⟩
  rw [if_neg goesOn]
  exact ⟨first, middle, behind, others, read, apart, more, rfl⟩

theorem reads_parameters_of_ends (ends : EndsList .closeParen left) :
    Reads .language .parameters left [] left := by
  obtain ⟨token, rest, rfl, ends⟩ := ends
  rw [reads_iff]
  refine Recipe.reads_parametersPhrase.mpr ⟨token, rest, rfl, ?_⟩
  rw [if_pos ends]
  exact ⟨rfl, rfl⟩

theorem reads_parameters_nil {text : String} :
    Reads .language .parameters (⟨.closeParen, text⟩ :: rest) [] (⟨.closeParen, text⟩ :: rest) :=
  reads_parameters_of_ends endsList_close

theorem reads_parameters_cons {name colon : String} {type : TypeExpr} {others : List Parameter}
    (read : Reads .language (.type .lowest) ahead type middle)
    (apart : (Recipe.separator .closeParen).Reads (Reads .language) middle () behind)
    (more : Reads .language .parameters behind others left) :
    Reads .language .parameters (⟨.identifier, name⟩ :: ⟨.colon, colon⟩ :: ahead)
      (⟨name, type⟩ :: others) left := by
  rw [reads_iff]
  refine Recipe.reads_parametersPhrase.mpr ⟨_, _, rfl, ?_⟩
  rw [if_neg (by simp)]
  exact ⟨name, colon, ahead, type, middle, behind, others, rfl, read, apart, more, rfl⟩

end Phrase

end ScriptReader
