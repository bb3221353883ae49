/- # ScriptReader.Proofs.Bordering — what may stand behind a phrase

Some recipes read a token last of all. They are closed: what they read, they read in
front of anything at all (`Recipe.Closed`). The others end with a phrase, or with
something that may be left out, and what stands behind them must not go on from them.
`Phrase.Follows` says for each phrase what may stand behind it.

What is read as a phrase of the language is read in front of anything that may follow
it, and has the same value there (`Phrase.Reads.in_front_of`).
-/
import ScriptReader.Proofs.Assembling
import ScriptReader.Proofs.Lookahead

namespace ScriptReader

set_option autoImplicit false

/-! ## Closed recipes -/

namespace Recipe

variable {α β : Type} {tables : Tables}

/-- What the recipe reads is not empty, and it is read in front of anything. -/
def Closed (tables : Tables) (recipe : Recipe α) : Prop :=
  ∀ spent value left, recipe.Reads (Phrase.Reads tables) (spent ++ left) value left →
    spent ≠ [] ∧ ∀ left', recipe.Reads (Phrase.Reads tables) (spent ++ left') value left'

theorem closed_expect {expected : TokenKind} : (expect expected).Closed tables := by
  intro spent token left read
  obtain ⟨whole, same⟩ := reads_expect.mp read
  obtain rfl : spent = [token] := (List.append_left_inj left).mp whole
  exact ⟨by simp, fun left' => reads_expect.mpr ⟨rfl, same⟩⟩

theorem closed_tokenAs {make : Token → Except Cause α} : (tokenAs make).Closed tables := by
  intro spent value left read
  obtain ⟨token, whole, made⟩ := reads_tokenAs.mp read
  obtain rfl : spent = [token] := (List.append_left_inj left).mp whole
  exact ⟨by simp, fun left' => reads_tokenAs.mpr ⟨token, rfl, made⟩⟩

/-- Making something else of the value reads nothing. -/
theorem Closed.yields {recipe : Recipe α} {change : α → β} (closed : recipe.Closed tables) :
    (recipe >>= fun value => return change value).Closed tables := by
  intro spent result left read
  obtain ⟨value, _, read, rfl, rfl⟩ := reads_bind.mp read
  obtain ⟨some, border⟩ := closed spent value _ read
  exact ⟨some, fun left' => reads_bind.mpr ⟨value, left', border left', rfl, rfl⟩⟩

/-- A sequence is closed if the recipe that ends it is. The first recipe is left with the same
token ahead, whatever stands behind the sequence. -/
theorem closed_bind {recipe : Recipe α} {next : α → Recipe β}
    (closed : ∀ value, (next value).Closed tables) : (recipe >>= next).Closed tables := by
  intro spent result left read
  obtain ⟨value, middle, first, second⟩ := reads_bind.mp read
  obtain ⟨before, behind, rfl, rfl⟩ := exists_split
    (first.suffix fun _ _ _ _ inner => inner.suffix)
    (second.suffix fun _ _ _ _ inner => inner.suffix)
  obtain ⟨some, border⟩ := closed value behind result left second
  obtain ⟨token, rest, rfl⟩ := List.exists_cons_of_ne_nil some
  refine ⟨by simp, ?_⟩
  intro left'
  rw [List.append_assoc] at first ⊢
  exact reads_bind.mpr
    ⟨value, _, first.alike_phrases (alike_cons token _ (rest ++ left')), border left'⟩

theorem closed_expectText {expected : TokenKind} : (expectText expected).Closed tables :=
  closed_expect.yields

theorem closed_block : block.Closed tables :=
  closed_bind fun _ => closed_bind fun _ => closed_expect.yields

theorem closed_enclosed {opening closing : TokenKind} :
    (enclosed opening closing).Closed tables :=
  closed_bind fun _ => closed_bind fun _ => closed_expect.yields

theorem closed_functionRest : functionRest.Closed tables :=
  closed_bind fun _ => closed_bind fun _ => closed_bind fun _ => closed_bind fun _ =>
    closed_block.yields

theorem closed_blockStatement : blockStatement.Closed tables := closed_block.yields

theorem closed_expressionStatement : expressionStatement.Closed tables :=
  closed_bind fun _ => closed_expect.yields

end Recipe

/-! ## What may follow -/

/-- What may stand behind a phrase so that the phrase does not go on in it. -/
def Phrase.Follows : Phrase → List Token → Prop
  | .expression _, left | .expressionTail _ _, left => Stops .lowest left
  | .type _, left | .typeTail _ _, left => left ≠ []
  | .statement, left | .conditional, left => EndsStatement left
  | .statements, left => EndsList .closeCurly left
  | .arguments close, left => EndsList close left ∧ Stops .lowest left
  | .parameters, left => EndsList .closeParen left

/-- The phrase is read, and it is read with the same value in front of whatever may follow it. -/
def Bordering : Readings := fun phrase ahead value left =>
  Phrase.Reads .language phrase ahead value left ∧
    ∀ spent left', ahead = spent ++ left → phrase.Follows left' →
      Phrase.Reads .language phrase (spent ++ left') value left'

section Borders

variable {α : Type} {spent left left' ahead rest : List Token} {token : Token}
  {least : Power} {close : TokenKind}

theorem Recipe.Reads.plain {recipe : Recipe α} {value : α}
    (read : recipe.Reads Bordering ahead value left) :
    recipe.Reads (Phrase.Reads .language) ahead value left :=
  read.mono fun _ _ _ _ inner => inner.1

theorem Recipe.Reads.bordering_suffix {recipe : Recipe α} {value : α}
    (read : recipe.Reads Bordering ahead value left) : left <:+ ahead :=
  read.suffix fun _ _ _ _ inner => inner.1.suffix

theorem Phrase.Reads.length_le {tables : Tables} (grounded : tables.Grounded) {phrase : Phrase}
    {value : phrase.Value} (advances : phrase.advances = true)
    (read : Phrase.Reads tables phrase (token :: rest) value left) :
    left.length ≤ rest.length := by
  obtain ⟨levels, read⟩ := read
  exact read.length_le grounded advances

/-- Some phrases read the token that they stand at, whatever it is. -/
theorem Phrase.Reads.exists_head {phrase : Phrase} {value : phrase.Value}
    (advances : phrase.advances = true)
    (read : Phrase.Reads .language phrase (spent ++ left) value left)
    (whole : spent ++ left = token :: rest) : ∃ behind, spent = token :: behind := by
  rw [whole] at read
  exact exists_head_of_length_le whole (read.length_le .language advances)

/-- A rule of the language reads the token that it stands at. -/
theorem exists_head_of_rule {recipe : Recipe α} {rank : Nat} {value : α}
    (opens : recipe.Opens false rank token)
    (read : recipe.Reads (Phrase.Reads .language) (spent ++ left) value left)
    (whole : spent ++ left = token :: rest) : ∃ behind, spent = token :: behind := by
  rw [whole] at read
  exact exists_head_of_length_le whole
    (read.length_le (fun _ _ _ _ inner => inner.suffix)
      (fun _ _ _ _ _ advances inner => inner.length_le .language advances) opens)

/-- What is read up to some place is read in front of something else, if the rest of it is not
empty or the recipe borders on what stands behind. -/
theorem Recipe.Reads.exchange {recipe : Recipe α} {before behind : List Token} {value : α}
    (read : recipe.Reads Bordering (before ++ (behind ++ left)) value (behind ++ left))
    (border : recipe.Reads Bordering (before ++ left) value left →
      recipe.Reads (Phrase.Reads .language) (before ++ left') value left') :
    recipe.Reads (Phrase.Reads .language) (before ++ (behind ++ left')) value
      (behind ++ left') := by
  cases behind with
  | nil => exact border read
  | cons token behind => exact read.plain.alike_phrases (alike_cons token _ _)

theorem Bordering.exchange {phrase : Phrase} {before behind : List Token} {value : phrase.Value}
    (read : Bordering phrase (before ++ (behind ++ left)) value (behind ++ left))
    (follows : phrase.Follows left') :
    Phrase.Reads .language phrase (before ++ (behind ++ left')) value (behind ++ left') := by
  cases behind with
  | nil => exact read.2 before left' rfl follows
  | cons token behind => exact read.1.alike (alike_cons token _ _)

/-! ### Rules -/

open Recipe

theorem PrefixRule.reads_in_front_of (rule : PrefixRule) {value : Expr}
    (stops : Stops .lowest left')
    (read : rule.recipe.Reads Bordering (spent ++ left) value left) :
    rule.recipe.Reads (Phrase.Reads .language) (spent ++ left') value left' := by
  have closed : rule.recipe.Closed .language →
      rule.recipe.Reads (Phrase.Reads .language) (spent ++ left') value left' :=
    fun closed => (closed spent value left read.plain).2 left'
  cases rule with
  | primary => exact closed closed_tokenAs
  | grouping =>
      exact closed <| closed_bind fun _ => closed_bind fun _ => closed_expect.yields
  | array => exact closed closed_enclosed.yields
  | function => exact closed <| closed_bind fun _ => closed_functionRest.yields
  | operation =>
      obtain ⟨operator, rest, operand, whole, ⟨inner, border⟩, rfl⟩ :=
        reads_operation.mp read
      obtain ⟨behind, rfl⟩ := inner.suffix
      obtain rfl : spent = operator :: behind := (List.append_left_inj left).mp whole
      exact reads_operation.mpr
        ⟨operator, behind ++ left', operand, rfl, border behind left' rfl stops, rfl⟩
  | creation =>
      obtain ⟨opening, rest, callee, arguments, whole, ⟨inner, border⟩, rfl⟩ :=
        reads_creation.mp read
      obtain ⟨behind, rfl⟩ := inner.suffix
      obtain rfl : spent = ⟨.newWord, opening⟩ :: behind :=
        (List.append_left_inj left).mp whole
      exact reads_creation.mpr
        ⟨opening, behind ++ left', callee, arguments, rfl, border behind left' rfl stops, rfl⟩

theorem InfixRule.reads_in_front_of (rule : InfixRule) {first value : Expr} {power : Power}
    (stops : Stops .lowest left')
    (read : (rule.recipe first power).Reads Bordering (spent ++ left) value left) :
    (rule.recipe first power).Reads (Phrase.Reads .language) (spent ++ left') value left' := by
  by_cases joins : rule.joins = true
  · obtain ⟨operator, rest, second, whole, ⟨inner, border⟩, rfl⟩ :=
      (reads_joining joins).mp read
    obtain ⟨behind, rfl⟩ := inner.suffix
    obtain rfl : spent = operator :: behind := (List.append_left_inj left).mp whole
    exact (reads_joining joins).mpr
      ⟨operator, behind ++ left', second, rfl, border behind left' rfl stops, rfl⟩
  · have closed : (rule.recipe first power).Closed .language := by
      cases rule with
      | binary | assignment | range => exact absurd rfl joins
      | call => exact closed_enclosed.yields
      | member =>
          refine closed_bind fun operator => ?_
          split
          · exact closed_bind fun _ => closed_expect.yields
          · exact closed_expectText.yields
    exact (closed spent value left read.plain).2 left'

theorem TypePrefixRule.reads_in_front_of (rule : TypePrefixRule) {value : TypeExpr}
    (some : left' ≠ []) (read : rule.recipe.Reads Bordering (spent ++ left) value left) :
    rule.recipe.Reads (Phrase.Reads .language) (spent ++ left') value left' := by
  cases rule with
  | name => exact (closed_expectText.yields spent value left read.plain).2 left'
  | list =>
      obtain ⟨opening, closing, rest, element, whole, ⟨inner, border⟩, rfl⟩ :=
        reads_typeList.mp read
      obtain ⟨behind, rfl⟩ := inner.suffix
      obtain rfl : spent = ⟨.openBracket, opening⟩ :: ⟨.closeBracket, closing⟩ :: behind :=
        (List.append_left_inj left).mp whole
      exact reads_typeList.mpr
        ⟨opening, closing, behind ++ left', element, rfl, border behind left' rfl some, rfl⟩

theorem StatementRule.reads_in_front_of (rule : StatementRule) {value : Statement}
    (ends : EndsStatement left') (read : rule.recipe.Reads Bordering (spent ++ left) value left) :
    rule.recipe.Reads (Phrase.Reads .language) (spent ++ left') value left' := by
  have closed : rule.recipe.Closed .language →
      rule.recipe.Reads (Phrase.Reads .language) (spent ++ left') value left' :=
    fun closed => (closed spent value left read.plain).2 left'
  cases rule with
  | anyStatement =>
      exact reads_statement.mpr ((reads_statement.mp read).2 spent left' rfl ends)
  | conditional =>
      exact reads_conditional.mpr ((reads_conditional.mp read).2 spent left' rfl ends)
  | expression => exact closed closed_expressionStatement
  | block => exact closed closed_blockStatement
  | declaration =>
      exact closed <| closed_bind fun _ => closed_bind fun _ => closed_bind fun _ =>
        closed_bind fun _ => closed_expect.yields
  | function =>
      exact closed <| closed_bind fun _ => closed_bind fun _ => closed_functionRest.yields
  | importing =>
      exact closed <| closed_bind fun _ => closed_bind fun _ => closed_bind fun _ =>
        closed_expect.yields
  | foreach =>
      exact closed <| closed_bind fun _ => closed_bind fun _ => closed_bind fun _ =>
        closed_bind fun _ => closed_bind fun _ => closed_block.yields
  | classDeclaration =>
      exact closed <| closed_bind fun _ => closed_bind fun _ => closed_block.yields
  | returning =>
      exact closed <| closed_bind fun _ => closed_bind fun _ => closed_expect.yields
  | loop =>
      exact closed <| closed_bind fun _ => closed_bind fun _ => closed_block.yields

/-! ### Expressions and types -/

theorem expression_in_front_of {value : Expr} (stops : Stops .lowest left')
    (read : (Recipe.expressionPhrase .language least).Reads Bordering (spent ++ left) value left) :
    Phrase.Reads .language (.expression least) (spent ++ left') value left' := by
  obtain ⟨token, rest, _, first, middle, whole, found, begun, tail, border⟩ :=
    reads_expressionPhrase.mp read
  obtain ⟨rule, -, rfl⟩ := Tables.language_prefixRule_iff.mp found
  obtain ⟨before, behind, rfl, rfl⟩ := exists_split begun.bordering_suffix tail.suffix
  rw [List.append_assoc] at begun whole ⊢
  have begun' := begun.exchange (rule.reads_in_front_of stops)
  obtain ⟨start, rfl⟩ := exists_head_of_rule (rule.opens token) begun.plain whole
  rw [Phrase.reads_iff]
  exact reads_expressionPhrase.mpr
    ⟨token, _, _, first, behind ++ left', rfl, found, begun', border behind left' rfl stops⟩

theorem expressionTail_in_front_of {first value : Expr} (stops : Stops .lowest left')
    (read : (Recipe.expressionTailPhrase .language least first).Reads Bordering (spent ++ left)
      value left) :
    Phrase.Reads .language (.expressionTail least first) (spent ++ left') value left' := by
  obtain ⟨token, rest, whole, ⟨-, rfl, idle⟩ | ⟨tighter, _, joined, middle, found, begun, tail,
    border⟩⟩ := reads_expressionTailPhrase.mp read
  · obtain rfl : spent = [] := List.append_left_eq_self.mp idle.symm
    exact Phrase.reads_tail_of_stops (stops.mono (Nat.zero_le _))
  · obtain ⟨rule, -, rfl⟩ := Tables.language_infixRule_iff.mp found
    obtain ⟨before, behind, rfl, rfl⟩ := exists_split begun.bordering_suffix tail.suffix
    rw [List.append_assoc] at begun whole ⊢
    have begun' := begun.exchange (rule.reads_in_front_of stops)
    obtain ⟨start, rfl⟩ := exists_head_of_rule (rule.opens _ _ token) begun.plain whole
    rw [Phrase.reads_iff]
    exact reads_expressionTailPhrase.mpr
      ⟨token, _, rfl, .inr ⟨tighter, _, joined, behind ++ left', found, begun',
        border behind left' rfl stops⟩⟩

theorem type_in_front_of {value : TypeExpr} (some : left' ≠ [])
    (read : (Recipe.typePhrase .language least).Reads Bordering (spent ++ left) value left) :
    Phrase.Reads .language (.type least) (spent ++ left') value left' := by
  obtain ⟨token, rest, _, first, middle, whole, found, begun, tail, border⟩ :=
    reads_typePhrase.mp read
  obtain ⟨rule, -, rfl⟩ := Tables.language_typePrefixRule_iff.mp found
  obtain ⟨before, behind, rfl, rfl⟩ := exists_split begun.bordering_suffix tail.suffix
  rw [List.append_assoc] at begun whole ⊢
  have begun' := begun.exchange (rule.reads_in_front_of some)
  obtain ⟨start, rfl⟩ := exists_head_of_rule (rule.opens token) begun.plain whole
  rw [Phrase.reads_iff]
  exact reads_typePhrase.mpr
    ⟨token, _, _, first, behind ++ left', rfl, found, begun', border behind left' rfl some⟩

theorem typeTail_in_front_of {first value : TypeExpr} (some : left' ≠ [])
    (read : (Recipe.typeTailPhrase .language least first).Reads Bordering (spent ++ left) value
      left) : Phrase.Reads .language (.typeTail least first) (spent ++ left') value left' := by
  obtain ⟨-, rfl, idle⟩ := (reads_typeTailPhrase Tables.language_typeInfixPower).mp read
  obtain rfl : spent = [] := List.append_left_eq_self.mp idle.symm
  exact Phrase.reads_typeTail_of_ne_nil some

/-! ### Statements -/

theorem statement_in_front_of {value : Statement} (ends : EndsStatement left')
    (read : (Recipe.statementPhrase .language).Reads Bordering (spent ++ left) value left) :
    Phrase.Reads .language .statement (spent ++ left') value left' := by
  obtain ⟨token, rest, whole, begun⟩ := reads_statementPhrase.mp read
  have plain : Phrase.Reads .language .statement (spent ++ left) value left :=
    Phrase.reads_iff.mpr read.plain
  obtain ⟨start, rfl⟩ := plain.exists_head rfl whole
  rw [Phrase.reads_iff]
  refine reads_statementPhrase.mpr ⟨token, start ++ left', rfl, ?_⟩
  rcases begun with ⟨none, content⟩ | ⟨_, found, content⟩
  · exact .inl ⟨none, (closed_expressionStatement (token :: start) _ _ content.plain).2 left'⟩
  · obtain ⟨rule, -, rfl⟩ := Tables.language_statementRule_iff.mp found
    exact .inr ⟨_, found, rule.reads_in_front_of ends content⟩

/-- Behind the block of a condition, `else` is read if it stands there, so what follows instead
may be anything else. -/
theorem alternative_in_front_of {value : Option Statement} (ends : EndsStatement left')
    (read : (optional .elseWord (ifKind .ifWord Recipe.conditional blockStatement)).Reads
      Bordering (spent ++ left) value left) :
    (optional .elseWord (ifKind .ifWord Recipe.conditional blockStatement)).Reads
      (Phrase.Reads .language) (spent ++ left') value left' := by
  rcases reads_optional.mp read with ⟨text, rest, other, whole, rfl, inner⟩ |
    ⟨token, rest, whole, -, rfl, idle⟩
  · obtain ⟨behind, rfl⟩ := inner.bordering_suffix
    obtain rfl : spent = ⟨.elseWord, text⟩ :: behind := (List.append_left_inj left).mp whole
    refine reads_optional_some ?_
    obtain ⟨token, rest, whole, inner⟩ := reads_ifKind.mp inner
    split at inner
    · rename_i again
      have inner := reads_conditional.mp inner
      obtain ⟨start, rfl⟩ := inner.1.exists_head rfl whole
      refine reads_ifKind.mpr ⟨token, start ++ left', rfl, ?_⟩
      rw [if_pos again]
      exact reads_conditional.mpr (inner.2 (token :: start) left' rfl ends)
    · rename_i last
      obtain ⟨some, border⟩ := closed_blockStatement behind _ _ inner.plain
      obtain ⟨_, start, rfl⟩ := List.exists_cons_of_ne_nil some
      obtain rfl := (List.cons.inj whole).1
      refine reads_ifKind.mpr ⟨_, start ++ left', rfl, ?_⟩
      rw [if_neg last]
      exact border left'
  · obtain rfl : spent = [] := List.append_left_eq_self.mp idle.symm
    obtain ⟨token, rest, rfl, other⟩ := ends
    exact reads_optional_none other

theorem conditional_in_front_of {value : Statement} (ends : EndsStatement left')
    (read : Recipe.conditionalPhrase.Reads Bordering (spent ++ left) value left) :
    Phrase.Reads .language .conditional (spent ++ left') value left' := by
  obtain ⟨opening, rest, condition, middle, consequent, behind, alternative, whole, test, block,
    other, rfl⟩ := reads_conditionalPhrase.mp read
  have short : left.length ≤ rest.length :=
    ((other.bordering_suffix.trans block.bordering_suffix).trans test.1.suffix).length_le
  obtain ⟨start, rfl⟩ := exists_head_of_length_le whole short
  obtain rfl : start ++ left = rest := (List.cons.inj whole).2
  obtain ⟨before, inside, rfl, rfl⟩ := exists_split test.1.suffix
    (other.bordering_suffix.trans block.bordering_suffix)
  obtain ⟨body, last, rfl, rfl⟩ := exists_split block.bordering_suffix other.bordering_suffix
  have other' := alternative_in_front_of ends other
  rw [List.append_assoc] at block
  obtain ⟨some, border⟩ := closed_block body _ _ block.plain
  obtain ⟨curly, body, rfl⟩ := List.exists_cons_of_ne_nil some
  have test' : Phrase.Reads .language (.expression .assignment)
      (before ++ (curly :: body ++ (last ++ left'))) condition
      (curly :: body ++ (last ++ left')) := by
    have read := test.1
    rw [List.append_assoc] at read
    exact read.alike (alike_cons curly _ _)
  rw [Phrase.reads_iff]
  refine reads_conditionalPhrase.mpr ⟨opening, _, condition, _, consequent, _, alternative,
    ?_, test', border (last ++ left'), other', rfl⟩
  simp

/-! ### Lists -/

theorem statements_in_front_of {body : List Statement} (ends : EndsList .closeCurly left')
    (read : Recipe.statementsPhrase.Reads Bordering (spent ++ left) body left) :
    Phrase.Reads .language .statements (spent ++ left') body left' := by
  obtain ⟨token, rest, whole, read⟩ := reads_statementsPhrase.mp read
  split at read
  · obtain ⟨rfl, idle⟩ := read
    obtain rfl : spent = [] := List.append_left_eq_self.mp idle.symm
    exact Phrase.reads_statements_of_ends ends
  · obtain ⟨first, middle, others, head, tail, rfl⟩ := read
    obtain ⟨before, behind, rfl, rfl⟩ := exists_split head.1.suffix tail.1.suffix
    rw [List.append_assoc] at head ⊢
    exact Phrase.reads_statements_cons (head.exchange ends.endsStatement)
      (tail.2 behind left' rfl ends)

theorem separator_in_front_of (ends : EndsList close left')
    (read : (Recipe.separator close).Reads Bordering (spent ++ left) () left) :
    (Recipe.separator close).Reads (Phrase.Reads .language) (spent ++ left') () left' := by
  obtain ⟨token, rest, whole, read⟩ := reads_separator.mp read
  split at read
  · obtain rfl : spent = [] := List.append_left_eq_self.mp read.symm
    exact reads_separator_of_ends ends
  · obtain ⟨comma, rfl⟩ := read
    obtain rfl : spent = [token] := (List.append_left_inj left).mp whole
    refine reads_separator.mpr ⟨token, left', rfl, ?_⟩
    rw [if_neg ‹_›]
    exact ⟨comma, rfl⟩

theorem arguments_in_front_of {contents : List Expr} (ends : EndsList close left')
    (stops : Stops .lowest left')
    (read : (Recipe.argumentsPhrase close).Reads Bordering (spent ++ left) contents left) :
    Phrase.Reads .language (.arguments close) (spent ++ left') contents left' := by
  obtain ⟨token, rest, whole, read⟩ := reads_argumentsPhrase.mp read
  split at read
  · obtain ⟨rfl, idle⟩ := read
    obtain rfl : spent = [] := List.append_left_eq_self.mp idle.symm
    exact Phrase.reads_arguments_of_ends ends
  · rename_i goesOn
    obtain ⟨first, middle, further, others, head, apart, tail, rfl⟩ := read
    obtain ⟨before, behind, rfl, rfl⟩ := exists_split head.1.suffix
      (tail.1.suffix.trans apart.bordering_suffix)
    obtain ⟨mark, last, rfl, rfl⟩ := exists_split apart.bordering_suffix tail.1.suffix
    simp only [List.append_assoc] at whole head apart ⊢
    obtain ⟨start, rfl⟩ := head.1.exists_head rfl whole
    have head : Bordering (.expression .assignment) (token :: start ++ (mark ++ last ++ left)) first
        (mark ++ last ++ left) := by simpa using head
    have head' : Phrase.Reads .language (.expression .assignment)
        (token :: start ++ (mark ++ last ++ left')) first (mark ++ last ++ left') :=
      head.exchange stops
    rw [List.append_assoc] at head'
    rw [Phrase.reads_iff]
    refine reads_argumentsPhrase.mpr ⟨token, _, rfl, ?_⟩
    rw [if_neg goesOn]
    exact ⟨first, _, _, others, head', apart.exchange (separator_in_front_of ends),
      tail.2 last left' rfl ⟨ends, stops⟩, rfl⟩

theorem parameters_in_front_of {names : List Parameter} (ends : EndsList .closeParen left')
    (read : Recipe.parametersPhrase.Reads Bordering (spent ++ left) names left) :
    Phrase.Reads .language .parameters (spent ++ left') names left' := by
  obtain ⟨token, rest, whole, read⟩ := reads_parametersPhrase.mp read
  split at read
  · obtain ⟨rfl, idle⟩ := read
    obtain rfl : spent = [] := List.append_left_eq_self.mp idle.symm
    exact Phrase.reads_parameters_of_ends ends
  · obtain ⟨name, colon, inside, type, middle, further, others, parts, head, apart, tail, rfl⟩ :=
      read
    obtain ⟨start, rfl⟩ := (tail.1.suffix.trans apart.bordering_suffix).trans head.1.suffix
    obtain rfl : spent = ⟨.identifier, name⟩ :: ⟨.colon, colon⟩ :: start :=
      (List.append_left_inj left).mp parts
    obtain ⟨before, behind, rfl, rfl⟩ := exists_split head.1.suffix
      (tail.1.suffix.trans apart.bordering_suffix)
    obtain ⟨mark, last, rfl, rfl⟩ := exists_split apart.bordering_suffix tail.1.suffix
    rw [List.append_assoc] at head apart
    have head' : Phrase.Reads .language (.type .lowest) (before ++ (mark ++ last ++ left')) type
        (mark ++ last ++ left') := head.exchange ends.ne_nil
    rw [List.append_assoc] at head'
    have whole : ∀ left : List Token,
        ⟨.identifier, name⟩ :: ⟨.colon, colon⟩ :: (before ++ (mark ++ last)) ++ left =
          ⟨.identifier, name⟩ :: ⟨.colon, colon⟩ :: (before ++ (mark ++ (last ++ left))) := by simp
    rw [whole]
    exact Phrase.reads_parameters_cons head' (apart.exchange (separator_in_front_of ends))
      (tail.2 last left' rfl ends)

end Borders

/-- **What is read as a phrase is read in front of whatever may follow it**, and has the same
value there. -/
theorem Phrase.Reads.in_front_of {phrase : Phrase} {spent left left' : List Token}
    {value : phrase.Value} (follows : phrase.Follows left')
    (read : Phrase.Reads .language phrase (spent ++ left) value left) :
    Phrase.Reads .language phrase (spent ++ left') value left' := by
  refine Phrase.Reads.induct (motive := fun phrase ahead value left => ∀ spent left',
    ahead = spent ++ left → phrase.Follows left' →
      Phrase.Reads .language phrase (spent ++ left') value left') ?_ read spent left' rfl follows
  rintro phrase ahead value left read spent left' rfl follows
  cases phrase with
  | expression least => exact expression_in_front_of follows read
  | expressionTail least first => exact expressionTail_in_front_of follows read
  | type least => exact type_in_front_of follows read
  | typeTail least first => exact typeTail_in_front_of follows read
  | statement => exact statement_in_front_of follows read
  | statements => exact statements_in_front_of follows read
  | conditional => exact conditional_in_front_of follows read
  | arguments close => exact arguments_in_front_of follows.1 follows.2 read
  | parameters => exact parameters_in_front_of follows read

end ScriptReader
