/- # ScriptReader.Proofs.Completeness — what the grammar derives is read

Each category of the grammar says what can be read of tokens that have its form
(`Readable`), and every rule of the grammar establishes it (`readable_of_rule`).
What stands behind matters: an expression is read to its end only in front of a
token that does not go on from it, and a statement only where no `else` follows.

An operand does not say under which power it is read, so it says how an
expression goes on behind it under any power (`Begins`). A row of operands is then
read whatever the powers of its operators are: each right operand takes a part of
the row, and the rest is left to the whole (`exists_reads_tail_of_row`).
-/
import ScriptReader.Proofs.Assembling
import ScriptReader.Proofs.Grammar

namespace ScriptReader

set_option autoImplicit false

open Phrase (Reads)

/-! ## What the categories mean for readings -/

/-- An expression begins ahead, and whatever goes on from what it begins with is left. -/
def Begins (ahead left : List Token) : Prop :=
  ∃ value, ∀ (least : Power) (whole : Expr) (last : List Token), least < .call →
    Reads .language (.expressionTail least value) left whole last →
    Reads .language (.expression least) ahead whole last

/-- An expression goes on ahead, whatever it began with, and goes on again at what is left. -/
def GoesOn (ahead left : List Token) : Prop :=
  ∀ first, ∃ value, ∀ (least : Power) (whole : Expr) (last : List Token), least < .call →
    Reads .language (.expressionTail least value) left whole last →
    Reads .language (.expressionTail least first) ahead whole last

/-- What can be read where something of the category stands in front of `left`. -/
def Readable : Category → List Token → List Token → Prop
  | .statement, ahead, left =>
    EndsStatement left → ∃ statement, Reads .language .statement ahead statement left
  | .conditional, ahead, left =>
    (∃ text rest, ahead = ⟨.ifWord, text⟩ :: rest) ∧
      (EndsStatement left → ∃ statement, Reads .language .conditional ahead statement left)
  | .block, ahead, left =>
    (∃ text rest, ahead = ⟨.openCurly, text⟩ :: rest) ∧
      ∃ body, Recipe.block.Reads (Reads .language) ahead body left
  | .signature, ahead, left =>
    ∃ signature body, Recipe.functionRest.Reads (Reads .language) ahead (signature, body) left
  | .parameter, ahead, left =>
    ∃ name colon rest type, ahead = ⟨.identifier, name⟩ :: ⟨.colon, colon⟩ :: rest ∧
      (left ≠ [] → Reads .language (.type .lowest) rest type left)
  | .type, ahead, left => left ≠ [] → ∃ type, Reads .language (.type .lowest) ahead type left
  | .expression operators, ahead, left =>
    ∀ least, operators ⊆ TokenKind.joining →
      (∀ kind ∈ operators, least < Tables.language.power kind) → least < .call →
      Stops .lowest left → ∃ value, Reads .language (.expression least) ahead value left
  | .operand, ahead, left => Stops .unary left → Begins ahead left
  | .creation, ahead, left => Stops .lowest left → Begins ahead left
  | .chain, ahead, left => Begins ahead left
  | .primary, ahead, left => Begins ahead left
  | .continuation, ahead, left => GoesOn ahead left
  | .call, ahead, left =>
    Stops .lowest left → ∃ callee arguments,
      Reads .language (.expression .lowest) ahead (.call callee arguments) left

section Rules

variable {ahead middle left rest : List Token} {least : Power} {value : Expr} {token : Token}

/-! ## Operands -/

theorem Begins.reads (begins : Begins ahead left) (least_lt : least < .call)
    (stops : Stops least left) : ∃ value, Reads .language (.expression least) ahead value left := by
  obtain ⟨value, goesOn⟩ := begins
  exact ⟨value, goesOn least value left least_lt (Phrase.reads_tail_of_stops stops)⟩

theorem begins_of_prefixRule (rule : PrefixRule) {kind : TokenKind} {text : String}
    (found : kind ∈ rule.kinds)
    (read : rule.recipe.Reads (Reads .language) (⟨kind, text⟩ :: rest) value left) :
    Begins (⟨kind, text⟩ :: rest) left :=
  ⟨value, fun _ _ _ _ tail => Phrase.reads_expression_of_prefixRule rule found read tail⟩

theorem Begins.goesOn (begins : Begins ahead middle) (goesOn : GoesOn middle left) :
    Begins ahead left := by
  obtain ⟨first, opened⟩ := begins
  obtain ⟨value, further⟩ := goesOn first
  refine ⟨value, ?_⟩
  intro least whole last least_lt tail
  exact opened least whole last least_lt (further least whole last least_lt tail)

/-- Signs in front of what begins an expression. -/
theorem begins_of_signs (signs : Relation.ReflTransGen
      ((Pattern.token TokenKind.signs).Spells Readable) ahead middle)
    (begins : Begins middle left) (stops : Stops .unary left) : Begins ahead left := by
  induction signs using Relation.ReflTransGen.head_induction_on with
  | refl => exact begins
  | head step _ ih =>
      obtain ⟨sign, rfl, member, -⟩ := step
      obtain ⟨operand, read⟩ := ih.reads (by decide) stops
      exact begins_of_prefixRule .operation member
        (Recipe.reads_operation.mpr ⟨sign, _, operand, rfl, read, rfl⟩)

/-! ## Rows of operands -/

/-- So many operators of the given kinds, with operands between them, ahead of `left`. -/
def Row (operators : List TokenKind) (left : List Token) : Nat → List Token → Prop
  | 0, ahead => Begins ahead left
  | count + 1, ahead =>
    ∃ operator rest, operator.kind ∈ operators ∧ Begins ahead (operator :: rest) ∧
      Row operators left count rest

/-- Where a reading under the power ends inside a row: at its end, or at an operator that the
power does not take. -/
def HaltsIn (operators : List TokenKind) (left : List Token) (least : Power) (count : Nat)
    (last : List Token) : Prop :=
  last = left ∨
    ∃ operator rest count', count' ≤ count ∧ last = operator :: rest ∧
      operator.kind ∈ operators ∧ ¬ least < Tables.language.power operator.kind ∧
      Row operators left count' rest

theorem HaltsIn.mono {operators : List TokenKind} {count count' : Nat} {last : List Token}
    (le : count ≤ count') (halts : HaltsIn operators left least count last) :
    HaltsIn operators left least count' last := by
  rcases halts with rfl | ⟨operator, rest, inside, fewer, rfl, member, stops, row⟩
  · exact .inl rfl
  · exact .inr ⟨operator, rest, inside, Nat.le_trans fewer le, rfl, member, stops, row⟩

/-- A right operand binds no tighter than an operator, so it is read below a call's power. -/
theorem rightPower_lt_call {kind : TokenKind} (joining : kind ∈ TokenKind.joining)
    (tighter : least < Tables.language.power kind) (rule : InfixRule) :
    rule.rightPower (Tables.language.power kind) < .call := by
  have below := (le_rightPower tighter rule).2
  have looser := (Tables.language_power_of_joining joining).2
  rw [Power.le_iff_rank] at below
  rw [Power.lt_iff_rank] at looser ⊢
  have unary : Power.unary.rank < Power.call.rank := by decide
  omega

/-- Behind an operator and in front of a row, an expression goes on as far as its power
takes it. The induction is on the operators of the row: the right operand takes some of
them, and the whole goes on with those that it leaves. -/
theorem exists_reads_tail_of_row {operators : List TokenKind}
    (joining : operators ⊆ TokenKind.joining) (stops : Stops .lowest left) (count : Nat) :
    ∀ {operator : Token} {rest : List Token} (least : Power) (first : Expr),
      operator.kind ∈ operators → least < .call → Row operators left count rest →
      ∃ whole last,
        Reads .language (.expressionTail least first) (operator :: rest) whole last ∧
          HaltsIn operators left least count last := by
  induction count using Nat.strongRecOn with
  | ind count ih =>
      intro operator rest least first member least_lt row
      by_cases tighter : least < Tables.language.power operator.kind
      · obtain ⟨rule, joins, kind⟩ := Tables.exists_joins_of_joining (joining member)
        have right_lt := rightPower_lt_call (joining member) tighter rule
        have atEnd : ∀ value, Reads .language (.expressionTail least value) left value left :=
          fun value => Phrase.reads_tail_of_stops (stops.mono (Nat.zero_le _))
        cases count with
        | zero =>
            have begins : Begins rest left := row
            obtain ⟨second, operand⟩ := begins.reads right_lt (stops.mono (Nat.zero_le _))
            have tail := atEnd (rule.join first operator second)
            exact ⟨_, left, Phrase.reads_tail_of_joins joins kind tighter operand tail, .inl rfl⟩
        | succ count =>
            obtain ⟨operator', rest', member', ⟨value, opened⟩, row'⟩ := row
            obtain ⟨second, middle, tail', halts⟩ :=
              ih count (Nat.lt_succ_self _) _ value member' right_lt row'
            have operand := opened _ second middle right_lt tail'
            rcases halts with rfl | ⟨operator'', rest'', inside, fewer, rfl, member'', -, row''⟩
            · have tail := atEnd (rule.join first operator second)
              exact ⟨_, _, Phrase.reads_tail_of_joins joins kind tighter operand tail, .inl rfl⟩
            · obtain ⟨whole, last, tail, halts⟩ := ih inside (Nat.lt_succ_of_le fewer) least
                (rule.join first operator second) member'' least_lt row''
              refine ⟨whole, last, Phrase.reads_tail_of_joins joins kind tighter operand tail, ?_⟩
              exact halts.mono (Nat.le_trans fewer (Nat.le_succ _))
      · refine ⟨first, operator :: rest, ?_, .inr ?_⟩
        · exact Phrase.reads_tail_of_stops ⟨operator, rest, rfl, tighter⟩
        · exact ⟨operator, rest, count, Nat.le_refl _, rfl, member, tighter, row⟩

/-- A row is read to its end under a power that takes all its operators. -/
theorem exists_reads_of_row {operators : List TokenKind} (joining : operators ⊆ TokenKind.joining)
    (above : ∀ kind ∈ operators, least < Tables.language.power kind) (least_lt : least < .call)
    (stops : Stops .lowest left) {count : Nat} (row : Row operators left count ahead) :
    ∃ value, Reads .language (.expression least) ahead value left := by
  cases count with
  | zero =>
      have begins : Begins ahead left := row
      exact begins.reads least_lt (stops.mono (Nat.zero_le _))
  | succ count =>
      obtain ⟨operator, rest, member, ⟨value, opened⟩, row⟩ := row
      obtain ⟨whole, last, tail, halts⟩ :=
        exists_reads_tail_of_row joining stops count least value member least_lt row
      rcases halts with rfl | ⟨operator', _, _, _, _, member', halted, _⟩
      · exact ⟨whole, opened least whole _ least_lt tail⟩
      · exact absurd (above _ member') halted

theorem stops_of_joining (joining : token.kind ∈ TokenKind.joining) :
    Stops .unary (token :: rest) := by
  have looser := (Tables.language_power_of_joining joining).2
  refine ⟨token, rest, rfl, ?_⟩
  rw [Power.lt_iff_rank] at looser ⊢
  omega

theorem exists_row_of_operands {operators : List TokenKind} (joining : operators ⊆ TokenKind.joining)
    (stops : Stops .lowest left)
    (spells : (Pattern.operands operators).Spells Readable ahead left) :
    ∃ count, Row operators left count ahead := by
  obtain ⟨middle, first, others⟩ := spells
  induction others using Relation.ReflTransGen.head_induction_on generalizing ahead with
  | refl => exact ⟨0, first (stops.mono (Nat.zero_le _))⟩
  | head step _ ih =>
      obtain ⟨rest, ⟨operator, rfl, member, -⟩, operand⟩ := step
      obtain ⟨count, row⟩ := ih operand
      exact ⟨count + 1, operator, rest, member, first (stops_of_joining (joining member)), row⟩

theorem exists_row_of_upToCreation {operators : List TokenKind}
    (joining : operators ⊆ TokenKind.joining) (stops : Stops .lowest left)
    (spells : (Pattern.upToCreation operators).Spells Readable ahead left) :
    ∃ count, Row operators left count ahead := by
  obtain ⟨middle, others, last⟩ := spells
  induction others using Relation.ReflTransGen.head_induction_on with
  | refl => exact ⟨0, last stops⟩
  | head step _ ih =>
      obtain ⟨_, operand, operator, rfl, member, -⟩ := step
      obtain ⟨count, row⟩ := ih
      exact ⟨count + 1, operator, _, member, operand (stops_of_joining (joining member)), row⟩

/-! ## Lists -/

/-- Items with commas between them are read from the last to the first. -/
theorem reads_of_separated {item : Pattern} {close : TokenKind} {text : String}
    (listed : List Token → Prop) (other : close ≠ .comma)
    (closes : Tables.language.power close = .lowest)
    (nil : listed (⟨close, text⟩ :: rest))
    (step : ∀ ahead middle behind, item.Spells Readable ahead middle → Stops .lowest middle →
      (Recipe.separator close).Reads (Reads .language) middle () behind → listed behind →
      listed ahead)
    (spells : (Pattern.separated item).Spells Readable ahead (⟨close, text⟩ :: rest)) :
    listed ahead := by
  rcases spells with rfl | ⟨middle, first, last, others, trailing⟩
  · exact nil
  · induction others using Relation.ReflTransGen.head_induction_on generalizing ahead with
    | refl =>
        rcases trailing with rfl | ⟨⟨kind, comma⟩, rfl, member, -⟩
        · exact step _ _ _ first (stops_of_kind closes) Recipe.reads_separator_close nil
        · cases List.mem_singleton.mp member
          exact step _ _ _ first (stops_of_kind rfl) (Recipe.reads_separator_comma other) nil
    | head again _ ih =>
        obtain ⟨behind, ⟨⟨kind, comma⟩, rfl, member, -⟩, item⟩ := again
        cases List.mem_singleton.mp member
        exact step _ _ _ first (stops_of_kind rfl) (Recipe.reads_separator_comma other) (ih item)

theorem reads_plainExpression (readable : Readable .plainExpression ahead left)
    (stops : Stops .lowest left) :
    ∃ value, Reads .language (.expression .assignment) ahead value left := by
  refine readable .assignment (by decide) ?_ (by decide) stops
  decide

theorem reads_anyExpression (readable : Readable .anyExpression ahead left)
    (stops : Stops .lowest left) :
    ∃ value, Reads .language (.expression .lowest) ahead value left := by
  refine readable .lowest (fun _ => id) ?_ (by decide) stops
  decide

theorem exists_reads_arguments {close : TokenKind} {text : String}
    (closing : close ∈ [.closeParen, .closeBracket])
    (spells : Pattern.arguments.Spells Readable ahead (⟨close, text⟩ :: rest)) :
    ∃ contents, Reads .language (.arguments close) ahead contents (⟨close, text⟩ :: rest) := by
  have known : close ≠ .comma ∧ Tables.language.power close = .lowest := by
    revert closing
    cases close <;> decide
  refine reads_of_separated
    (fun ahead => ∃ contents,
      Reads .language (.arguments close) ahead contents (⟨close, text⟩ :: rest))
    known.1 known.2 ⟨[], Phrase.reads_arguments_nil⟩ ?_ spells
  rintro ahead middle behind item stops apart ⟨others, more⟩
  obtain ⟨value, read⟩ := reads_plainExpression item stops
  exact ⟨value :: others, Phrase.reads_arguments_cons closing read apart more⟩

theorem exists_reads_parameters {text : String}
    (spells : (Pattern.separated (.part .parameter)).Spells Readable ahead
      (⟨.closeParen, text⟩ :: rest)) :
    ∃ names, Reads .language .parameters ahead names (⟨.closeParen, text⟩ :: rest) := by
  refine reads_of_separated
    (fun ahead => ∃ names,
      Reads .language .parameters ahead names (⟨.closeParen, text⟩ :: rest))
    (by decide) (by decide) ⟨[], Phrase.reads_parameters_nil⟩ ?_ spells
  rintro ahead middle behind item stops apart ⟨others, more⟩
  obtain ⟨name, colon, inside, type, rfl, read⟩ := item
  exact ⟨⟨name, type⟩ :: others, Phrase.reads_parameters_cons (read stops.ne_nil) apart more⟩

theorem exists_reads_statements {text : String} (steps : Relation.ReflTransGen
      ((Pattern.part .statement).Spells Readable) ahead (⟨.closeCurly, text⟩ :: rest)) :
    ∃ body, Reads .language .statements ahead body (⟨.closeCurly, text⟩ :: rest) := by
  induction steps using Relation.ReflTransGen.head_induction_on with
  | refl => exact ⟨[], Phrase.reads_statements_nil⟩
  | head step _ ih =>
      obtain ⟨body, more⟩ := ih
      obtain ⟨statement, read⟩ := step (Phrase.endsStatement_of_reads_statements more)
      exact ⟨statement :: body, Phrase.reads_statements_cons read more⟩

/-! ## The rules of the grammar -/

/-- A word, in a reading put together from the grammar. -/
theorem spells_word {kind : TokenKind} (spells : (Pattern.word kind).Spells Readable ahead left) :
    ∃ text, ahead = ⟨kind, text⟩ :: left := by
  obtain ⟨⟨_, text⟩, rfl, member, -⟩ := spells
  cases List.mem_singleton.mp member
  exact ⟨text, rfl⟩

theorem exists_reads_enclosed {open' close : TokenKind} (closing : close ∈ [.closeParen, .closeBracket])
    (spells : (Pattern.inOrder [.word open', .arguments, .word close]).Spells Readable ahead left) :
    ∃ contents, (Recipe.enclosed open' close).Reads (Reads .language) ahead contents left := by
  obtain ⟨inside, opening, behind, inner, last⟩ := spells
  obtain ⟨text, rfl⟩ := spells_word opening
  obtain ⟨text', rfl⟩ := spells_word last
  obtain ⟨contents, read⟩ := exists_reads_arguments closing inner
  exact ⟨contents, Recipe.reads_enclosed.mpr ⟨text, inside, text', rfl, read⟩⟩

theorem readable_primary (spells : Category.primary.rule.Spells Readable ahead left) :
    Readable .primary ahead left := by
  rcases spells with ⟨token, rfl, member, legible⟩ | ⟨inside, opening, behind, inner, last⟩ | enclosed |
    ⟨inside, opening, inner⟩
  · obtain ⟨value, made⟩ : ∃ value, Recipe.ofToken token = .ok value := by
      obtain ⟨kind, text⟩ := token
      simp only [List.mem_cons, List.not_mem_nil, or_false] at member
      rcases member with rfl | rfl | rfl
      · obtain ⟨value, found⟩ := Option.isSome_iff_exists.mp (legible rfl)
        exact ⟨.number value, by simp [Recipe.ofToken, found]⟩
      · exact ⟨.text text, rfl⟩
      · exact ⟨.symbol text, rfl⟩
    exact begins_of_prefixRule .primary member (Recipe.reads_primary.mpr ⟨token, rfl, made⟩)
  · obtain ⟨text, rfl⟩ := spells_word opening
    obtain ⟨text', rfl⟩ := spells_word last
    obtain ⟨value, read⟩ := reads_anyExpression inner (stops_of_kind rfl)
    exact begins_of_prefixRule .grouping (by decide)
      (Recipe.reads_grouping.mpr ⟨text, inside, text', rfl, read⟩)
  · obtain ⟨elements, read⟩ := exists_reads_enclosed (by decide) enclosed
    obtain ⟨text, inside, text', rfl, inner⟩ := Recipe.reads_enclosed.mp read
    exact begins_of_prefixRule .array (by decide) (Recipe.reads_array.mpr ⟨elements, read, rfl⟩)
  · obtain ⟨text, rfl⟩ := spells_word opening
    obtain ⟨signature, body, read⟩ := inner
    exact begins_of_prefixRule .function (by decide)
      (Recipe.reads_functionLiteral.mpr ⟨text, inside, signature, body, rfl, read, rfl⟩)

/-- What an infix rule reads by itself goes on from an expression under any power below it. -/
theorem goesOn_of_infixRule (rule : InfixRule) {kind : TokenKind} {text : String}
    (found : kind ∈ rule.kinds) (tight : .call ≤ Tables.language.power kind)
    (read : ∀ first, ∃ value, (rule.recipe first (Tables.language.power kind)).Reads
      (Reads .language) (⟨kind, text⟩ :: rest) value left) : GoesOn (⟨kind, text⟩ :: rest) left := by
  intro first
  obtain ⟨value, read⟩ := read first
  refine ⟨value, ?_⟩
  intro least whole last least_lt tail
  have tighter : least < Tables.language.power kind := by
    rw [Power.le_iff_rank] at tight
    rw [Power.lt_iff_rank] at least_lt ⊢
    omega
  exact Phrase.reads_tail_of_infixRule rule found tighter read tail

theorem exists_reads_call
    (spells : (Pattern.inOrder [.word .openParen, .arguments, .word .closeParen]).Spells Readable
      ahead left) :
    ∃ arguments text rest, ahead = ⟨.openParen, text⟩ :: rest ∧
      ∀ first, (Recipe.call first).Reads (Reads .language) ahead (.call first arguments) left := by
  obtain ⟨arguments, read⟩ := exists_reads_enclosed (by decide) spells
  obtain ⟨text, inside, text', rfl, -⟩ := Recipe.reads_enclosed.mp read
  exact ⟨arguments, text, inside, rfl, fun first => Recipe.reads_call.mpr ⟨arguments, read, rfl⟩⟩

theorem readable_continuation (spells : Category.continuation.rule.Spells Readable ahead left) :
    Readable .continuation ahead left := by
  rcases spells with ⟨inside, opening, last⟩ | ⟨inside, opening, behind, inner, last⟩ | spells
  · obtain ⟨text, rfl⟩ := spells_word opening
    obtain ⟨name, rfl⟩ := spells_word last
    refine goesOn_of_infixRule .member (by decide) (by decide) fun first => ⟨.member first name, ?_⟩
    exact Recipe.reads_member.mpr (.inr ⟨_, name, rfl, nofun, rfl⟩)
  · obtain ⟨text, rfl⟩ := spells_word opening
    obtain ⟨text', rfl⟩ := spells_word last
    obtain ⟨index, read⟩ := reads_anyExpression inner (stops_of_kind rfl)
    refine goesOn_of_infixRule .member (by decide) (by decide) fun first => ⟨.element first index, ?_⟩
    exact Recipe.reads_member.mpr (.inl ⟨text, inside, index, text', rfl, read, rfl⟩)
  · obtain ⟨arguments, text, rest, rfl, read⟩ := exists_reads_call spells
    exact goesOn_of_infixRule .call (by decide) (by decide)
      fun first => ⟨.call first arguments, read first⟩

theorem readable_chain (spells : Category.chain.rule.Spells Readable ahead left) :
    Readable .chain ahead left := by
  obtain ⟨middle, primary, others⟩ := spells
  induction others using Relation.ReflTransGen.head_induction_on generalizing ahead with
  | refl => exact primary
  | head step _ ih => exact ih (Begins.goesOn primary step)

theorem readable_call (spells : Category.call.rule.Spells Readable ahead left) :
    Readable .call ahead left := by
  intro stops
  rcases spells with ⟨middle, chain, spells⟩ | ⟨inside, opening, behind, inner, last⟩
  · obtain ⟨callee, opened⟩ := chain
    obtain ⟨arguments, text, rest, rfl, read⟩ := exists_reads_call spells
    have tail : Reads .language (.expressionTail .lowest callee) (⟨.openParen, text⟩ :: rest)
        (.call callee arguments) left :=
      Phrase.reads_tail_of_infixRule .call (by decide) (by decide) (read callee)
        (Phrase.reads_tail_of_stops stops)
    exact ⟨callee, arguments, opened .lowest _ _ (by decide) tail⟩
  · obtain ⟨text, rfl⟩ := spells_word opening
    obtain ⟨text', rfl⟩ := spells_word last
    obtain ⟨callee, arguments, read⟩ := inner (stops_of_kind rfl)
    refine ⟨callee, arguments, Phrase.reads_expression_of_prefixRule .grouping (by decide) ?_
      (Phrase.reads_tail_of_stops stops)⟩
    exact Recipe.reads_grouping.mpr ⟨text, inside, text', rfl, read⟩

theorem readable_creation (spells : Category.creation.rule.Spells Readable ahead left) :
    Readable .creation ahead left := by
  intro stops
  obtain ⟨middle, signs, inside, opening, call⟩ := spells
  obtain ⟨text, rfl⟩ := spells_word opening
  obtain ⟨callee, arguments, read⟩ := call stops
  have begins := begins_of_prefixRule .creation (by decide)
    (Recipe.reads_creation.mpr ⟨text, inside, callee, arguments, rfl, read, rfl⟩)
  exact begins_of_signs signs begins (stops.mono (Nat.zero_le _))

theorem readable_operand (spells : Category.operand.rule.Spells Readable ahead left) :
    Readable .operand ahead left := by
  intro stops
  obtain ⟨middle, signs, chain⟩ := spells
  exact begins_of_signs signs chain stops

theorem readable_expression {operators : List TokenKind}
    (spells : (Category.expression operators).rule.Spells Readable ahead left) :
    Readable (.expression operators) ahead left := by
  intro least joining above least_lt stops
  rcases spells with operands | upToCreation
  · obtain ⟨count, row⟩ := exists_row_of_operands joining stops operands
    exact exists_reads_of_row joining above least_lt stops row
  · obtain ⟨count, row⟩ := exists_row_of_upToCreation joining stops upToCreation
    exact exists_reads_of_row joining above least_lt stops row

theorem readable_type (spells : Category.type.rule.Spells Readable ahead left) :
    Readable .type ahead left := by
  intro more
  obtain ⟨middle, brackets, last⟩ := spells
  induction brackets using Relation.ReflTransGen.head_induction_on with
  | refl =>
      obtain ⟨name, rfl⟩ := spells_word last
      exact ⟨.name name, Phrase.reads_type_of_prefixRule .name (by decide)
        (Recipe.reads_typeName.mpr ⟨name, rfl, rfl⟩) more⟩
  | head step _ ih =>
      obtain ⟨_, opening, closing⟩ := step
      obtain ⟨text, rfl⟩ := spells_word opening
      obtain ⟨text', rfl⟩ := spells_word closing
      obtain ⟨element, read⟩ := ih
      exact ⟨.list element, Phrase.reads_type_of_prefixRule .list (by decide)
        (Recipe.reads_typeList.mpr ⟨text, text', _, element, rfl, read, rfl⟩) more⟩

theorem readable_parameter (spells : Category.parameter.rule.Spells Readable ahead left) :
    Readable .parameter ahead left := by
  obtain ⟨_, nameWord, inside, colonWord, type⟩ := spells
  obtain ⟨name, rfl⟩ := spells_word nameWord
  obtain ⟨colon, rfl⟩ := spells_word colonWord
  by_cases more : left = []
  · exact ⟨name, colon, inside, default, rfl, fun some => absurd more some⟩
  · obtain ⟨type, read⟩ := type more
    exact ⟨name, colon, inside, type, rfl, fun _ => read⟩

/-! ## Statements -/

theorem exists_reads_typeMark (spells : Pattern.typeMark.Spells Readable ahead (token :: rest))
    (other : token.kind ≠ .colon) :
    ∃ result, (Recipe.optional .colon (Recipe.type .lowest)).Reads (Reads .language) ahead result
      (token :: rest) := by
  rcases spells with rfl | ⟨inside, colon, type⟩
  · exact ⟨none, Recipe.reads_optional_none other⟩
  · obtain ⟨text, rfl⟩ := spells_word colon
    obtain ⟨type, read⟩ := type (by simp)
    exact ⟨some type, Recipe.reads_optional_some (Recipe.reads_type.mpr read)⟩

theorem exists_reads_marked {mark kind : TokenKind} (spells : (Pattern.optional
      (.inOrder [.word mark, .word kind])).Spells Readable ahead (token :: rest))
    (other : token.kind ≠ mark) :
    ∃ text, (Recipe.optional mark (Recipe.expectText kind)).Reads (Reads .language) ahead text
      (token :: rest) := by
  rcases spells with rfl | ⟨inside, opening, last⟩
  · exact ⟨none, Recipe.reads_optional_none other⟩
  · obtain ⟨text, rfl⟩ := spells_word opening
    obtain ⟨text', rfl⟩ := spells_word last
    exact ⟨some text', Recipe.reads_optional_some (Recipe.reads_expectText.mpr rfl)⟩

theorem readable_block (spells : Category.block.rule.Spells Readable ahead left) :
    Readable .block ahead left := by
  obtain ⟨inside, opening, behind, statements, last⟩ := spells
  obtain ⟨text, rfl⟩ := spells_word opening
  obtain ⟨text', rfl⟩ := spells_word last
  obtain ⟨body, read⟩ := exists_reads_statements statements
  exact ⟨⟨text, inside, rfl⟩, body, Recipe.reads_block.mpr ⟨text, inside, text', rfl, read⟩⟩

theorem readable_signature (spells : Category.signature.rule.Spells Readable ahead left) :
    Readable .signature ahead left := by
  obtain ⟨inside, opening, behind, names, middle, closing, last, type, block⟩ := spells
  obtain ⟨text, rfl⟩ := spells_word opening
  obtain ⟨text', rfl⟩ := spells_word closing
  obtain ⟨⟨curly, rest, rfl⟩, body, read⟩ := block
  obtain ⟨result, typed⟩ := exists_reads_typeMark type nofun
  obtain ⟨parameters, listed⟩ := exists_reads_parameters names
  exact ⟨⟨parameters, result⟩, body, Recipe.reads_functionRest.mpr
    ⟨text, inside, text', middle, _, rfl, listed, typed, read⟩⟩

theorem readable_conditional (spells : Category.conditional.rule.Spells Readable ahead left) :
    Readable .conditional ahead left := by
  obtain ⟨inside, opening, middle, condition, behind, block, other⟩ := spells
  obtain ⟨text, rfl⟩ := spells_word opening
  obtain ⟨⟨curly, rest, rfl⟩, body, read⟩ := block
  obtain ⟨value, condition⟩ := reads_plainExpression condition (stops_of_kind rfl)
  refine ⟨⟨text, inside, rfl⟩, ?_⟩
  intro ends
  obtain ⟨alternative, other⟩ : ∃ alternative,
      (Recipe.optional .elseWord (Recipe.ifKind .ifWord .conditional .blockStatement)).Reads
        (Reads .language) behind alternative left := by
    rcases other with rfl | ⟨after, word, again⟩ | ⟨after, word, block⟩
    · obtain ⟨token, rest, rfl, kind⟩ := ends
      exact ⟨none, Recipe.reads_optional_none kind⟩
    · obtain ⟨text, rfl⟩ := spells_word word
      obtain ⟨⟨text', rest, rfl⟩, again⟩ := again
      obtain ⟨statement, read⟩ := again ends
      refine ⟨some statement, Recipe.reads_optional_some ?_⟩
      refine Recipe.reads_ifKind.mpr ⟨_, rest, rfl, ?_⟩
      rw [if_pos rfl]
      exact Recipe.reads_conditional.mpr read
    · obtain ⟨text, rfl⟩ := spells_word word
      obtain ⟨⟨text', rest, rfl⟩, body, read⟩ := block
      refine ⟨some (.block body), Recipe.reads_optional_some ?_⟩
      refine Recipe.reads_ifKind.mpr ⟨_, rest, rfl, ?_⟩
      rw [if_neg (by simp)]
      exact Recipe.reads_blockStatement.mpr ⟨body, read, rfl⟩
  refine ⟨.conditional value body alternative, ?_⟩
  rw [Phrase.reads_iff]
  exact Recipe.reads_conditionalPhrase.mpr
    ⟨_, inside, value, _, body, behind, alternative, rfl, condition, read, other, rfl⟩

/-- A declaration with a value, of a variable or a constant. -/
theorem exists_reads_declaration {kind : TokenKind} (found : kind ∈ StatementRule.declaration.kinds)
    (spells : (Pattern.inOrder [.word kind, .word .identifier, .typeMark, .word .assignment,
      .part .plainExpression, .word .semicolon]).Spells Readable ahead left) :
    ∃ statement, Reads .language .statement ahead statement left := by
  obtain ⟨_, word, inside, nameWord, middle, type, behind, equals, last, value, semicolon⟩ := spells
  obtain ⟨text, rfl⟩ := spells_word word
  obtain ⟨name, rfl⟩ := spells_word nameWord
  obtain ⟨text', rfl⟩ := spells_word equals
  obtain ⟨text'', rfl⟩ := spells_word semicolon
  obtain ⟨type, typed⟩ := exists_reads_typeMark type nofun
  obtain ⟨content, read⟩ := reads_plainExpression value (stops_of_kind rfl)
  refine ⟨_, Phrase.reads_statement_of_rule .declaration found (Recipe.reads_declaration.mpr
    ⟨⟨kind, text⟩, name, inside, _, type, some content, text'', rfl, typed, ?_, rfl⟩)⟩
  exact Recipe.reads_initialValue.mpr (.inr ⟨text', behind, content, rfl, read, rfl⟩)

theorem exists_reads_expressionStatement
    (spells : (Pattern.inOrder [.avoiding .fnWord (.part .anyExpression), .word .semicolon]).Spells
      Readable ahead left) :
    ∃ statement, Reads .language .statement ahead statement left := by
  obtain ⟨middle, ⟨expression, other⟩, semicolon⟩ := spells
  obtain ⟨text, rfl⟩ := spells_word semicolon
  obtain ⟨content, read⟩ := reads_anyExpression expression (stops_of_kind rfl)
  have opened := read
  rw [Phrase.reads_iff] at opened
  obtain ⟨token, rest, _, _, _, rfl, found, -⟩ := Recipe.reads_expressionPhrase.mp opened
  have notFunction : token.kind ≠ .fnWord := by
    rcases other with same | other
    · cases same
      simp
    · exact other token rest rfl
  -- Only `fn` calls for both a prefix rule and a statement rule.
  have none : Tables.language.statementRule token.kind = none := by
    obtain ⟨rule, kind, -⟩ := Tables.language_prefixRule_iff.mp found
    generalize token.kind = kind' at kind notFunction
    revert notFunction kind
    cases rule <;> cases kind' <;> decide
  refine ⟨.expression content, ?_⟩
  rw [Phrase.reads_iff]
  exact Recipe.reads_statementPhrase.mpr ⟨token, rest, rfl, .inl
    ⟨none, Recipe.reads_expressionStatement.mpr ⟨content, text, read, rfl⟩⟩⟩

theorem readable_statement (spells : Category.statement.rule.Spells Readable ahead left) :
    Readable .statement ahead left := by
  intro ends
  rcases spells with block | variable' | typed | constant | function | conditional | importing | foreach |
    classDeclaration | returning | loop | expression
  · obtain ⟨⟨text, rest, rfl⟩, body, read⟩ := block
    exact ⟨.block body, Phrase.reads_statement_of_rule .block (by decide)
      (Recipe.reads_blockStatement.mpr ⟨body, read, rfl⟩)⟩
  · exact exists_reads_declaration (by decide) variable'
  · obtain ⟨_, word, _, nameWord, inside, colon, behind, type, semicolon⟩ := typed
    obtain ⟨text, rfl⟩ := spells_word word
    obtain ⟨name, rfl⟩ := spells_word nameWord
    obtain ⟨text', rfl⟩ := spells_word colon
    obtain ⟨text'', rfl⟩ := spells_word semicolon
    obtain ⟨type, read⟩ := type (by simp)
    have typed := Recipe.reads_type.mpr read
    refine ⟨_, Phrase.reads_statement_of_rule .declaration (by decide) (Recipe.reads_declaration.mpr
      ⟨⟨.letWord, text⟩, name, _, _, some type, none, text'', rfl, Recipe.reads_optional_some typed,
        ?_, rfl⟩)⟩
    exact Recipe.reads_initialValue.mpr (.inl ⟨text'', left, rfl, rfl, by simp, rfl, rfl⟩)
  · exact exists_reads_declaration (by decide) constant
  · obtain ⟨_, word, inside, nameWord, signature, body, read⟩ := function
    obtain ⟨text, rfl⟩ := spells_word word
    obtain ⟨name, rfl⟩ := spells_word nameWord
    exact ⟨.function name signature body, Phrase.reads_statement_of_rule .function (by decide)
      (Recipe.reads_functionDeclaration.mpr ⟨_, name, inside, signature, body, rfl, read, rfl⟩)⟩
  · obtain ⟨⟨text, rest, rfl⟩, again⟩ := conditional
    obtain ⟨statement, read⟩ := again ends
    exact ⟨statement, Phrase.reads_statement_of_rule .conditional (by decide)
      (Recipe.reads_conditional.mpr read)⟩
  · obtain ⟨_, word, inside, nameWord, _, source, semicolon⟩ := importing
    obtain ⟨text, rfl⟩ := spells_word word
    obtain ⟨name, rfl⟩ := spells_word nameWord
    obtain ⟨text', rfl⟩ := spells_word semicolon
    obtain ⟨source, read⟩ := exists_reads_marked source nofun
    exact ⟨_, Phrase.reads_statement_of_rule .importing (by decide)
      (Recipe.reads_importing.mpr ⟨_, name, inside, source, text', rfl, read, rfl⟩)⟩
  · obtain ⟨_, word, rest, itemWord, _, index, inside, in', middle, iterable, block⟩ := foreach
    obtain ⟨text, rfl⟩ := spells_word word
    obtain ⟨item, rfl⟩ := spells_word itemWord
    obtain ⟨text', rfl⟩ := spells_word in'
    obtain ⟨⟨curly, _, rfl⟩, body, inner⟩ := block
    obtain ⟨index, counted⟩ := exists_reads_marked index nofun
    obtain ⟨value, read⟩ := reads_anyExpression iterable (stops_of_kind rfl)
    exact ⟨.foreach item index value body, Phrase.reads_statement_of_rule .foreach (by decide)
      (Recipe.reads_foreach.mpr
        ⟨_, item, rest, index, text', inside, value, _, body, rfl, counted, read, inner, rfl⟩)⟩
  · obtain ⟨_, word, inside, nameWord, -, body, read⟩ := classDeclaration
    obtain ⟨text, rfl⟩ := spells_word word
    obtain ⟨name, rfl⟩ := spells_word nameWord
    exact ⟨.classDeclaration name body, Phrase.reads_statement_of_rule .classDeclaration (by decide)
      (Recipe.reads_classDeclaration.mpr ⟨_, name, inside, body, rfl, read, rfl⟩)⟩
  · obtain ⟨_, word, _, value, semicolon⟩ := returning
    obtain ⟨text, rfl⟩ := spells_word word
    obtain ⟨text', rfl⟩ := spells_word semicolon
    rcases value with rfl | value
    · exact ⟨.returning none, Phrase.reads_statement_of_rule .returning (by decide)
        (Recipe.reads_returning.mpr (.inl ⟨_, text', rfl, rfl⟩))⟩
    · obtain ⟨content, read⟩ := reads_anyExpression value (stops_of_kind rfl)
      have opened := read
      rw [Phrase.reads_iff] at opened
      obtain ⟨token, rest, _, _, _, rfl, found, -⟩ := Recipe.reads_expressionPhrase.mp opened
      have notSemicolon : token.kind ≠ .semicolon := by
        intro same
        rw [same] at found
        cases found
      exact ⟨.returning (some content), Phrase.reads_statement_of_rule .returning (by decide)
        (Recipe.reads_returning.mpr
          (.inr ⟨_, token, rest, content, text', rfl, notSemicolon, read, rfl⟩))⟩
  · obtain ⟨inside, word, _, condition, block⟩ := loop
    obtain ⟨text, rfl⟩ := spells_word word
    obtain ⟨⟨curly, _, rfl⟩, body, inner⟩ := block
    obtain ⟨value, read⟩ := reads_plainExpression condition (stops_of_kind rfl)
    exact ⟨.loop value body, Phrase.reads_statement_of_rule .loop (by decide)
      (Recipe.reads_loop.mpr ⟨_, inside, value, _, body, rfl, read, inner, rfl⟩)⟩
  · exact exists_reads_expressionStatement expression

theorem readable_of_rule (category : Category)
    (spells : category.rule.Spells Readable ahead left) : Readable category ahead left := by
  cases category with
  | statement => exact readable_statement spells
  | conditional => exact readable_conditional spells
  | block => exact readable_block spells
  | signature => exact readable_signature spells
  | parameter => exact readable_parameter spells
  | type => exact readable_type spells
  | expression operators => exact readable_expression spells
  | operand => exact readable_operand spells
  | creation => exact readable_creation spells
  | chain => exact readable_chain spells
  | primary => exact readable_primary spells
  | continuation => exact readable_continuation spells
  | call => exact readable_call spells

end Rules

/-- **What is derived is read**, wherever it stands. -/
theorem Derives.readable {pattern : Pattern} {tokens : List Token} (derives : Derives pattern tokens)
    (left : List Token) : pattern.Spells Readable (tokens ++ left) left :=
  derives.spells (fun category _ _ spells => readable_of_rule category spells) left

end ScriptReader
