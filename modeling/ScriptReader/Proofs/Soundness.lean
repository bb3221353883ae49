/- # ScriptReader.Proofs.Soundness — what is read is derived by the grammar

Whatever can be read as a phrase of the language stands ahead as the grammar says
(`Phrase.Reads.derived`). The induction carries `Derived`, which for most phrases
is just that; for expressions it is what has been read so far and what may follow
(`Stands`), and lists say in addition that nothing is read in front of the bracket
that closes them.
-/
import ScriptReader.Proofs.Operands

namespace ScriptReader

set_option autoImplicit false

/-- Nothing has been read in front of a closing bracket or the end of input. -/
def IdleAt (close : TokenKind) (ahead left : List Token) : Prop :=
  ∀ token rest, ahead = token :: rest → token.kind = .endOfInput ∨ token.kind = close →
    left = ahead

/-- What the grammar says of each phrase that is read. -/
def Derived : Readings
  | .expression least, ahead, value, left => Stands least ahead value left ∧ Stops least left
  | .expressionTail least first, ahead, value, left =>
    ∀ start, Stands least start first ahead → Stands least start value left ∧ Stops least left
  | .type _, ahead, _, left => Covers (.part .type) ahead left
  | .typeTail _ _, ahead, _, left => left = ahead
  | .statement, ahead, _, left => Covers (.part .statement) ahead left
  | .statements, ahead, _, left => Covers (.many (.part .statement)) ahead left
  | .conditional, ahead, _, left =>
    (∀ token rest, ahead = token :: rest → token.kind = .ifWord) →
      Covers (.part .conditional) ahead left
  | .arguments close, ahead, _, left => Covers .arguments ahead left ∧ IdleAt close ahead left
  | .parameters, ahead, _, left =>
    Covers (.separated (.part .parameter)) ahead left ∧ IdleAt .closeParen ahead left

section Recipes

variable {readings : Readings} {ahead left rest : List Token} {least : Power} {value : Expr}

/-! ## Parts of rules -/

theorem covers_anyExpression (derived : Derived (.expression .lowest) ahead value left) :
    Covers (.part .anyExpression) ahead left := by
  have covers := derived.1.covers_expression
  rwa [joiningAbove_lowest] at covers

theorem covers_plainExpression (derived : Derived (.expression .assignment) ahead value left) :
    Covers (.part .plainExpression) ahead left := by
  have covers := derived.1.covers_expression
  rwa [joiningAbove_assignment] at covers

theorem covers_block {body : List Statement} (read : Recipe.block.Reads Derived ahead body left) :
    Covers (.part .block) ahead left := by
  obtain ⟨opening, inside, closing, rfl, inner⟩ := Recipe.reads_block.mp read
  rw [covers_part]
  simp only [Category.rule, Pattern.inOrder, covers_both]
  exact ⟨inside, covers_word (by decide), _, inner, covers_word (by decide)⟩

theorem covers_typeMark {result : Option TypeExpr}
    (read : (Recipe.optional .colon (Recipe.type .lowest)).Reads Derived ahead result left) :
    Covers .typeMark ahead left := by
  refine covers_optional.mpr ?_
  rcases Recipe.reads_optional.mp read with ⟨text, rest, type, rfl, rfl, inner⟩ | ⟨_, _, _, _, _, rfl⟩
  · right
    simp only [Pattern.inOrder, covers_both]
    exact ⟨rest, covers_word (by decide), Recipe.reads_type.mp inner⟩
  · left
    rfl

theorem covers_signature {signature : Signature} {body : List Statement}
    (read : Recipe.functionRest.Reads Derived ahead (signature, body) left) :
    Covers (.part .signature) ahead left := by
  obtain ⟨opening, inside, closing, behind, middle, rfl, ⟨names, -⟩, result, inner⟩ :=
    Recipe.reads_functionRest.mp read
  rw [covers_part]
  simp only [Category.rule, Pattern.inOrder, covers_both]
  exact ⟨inside, covers_word (by decide), _, names, behind, covers_word (by decide), middle,
    covers_typeMark result, covers_block inner⟩

theorem covers_enclosed {open' close : TokenKind} {contents : List Expr}
    (notNumber : open' ≠ .number) (notNumber' : close ≠ .number)
    (read : (Recipe.enclosed open' close).Reads Derived ahead contents left) :
    Covers (.inOrder [.word open', .arguments, .word close]) ahead left := by
  obtain ⟨opening, inside, closing, rfl, inner, -⟩ := Recipe.reads_enclosed.mp read
  simp only [Pattern.inOrder, covers_both]
  exact ⟨inside, covers_word notNumber, _, inner, covers_word notNumber'⟩

/-! ## Expressions -/

theorem legible_of_ofToken {token : Token} (read : Recipe.ofToken token = .ok value) :
    token.kind ∈ [.number, .text, .identifier] ∧ token.Legible ∧ ¬ value.isCall := by
  unfold Recipe.ofToken at read
  split at read
  · rename_i number
    cases found : Binary64.ofNumeral? token.text with
    | none => simp [found] at read
    | some value' =>
        simp only [found] at read
        cases read
        exact ⟨by simp [number], fun _ => by simp [found], by simp [Expr.isCall]⟩
  · rename_i text
    cases read
    exact ⟨by simp [text], fun number => by simp [text] at number, by simp [Expr.isCall]⟩
  · rename_i name
    cases read
    exact ⟨by simp [name], fun number => by simp [name] at number, by simp [Expr.isCall]⟩
  · cases read

/-- What a prefix rule reads stands under every power. -/
theorem stands_of_prefixRule {rule : PrefixRule} {token : Token}
    (found : token.kind ∈ rule.kinds)
    (read : rule.recipe.Reads Derived (token :: rest) value left) :
    Stands least (token :: rest) value left := by
  cases rule with
  | primary =>
      obtain ⟨_, same, made⟩ := Recipe.reads_primary.mp read
      cases same
      obtain ⟨member, legible, other⟩ := legible_of_ofToken made
      refine .chain (covers_chain_of_primary ?_) fun call => absurd call other
      exact covers_form 0 rfl rfl (covers_token.mpr ⟨token, rfl, member, legible⟩)
  | operation =>
      obtain ⟨_, _, operand, same, ⟨stands, stops⟩, rfl⟩ := Recipe.reads_operation.mp read
      cases same
      exact stands.sign found stops (by simp [Expr.isCall])
  | grouping =>
      obtain ⟨opening, inside, closing, same, derived⟩ := Recipe.reads_grouping.mp read
      cases same
      refine .chain (covers_chain_of_primary ?_) fun call => ?_
      · refine covers_form 1 rfl rfl ?_
        simp only [Pattern.inOrder, covers_both]
        exact ⟨_, covers_word (by decide), _, covers_anyExpression derived, covers_word (by decide)⟩
      · -- Only a chain can be a call, so what the brackets hold is derived as one.
        cases derived.1 with
        | chain _ inner =>
            refine covers_form 1 rfl rfl ?_
            simp only [Pattern.inOrder, covers_both]
            exact ⟨_, covers_word (by decide), _, inner call, covers_word (by decide)⟩
        | operands _ other _ => exact absurd call other
        | upToCreation _ other _ => exact absurd call other
  | array =>
      obtain ⟨elements, inner, rfl⟩ := Recipe.reads_array.mp read
      refine .chain (covers_chain_of_primary ?_) fun call => by cases call
      refine covers_form 2 rfl rfl ?_
      exact covers_enclosed (by decide) (by decide) inner
  | function =>
      obtain ⟨opening, _, signature, body, same, inner, rfl⟩ := Recipe.reads_functionLiteral.mp read
      cases same
      refine .chain (covers_chain_of_primary ?_) fun call => by cases call
      refine covers_form 3 rfl rfl ?_
      simp only [Pattern.inOrder, covers_both]
      exact ⟨_, covers_word (by decide), covers_signature inner⟩
  | creation =>
      obtain ⟨opening, _, callee, arguments, same, ⟨stands, stops⟩, rfl⟩ :=
        Recipe.reads_creation.mp read
      cases same
      have call : Covers (.part .call) rest left := by
        cases stands with
        | chain _ call => exact call rfl
        | operands _ other _ => exact absurd rfl other
        | upToCreation _ other _ => exact absurd rfl other
      refine .upToCreation (covers_upToCreation_of_creation ?_) (by simp [Expr.isCall]) stops
      rw [covers_part]
      simp only [Category.rule, Pattern.inOrder, covers_both, covers_many]
      exact ⟨_, .refl, rest, covers_word (by decide), call⟩

/-- Where something binds tighter than a sign, a chain has been read. -/
theorem Stands.covers_chain {start : List Token} {first : Expr} {token : Token}
    (stands : Stands least start first (token :: rest))
    (tighter : .unary < Tables.language.power token.kind) :
    Covers (.part .chain) start (token :: rest) := by
  cases stands with
  | chain covers _ => exact covers
  | operands _ _ stops =>
      obtain ⟨_, _, same, stops⟩ := stops
      cases same
      exact absurd tighter stops
  | upToCreation _ _ stops =>
      obtain ⟨_, _, same, stops⟩ := stops.mono (Nat.zero_le _ : Power.lowest ≤ .unary)
      cases same
      exact absurd tighter stops

/-- Where anything goes on, operands have been read. -/
theorem Stands.covers_operands {start : List Token} {first : Expr} {token : Token}
    (stands : Stands least start first (token :: rest))
    (tighter : least < Tables.language.power token.kind) :
    Covers (.operands (joiningAbove least)) start (token :: rest) := by
  cases stands with
  | chain covers _ => exact covers_operands_of_operand (covers_operand_of_chain covers)
  | operands covers _ _ => exact covers
  | upToCreation _ _ stops =>
      obtain ⟨_, _, same, stops⟩ := stops.mono (Nat.zero_le _ : Power.lowest ≤ least)
      cases same
      exact absurd tighter stops

theorem not_isCall_join {rule : InfixRule} (left right : Expr) (operator : Token) :
    ¬ (rule.join left operator right).isCall := by
  cases rule <;> simp [InfixRule.join, Expr.isCall]

/-- What an infix rule reads behind something that stands, stands with it. -/
theorem stands_of_infixRule {rule : InfixRule} {token : Token} {start : List Token} {first : Expr}
    (stands : Stands least start first (token :: rest))
    (tighter : least < Tables.language.power token.kind)
    (found : token.kind ∈ rule.kinds)
    (read : (rule.recipe first (Tables.language.power token.kind)).Reads Derived (token :: rest)
      value left) : Stands least start value left := by
  by_cases joins : rule.joins
  · obtain ⟨_, _, second, same, ⟨right, stops⟩, rfl⟩ := (Recipe.reads_joining joins).mp read
    cases same
    exact .join (stands.covers_operands tighter) (Tables.joining_of_joins joins found) tighter right
      stops (not_isCall_join _ _ _)
  · cases rule with
    | binary | assignment | range => exact absurd rfl joins
    | call =>
        obtain ⟨arguments, inner, rfl⟩ := Recipe.reads_call.mp read
        have tight : .unary < Tables.language.power token.kind := by
          rw [List.mem_singleton.mp found]
          decide
        have chain := stands.covers_chain tight
        have enclosed := covers_enclosed (by decide) (by decide) inner
        refine .chain (covers_chain_snoc chain ?_) fun _ => ?_
        · exact covers_form 2 rfl rfl enclosed
        · refine covers_form 0 rfl rfl ?_
          simp only [Pattern.inOrder, covers_both] at enclosed ⊢
          exact ⟨_, chain, enclosed⟩
    | member =>
        have tight : .unary < Tables.language.power token.kind := by
          simp only [InfixRule.kinds, List.mem_cons, List.not_mem_nil, or_false] at found
          rcases found with same | same <;> rw [same] <;> decide
        have chain := stands.covers_chain tight
        rcases Recipe.reads_member.mp read with
          ⟨opening, inside, index, closing, same, derived, rfl⟩ | ⟨_, property, same, named, rfl⟩
        · cases same
          refine .chain (covers_chain_snoc chain ?_) fun call => by cases call
          refine covers_form 1 rfl rfl ?_
          simp only [Pattern.inOrder, covers_both]
          exact ⟨_, covers_word (by decide), _, covers_anyExpression derived, covers_word (by decide)⟩
        · cases same
          obtain ⟨kind', text⟩ := token
          have dot : kind' = .dot := by
            simpa [InfixRule.kinds, named] using found
          subst dot
          refine .chain (covers_chain_snoc chain ?_) fun call => by cases call
          refine covers_form 0 rfl rfl ?_
          simp only [Pattern.inOrder, covers_both]
          exact ⟨_, covers_word (by decide), covers_word (by decide)⟩

/-! ## Lists -/

/-- An item, what separates it from the next, and more items. -/
theorem covers_separated_step {item : Pattern} {close : TokenKind} {middle behind : List Token}
    (first : Covers item ahead middle)
    (apart : (Recipe.separator close).Reads Derived middle () behind)
    (others : Covers (.separated item) behind left) (idle : IdleAt close behind left) :
    Covers (.separated item) ahead left := by
  obtain ⟨⟨kind, text⟩, rest, rfl, apart⟩ := Recipe.reads_separator.mp apart
  by_cases ends : kind = .endOfInput ∨ kind = close
  · rw [if_pos ends] at apart
    subst apart
    obtain rfl := idle _ _ rfl ends
    exact covers_separated_one first
  · rw [if_neg ends] at apart
    obtain ⟨comma, rfl⟩ := apart
    cases comma
    exact covers_separated_cons first others

theorem covers_arguments {close : TokenKind} {contents : List Expr}
    (read : (Recipe.argumentsPhrase close).Reads Derived ahead contents left) :
    Covers .arguments ahead left ∧ IdleAt close ahead left := by
  obtain ⟨token, rest, rfl, read⟩ := Recipe.reads_argumentsPhrase.mp read
  by_cases ends : token.kind = .endOfInput ∨ token.kind = close
  · rw [if_pos ends] at read
    obtain ⟨-, rfl⟩ := read
    exact ⟨covers_separated_nil, fun _ _ _ _ => rfl⟩
  · rw [if_neg ends] at read
    obtain ⟨first, middle, behind, others, derived, apart, ⟨more, idle⟩, -⟩ := read
    refine ⟨covers_separated_step (covers_plainExpression derived) apart more idle, ?_⟩
    intro _ _ same close'
    cases same
    exact absurd close' ends

theorem covers_parameters {names : List Parameter}
    (read : Recipe.parametersPhrase.Reads Derived ahead names left) :
    Covers (.separated (.part .parameter)) ahead left ∧ IdleAt .closeParen ahead left := by
  obtain ⟨token, rest, rfl, read⟩ := Recipe.reads_parametersPhrase.mp read
  by_cases ends : token.kind = .endOfInput ∨ token.kind = .closeParen
  · rw [if_pos ends] at read
    obtain ⟨-, rfl⟩ := read
    exact ⟨covers_separated_nil, fun _ _ _ _ => rfl⟩
  · rw [if_neg ends] at read
    obtain ⟨name, colon, inside, type, middle, behind, others, same, typed, apart, ⟨more, idle⟩, -⟩ :=
      read
    have item : Covers (.part .parameter) (token :: rest) middle := by
      rw [covers_part, same]
      simp only [Category.rule, Pattern.inOrder, covers_both]
      exact ⟨_, covers_word (by decide), inside, covers_word (by decide), typed⟩
    refine ⟨covers_separated_step item apart more idle, ?_⟩
    intro _ _ same close'
    cases same
    exact absurd close' ends

/-! ## Statements -/

theorem covers_declaration {token : Token} {read : Statement}
    (found : token.kind ∈ StatementRule.declaration.kinds)
    (reads : Recipe.declaration.Reads Derived (token :: rest) read left) :
    Covers (.part .statement) (token :: rest) left := by
  obtain ⟨⟨kind, text⟩, name, inside, middle, type, content, closing, same, typed, given, -⟩ :=
    Recipe.reads_declaration.mp reads
  cases same
  rcases Recipe.reads_initialValue.mp given with
    ⟨semicolon, behind, rfl, variable', needed, -, same⟩ | ⟨equals, behind, value, rfl, derived, -⟩
  · -- Without a value it is a variable, and it has a type.
    cases same
    have letWord : kind = .letWord := by
      simp only [StatementRule.kinds, List.mem_cons, List.not_mem_nil, or_false] at found
      rcases found with same | same
      · exact same
      · simp [same] at variable'
    subst letWord
    rcases Recipe.reads_optional.mp typed with
      ⟨colon, behind, type', rfl, -, derived⟩ | ⟨_, _, _, _, none, _⟩
    · refine covers_form 2 rfl rfl ?_
      simp only [Pattern.inOrder, covers_both]
      exact ⟨_, covers_word (by decide), _, covers_word (by decide), _, covers_word (by decide), _,
        Recipe.reads_type.mp derived, covers_word (by decide)⟩
    · exact absurd none needed
  · simp only [StatementRule.kinds, List.mem_cons, List.not_mem_nil, or_false] at found
    have form (notNumber : kind ≠ .number) :
        Covers (.inOrder [.word kind, .word .identifier, .typeMark, .word .assignment,
          .part .plainExpression, .word .semicolon])
          (⟨kind, text⟩ :: ⟨.identifier, name⟩ :: inside) left := by
      simp only [Pattern.inOrder, covers_both]
      exact ⟨_, covers_word notNumber, _, covers_word (by decide), _, covers_typeMark typed, _,
        covers_word (by decide), _, covers_plainExpression derived, covers_word (by decide)⟩
    rcases found with rfl | rfl
    · exact covers_form 1 rfl rfl (form (by decide))
    · exact covers_form 3 rfl rfl (form (by decide))

/-- A word in front of an identifier, or nothing. -/
theorem covers_marked {mark kind : TokenKind} {text : Option String}
    (notNumber : mark ≠ .number) (notNumber' : kind ≠ .number)
    (read : (Recipe.optional mark (Recipe.expectText kind)).Reads Derived ahead text left) :
    Covers (.optional (.inOrder [.word mark, .word kind])) ahead left := by
  refine covers_optional.mpr ?_
  rcases Recipe.reads_optional.mp read with ⟨_, rest, text, rfl, -, inner⟩ | ⟨_, _, _, _, _, rfl⟩
  · right
    obtain rfl := Recipe.reads_expectText.mp inner
    simp only [Pattern.inOrder, covers_both]
    exact ⟨_, covers_word notNumber, covers_word notNumber'⟩
  · left
    rfl

/-- What a statement rule reads behind a token that calls for it is a statement. -/
theorem covers_statement {rule : StatementRule} {token : Token} {read : Statement}
    (found : token.kind ∈ rule.kinds)
    (reads : rule.recipe.Reads Derived (token :: rest) read left) :
    Covers (.part .statement) (token :: rest) left := by
  cases rule with
  | declaration => exact covers_declaration found reads
  | anyStatement | expression => cases found
  | block =>
      obtain ⟨body, inner, -⟩ := Recipe.reads_blockStatement.mp reads
      refine covers_form 0 rfl rfl ?_
      exact covers_block inner
  | function =>
      obtain ⟨⟨kind, text⟩, name, _, signature, body, same, inner, -⟩ :=
        Recipe.reads_functionDeclaration.mp reads
      cases same
      cases List.mem_singleton.mp found
      refine covers_form 4 rfl rfl ?_
      simp only [Pattern.inOrder, covers_both]
      exact ⟨_, covers_word (by decide), _, covers_word (by decide), covers_signature inner⟩
  | conditional =>
      refine covers_form 5 rfl rfl ?_
      apply Recipe.reads_conditional.mp reads
      intro _ _ same
      cases same
      exact List.mem_singleton.mp found
  | importing =>
      obtain ⟨⟨kind, text⟩, name, _, source, closing, same, inner, -⟩ :=
        Recipe.reads_importing.mp reads
      cases same
      cases List.mem_singleton.mp found
      refine covers_form 6 rfl rfl ?_
      have source := covers_marked (by decide) (by decide) inner
      simp only [Pattern.inOrder, covers_both] at source ⊢
      exact ⟨_, covers_word (by decide), _, covers_word (by decide), _, source, covers_word (by decide)⟩
  | foreach =>
      obtain ⟨⟨kind, text⟩, item, _, index, word, inside, iterable, middle, body, same, counted,
        derived, inner, -⟩ := Recipe.reads_foreach.mp reads
      cases same
      cases List.mem_singleton.mp found
      refine covers_form 7 rfl rfl ?_
      have index := covers_marked (by decide) (by decide) counted
      simp only [Pattern.inOrder, covers_both] at index ⊢
      exact ⟨_, covers_word (by decide), _, covers_word (by decide), _, index, inside,
        covers_word (by decide), middle, covers_anyExpression derived, covers_block inner⟩
  | classDeclaration =>
      obtain ⟨⟨kind, text⟩, name, _, body, same, inner, -⟩ :=
        Recipe.reads_classDeclaration.mp reads
      cases same
      cases List.mem_singleton.mp found
      refine covers_form 8 rfl rfl ?_
      simp only [Pattern.inOrder, covers_both]
      exact ⟨_, covers_word (by decide), _, covers_word (by decide), covers_block inner⟩
  | returning =>
      refine covers_form 9 rfl rfl ?_
      simp only [Pattern.inOrder, covers_both, covers_optional]
      rcases Recipe.reads_returning.mp reads with
        ⟨⟨kind, text⟩, closing, same, -⟩ | ⟨⟨kind, text⟩, _, _, content, closing, same, -, derived, -⟩
      · cases same
        cases List.mem_singleton.mp found
        exact ⟨_, covers_word (by decide), _, .inl rfl, covers_word (by decide)⟩
      · cases same
        cases List.mem_singleton.mp found
        exact ⟨_, covers_word (by decide), _, .inr (covers_anyExpression derived),
          covers_word (by decide)⟩
  | loop =>
      obtain ⟨⟨kind, text⟩, _, condition, middle, body, same, derived, inner, -⟩ :=
        Recipe.reads_loop.mp reads
      cases same
      cases List.mem_singleton.mp found
      refine covers_form 10 rfl rfl ?_
      simp only [Pattern.inOrder, covers_both]
      exact ⟨_, covers_word (by decide), middle, covers_plainExpression derived, covers_block inner⟩

theorem covers_expressionStatement {token : Token} {read : Statement}
    (other : token.kind ≠ .fnWord)
    (reads : Recipe.expressionStatement.Reads Derived (token :: rest) read left) :
    Covers (.part .statement) (token :: rest) left := by
  obtain ⟨content, closing, derived, -⟩ := Recipe.reads_expressionStatement.mp reads
  refine covers_form 11 rfl rfl ?_
  simp only [Pattern.inOrder, covers_both]
  refine ⟨_, (covers_anyExpression derived).avoiding ?_, covers_word (by decide)⟩
  intro _ _ same
  cases same
  exact other

theorem covers_conditional {token : Token} {read : Statement} (ifWord : token.kind = .ifWord)
    (reads : Recipe.conditionalPhrase.Reads Derived (token :: rest) read left) :
    Covers (.part .conditional) (token :: rest) left := by
  obtain ⟨⟨kind, text⟩, _, condition, middle, consequent, behind, alternative, same, derived, inner,
    other, -⟩ := Recipe.reads_conditionalPhrase.mp reads
  cases same
  cases ifWord
  rw [covers_part]
  simp only [Category.rule, Pattern.inOrder, covers_both, covers_optional]
  refine ⟨_, covers_word (by decide), middle, covers_plainExpression derived, behind,
    covers_block inner, ?_⟩
  rcases Recipe.reads_optional.mp other with ⟨_, rest', _, rfl, -, next⟩ | ⟨_, _, _, _, _, rfl⟩
  · right
    simp only [Pattern.oneOf, covers_either, covers_both]
    obtain ⟨first, more, rfl, next⟩ := Recipe.reads_ifKind.mp next
    by_cases again : first.kind = .ifWord
    · rw [if_pos again] at next
      left
      refine ⟨_, covers_word (by decide), Recipe.reads_conditional.mp next ?_⟩
      intro _ _ same
      cases same
      exact again
    · rw [if_neg again] at next
      obtain ⟨body, inner, -⟩ := Recipe.reads_blockStatement.mp next
      exact .inr ⟨_, covers_word (by decide), covers_block inner⟩
  · left
    rfl

/-! ## All phrases -/

theorem covers_type {rule : TypePrefixRule} {type : TypeExpr}
    (read : rule.recipe.Reads Derived ahead type left) : Covers (.part .type) ahead left := by
  cases rule with
  | name =>
      obtain ⟨name, rfl, -⟩ := Recipe.reads_typeName.mp read
      rw [covers_part]
      simp only [Category.rule, Pattern.inOrder, covers_both, covers_many]
      exact ⟨_, .refl, covers_word (by decide)⟩
  | list =>
      obtain ⟨opening, closing, rest, element, rfl, inner, -⟩ := Recipe.reads_typeList.mp read
      have element : Covers (.part .type) rest left := inner
      rw [covers_part] at element ⊢
      simp only [Category.rule, Pattern.inOrder, covers_both, covers_many] at element ⊢
      obtain ⟨middle, others, name⟩ := element
      refine ⟨middle, .head ?_ others, name⟩
      exact covers_both.mpr ⟨_, covers_word (by decide), covers_word (by decide)⟩

theorem derived_of_recipe {phrase : Phrase} {result : phrase.Value}
    (read : (phrase.recipe .language).Reads Derived ahead result left) :
    Derived phrase ahead result left := by
  cases phrase with
  | expression least =>
      obtain ⟨token, rest, _, first, middle, rfl, found, begun, tail⟩ :=
        Recipe.reads_expressionPhrase.mp read
      obtain ⟨rule, member, rfl⟩ := Tables.language_prefixRule_iff.mp found
      exact tail _ (stands_of_prefixRule member begun)
  | expressionTail least first =>
      intro start stands
      obtain ⟨token, rest, rfl,
        ⟨stops, same, rfl⟩ | ⟨tighter, _, whole, middle, found, joined, tail⟩⟩ :=
        Recipe.reads_expressionTailPhrase.mp read
      · rw [same]
        exact ⟨stands, token, rest, rfl, stops⟩
      · obtain ⟨rule, member, rfl⟩ := Tables.language_infixRule_iff.mp found
        exact tail start (stands_of_infixRule stands tighter member joined)
  | type least =>
      obtain ⟨token, rest, _, first, middle, rfl, found, begun, tail⟩ :=
        Recipe.reads_typePhrase.mp read
      obtain ⟨rule, -, rfl⟩ := Tables.language_typePrefixRule_iff.mp found
      have ends : left = middle := tail
      rw [ends]
      exact covers_type begun
  | typeTail least first =>
      exact ((Recipe.reads_typeTailPhrase Tables.language_typeInfixPower).mp read).2.2
  | statement =>
      obtain ⟨token, rest, rfl, ⟨none, inner⟩ | ⟨_, found, inner⟩⟩ :=
        Recipe.reads_statementPhrase.mp read
      · apply covers_expressionStatement _ inner
        intro same
        rw [same] at none
        cases none
      · obtain ⟨rule, member, rfl⟩ := Tables.language_statementRule_iff.mp found
        exact covers_statement member inner
  | statements =>
      obtain ⟨token, rest, rfl, read⟩ := Recipe.reads_statementsPhrase.mp read
      show Covers (.many (.part .statement)) _ _
      rw [covers_many]
      by_cases ends : token.kind = .endOfInput ∨ token.kind = .closeCurly
      · rw [if_pos ends] at read
        rw [read.2]
      · rw [if_neg ends] at read
        obtain ⟨first, middle, others, statement, more, -⟩ := read
        exact .head statement (covers_many.mp more)
  | conditional =>
      intro ifWord
      obtain ⟨opening, rest, _, _, _, _, _, rfl, -⟩ := Recipe.reads_conditionalPhrase.mp read
      exact covers_conditional (ifWord _ _ rfl) read
  | arguments close => exact covers_arguments read
  | parameters => exact covers_parameters read

end Recipes

/-- **What is read is derived.** -/
theorem Phrase.Reads.derived {phrase : Phrase} {ahead left : List Token} {value : phrase.Value}
    (read : Phrase.Reads .language phrase ahead value left) : Derived phrase ahead value left :=
  read.induct fun _ _ _ _ inner => derived_of_recipe (inner.mono fun _ _ _ _ both => both.2)

end ScriptReader
