/- # ScriptReader.Proofs.Rereading — what is written is read

Every form of the language is read from the tokens it is written with, if its parts
are read from theirs. What stands behind is arbitrary, up to its first token: it
must not go on from an expression (`Stops`) nor add an `else` to a condition
(`EndsStatement`). Inside parentheses nothing can go on, so parts are read under
whatever power they are asked for.
-/
import ScriptReader.Proofs.Assembling
import ScriptReader.Proofs.Printing

namespace ScriptReader

set_option autoImplicit false

open Phrase (Reads)

/-! ## What is read from written parts -/

/-- The tokens are read as the expression, in front of whatever ends one. -/
def ReadAs (content : List Token) (value : Expr) : Prop :=
  ∀ rest, Stops .lowest rest → Reads .language (.expression .lowest) (content ++ rest) value rest

/-- The lists of tokens, each in parentheses and with commas between them, are read as the
expressions, up to a closing bracket. -/
def ReadAsList (contents : List (List Token)) (values : List Expr) : Prop :=
  ∀ close ∈ [TokenKind.closeParen, .closeBracket], ∀ text rest,
    Reads .language (.arguments close)
      (withCommas (contents.map parenthesized) ++ ⟨close, text⟩ :: rest) values
      (⟨close, text⟩ :: rest)

/-- The tokens are read as the statement, in front of whatever ends one. -/
def ReadAsStatement (content : List Token) (statement : Statement) : Prop :=
  ∀ rest, EndsStatement rest → Reads .language .statement (content ++ rest) statement rest

/-- The tokens are read as the statements, up to a closing brace. -/
def ReadAsBody (content : List Token) (body : List Statement) : Prop :=
  ∀ text rest, Reads .language .statements (content ++ ⟨.closeCurly, text⟩ :: rest) body
    (⟨.closeCurly, text⟩ :: rest)

variable {content content' : List Token} {value value' : Expr} {contents : List (List Token)}
  {values : List Expr} {body : List Statement} {statement : Statement} {ahead left rest : List Token}
  {least : Power}

/-! ## In parentheses and braces -/

theorem ReadAs.reads_then {whole : Expr} (part : ReadAs content value)
    (tail : Reads .language (.expressionTail least value) ahead whole left) :
    Reads .language (.expression least) (parenthesized content ++ ahead) whole left := by
  have inside := part (.ofKind .closeParen :: ahead) (stops_of_kind rfl)
  have grouped : Recipe.grouping.Reads (Reads .language)
      (.ofKind .openParen :: (content ++ .ofKind .closeParen :: ahead)) value ahead :=
    Recipe.reads_grouping.mpr ⟨_, _, _, rfl, inside⟩
  rw [between_append]
  exact Phrase.reads_expression_of_prefixRule .grouping (by decide) grouped tail

theorem ReadAs.reads (part : ReadAs content value) (stops : Stops least rest) :
    Reads .language (.expression least) (parenthesized content ++ rest) value rest :=
  part.reads_then (Phrase.reads_tail_of_stops stops)

theorem ReadAsBody.reads_block (inner : ReadAsBody content body) :
    Recipe.block.Reads (Reads .language) (braced content ++ rest) body rest := by
  rw [between_append]
  exact Recipe.reads_block.mpr ⟨_, _, _, rfl, inner _ _⟩

/-! ## Lists -/

/-- Behind the first of several parts stands a comma or what closes the list. -/
theorem exists_separator (first : List Token) (others : List (List Token)) {close : TokenKind}
    (other : close ≠ .comma) (text : String) (rest : List Token) :
    ∃ kind text' behind, kind ∈ [.comma, close] ∧
      withCommas (first :: others) ++ ⟨close, text⟩ :: rest = first ++ ⟨kind, text'⟩ :: behind ∧
      (Recipe.separator close).Reads (Reads .language) (⟨kind, text'⟩ :: behind) ()
        (withCommas others ++ ⟨close, text⟩ :: rest) := by
  cases others with
  | nil => exact ⟨close, text, rest, by simp, rfl, Recipe.reads_separator_close⟩
  | cons second others =>
      refine ⟨.comma, (Token.ofKind .comma).text,
        withCommas (second :: others) ++ ⟨close, text⟩ :: rest, by simp, ?_,
        Recipe.reads_separator_comma other⟩
      exact List.append_assoc first _ _

theorem readAsList_nil : ReadAsList [] [] := by
  intro close closing text rest
  exact Phrase.reads_arguments_nil

theorem readAsList_cons (first : ReadAs content value) (others : ReadAsList contents values) :
    ReadAsList (content :: contents) (value :: values) := by
  intro close closing text rest
  have other : close ≠ .comma := by
    intro comma
    rw [comma] at closing
    revert closing
    decide
  obtain ⟨kind, text', behind, member, same, apart⟩ :=
    exists_separator (parenthesized content) (contents.map parenthesized) other text rest
  have stops : Stops .assignment (⟨kind, text'⟩ :: behind) := by
    apply stops_of_kind
    simp only [List.mem_cons, List.not_mem_nil, or_false] at member closing
    rcases member with rfl | rfl
    · rfl
    · rcases closing with rfl | rfl <;> rfl
  rw [List.map_cons, same]
  exact Phrase.reads_arguments_cons closing (first.reads stops) apart (others close closing text rest)

theorem ReadAsList.reads_enclosed {open' close : TokenKind} (elements : ReadAsList contents values)
    (closing : close ∈ [TokenKind.closeParen, .closeBracket]) :
    (Recipe.enclosed open' close).Reads (Reads .language)
      (between open' close (withCommas (contents.map parenthesized)) ++ rest) values rest := by
  rw [between_append]
  exact Recipe.reads_enclosed.mpr ⟨_, _, _, rfl, elements close closing _ _⟩

theorem readAsBody_nil : ReadAsBody [] [] := by
  intro text rest
  exact Phrase.reads_statements_nil

theorem readAsBody_cons (first : ReadAsStatement content statement)
    (others : ReadAsBody content' body) : ReadAsBody (content ++ content') (statement :: body) := by
  intro text rest
  have more := others text rest
  have ends : EndsStatement (content' ++ ⟨.closeCurly, text⟩ :: rest) :=
    Phrase.endsStatement_of_reads_statements more
  rw [List.append_assoc]
  exact Phrase.reads_statements_cons (first _ ends) more

/-! ## Forms of expressions -/

theorem readAs_token {kind : TokenKind} {text : String} (found : kind ∈ PrefixRule.primary.kinds)
    (made : Recipe.ofToken ⟨kind, text⟩ = .ok value) : ReadAs [⟨kind, text⟩] value := by
  intro rest stops
  have read : Recipe.primary.Reads (Reads .language) (⟨kind, text⟩ :: rest) value rest :=
    Recipe.reads_primary.mpr ⟨_, rfl, made⟩
  exact Phrase.reads_expression_of_prefixRule .primary found read (Phrase.reads_tail_of_stops stops)

theorem readAs_number {text : String} {number : Binary64}
    (reads : Binary64.ofNumeral? text = some number) : ReadAs [⟨.number, text⟩] (.number number) := by
  apply readAs_token (by decide)
  simp only [Recipe.ofToken, reads]

/-- Operators join what stands in parentheses on both sides of them. -/
theorem readAs_join (rule : InfixRule) {operator : Token} (joins : rule.joins)
    (found : operator.kind ∈ rule.kinds) (first : ReadAs content value)
    (second : ReadAs content' value') :
    ReadAs (parenthesized content ++ operator :: parenthesized content')
      (rule.join value operator value') := by
  intro rest stops
  have joining := Tables.joining_of_joins joins found
  have tighter := (Tables.language_power_of_joining joining).1
  have operand : Reads .language
      (.expression (rule.rightPower (Tables.language.power operator.kind)))
      (parenthesized content' ++ rest) value' rest :=
    second.reads (stops.mono (le_rightPower tighter rule).1)
  rw [List.append_assoc]
  apply first.reads_then
  exact Phrase.reads_tail_of_joins joins found tighter operand (Phrase.reads_tail_of_stops stops)

theorem readAs_operation {operator : Token} (found : operator.kind ∈ TokenKind.signs)
    (operand : ReadAs content value) :
    ReadAs (operator :: parenthesized content) (.operation operator value) := by
  intro rest stops
  have inner := operand.reads (stops.mono (by decide : Power.lowest ≤ .unary))
  have read : Recipe.operation.Reads (Reads .language) (operator :: (parenthesized content ++ rest))
      (.operation operator value) rest :=
    Recipe.reads_operation.mpr ⟨operator, _, value, rfl, inner, rfl⟩
  exact Phrase.reads_expression_of_prefixRule .operation found read (Phrase.reads_tail_of_stops stops)

/-- What goes on from an expression in parentheses, and ends where `rest` begins. -/
theorem readAs_infixRule (rule : InfixRule) {whole : Expr}
    {token : Token} (found : token.kind ∈ rule.kinds)
    (tighter : .lowest < Tables.language.power token.kind) (first : ReadAs content value)
    (read : ∀ rest, (rule.recipe value (Tables.language.power token.kind)).Reads (Reads .language)
      (token :: content' ++ rest) whole rest) :
    ReadAs (parenthesized content ++ token :: content') whole := by
  intro rest stops
  rw [List.append_assoc]
  apply first.reads_then
  exact Phrase.reads_tail_of_infixRule rule found tighter (read rest)
    (Phrase.reads_tail_of_stops stops)

theorem readAs_member {property : String} (object : ReadAs content value) :
    ReadAs (parenthesized content ++ [.ofKind .dot, ⟨.identifier, property⟩])
      (.member value property) := by
  apply readAs_infixRule .member (by decide) (by decide) object
  intro rest
  exact Recipe.reads_member.mpr (.inr ⟨_, property, rfl, nofun, rfl⟩)

theorem readAs_element (object : ReadAs content value) (index : ReadAs content' value') :
    ReadAs (parenthesized content ++ bracketed (parenthesized content')) (.element value value') := by
  apply readAs_infixRule .member (by decide) (by decide) object
  intro rest
  have inner : Reads .language (.expression .lowest)
      (parenthesized content' ++ .ofKind .closeBracket :: rest) value'
      (.ofKind .closeBracket :: rest) := index.reads (stops_of_kind rfl)
  have spelled := between_append .openBracket .closeBracket (parenthesized content') rest
  exact Recipe.reads_member.mpr (.inl ⟨_, _, value', _, spelled, inner, rfl⟩)

theorem readAs_call (callee : ReadAs content value) (arguments : ReadAsList contents values) :
    ReadAs (parenthesized content ++ parenthesized (withCommas (contents.map parenthesized)))
      (.call value values) := by
  apply readAs_infixRule .call (by decide) (by decide) callee
  intro rest
  exact Recipe.reads_call.mpr ⟨values, arguments.reads_enclosed (by decide), rfl⟩

theorem readAs_creation (callee : ReadAs content value) (arguments : ReadAsList contents values) :
    ReadAs
      (.ofKind .newWord :: parenthesized content ++
        parenthesized (withCommas (contents.map parenthesized)))
      (.creation value values) := by
  intro rest stops
  have called := readAs_call callee arguments rest stops
  have read : Recipe.creation.Reads (Reads .language)
      (.ofKind .newWord ::
        (parenthesized content ++ parenthesized (withCommas (contents.map parenthesized)) ++ rest))
      (.creation value values) rest :=
    Recipe.reads_creation.mpr ⟨_, _, value, values, rfl, called, rfl⟩
  exact Phrase.reads_expression_of_prefixRule .creation (by decide) read
    (Phrase.reads_tail_of_stops stops)

theorem readAs_array (elements : ReadAsList contents values) :
    ReadAs (bracketed (withCommas (contents.map parenthesized))) (.array values) := by
  intro rest stops
  have read : Recipe.array.Reads (Reads .language)
      (bracketed (withCommas (contents.map parenthesized)) ++ rest) (.array values) rest :=
    Recipe.reads_array.mpr ⟨values, elements.reads_enclosed (by decide), rfl⟩
  exact Phrase.reads_expression_of_prefixRule .array (by decide) read
    (Phrase.reads_tail_of_stops stops)

/-! ## Types and functions -/

theorem reads_typeTokens (type : TypeExpr) (more : rest ≠ []) :
    Reads .language (.type least) (type.tokens ++ rest) type rest := by
  induction type generalizing least with
  | name text =>
      have read : Recipe.typeName.Reads (Reads .language) (⟨.identifier, text⟩ :: rest) (.name text)
          rest := Recipe.reads_typeName.mpr ⟨text, rfl, rfl⟩
      exact Phrase.reads_type_of_prefixRule .name (by decide) read more
  | list element ih =>
      have read : Recipe.typeList.Reads (Reads .language)
          (.ofKind .openBracket :: .ofKind .closeBracket :: (element.tokens ++ rest)) (.list element)
          rest := Recipe.reads_typeList.mpr ⟨_, _, _, element, rfl, ih, rfl⟩
      exact Phrase.reads_type_of_prefixRule .list (by decide) read more

/-- What is behind a mark is read, and nothing is read where the mark is missing. -/
theorem reads_marked {α : Type} {mark : TokenKind} {recipe : Recipe α} {tokens : α → List Token}
    (result : Option α) {token : Token} (other : token.kind ≠ mark)
    (read : ∀ value, result = some value →
      recipe.Reads (Reads .language) (tokens value ++ token :: rest) value (token :: rest)) :
    (Recipe.optional mark recipe).Reads (Reads .language)
      (marked mark (result.map tokens) ++ token :: rest) result (token :: rest) := by
  cases result with
  | none => exact Recipe.reads_optional_none other
  | some value => exact Recipe.reads_optional_some (read value rfl)

theorem reads_typeMark (result : Option TypeExpr) {token : Token} (other : token.kind ≠ .colon) :
    (Recipe.optional .colon (Recipe.type .lowest)).Reads (Reads .language)
      (marked .colon (result.map TypeExpr.tokens) ++ token :: rest) result (token :: rest) := by
  apply reads_marked result other
  intro type _
  exact Recipe.reads_type.mpr (reads_typeTokens type (by simp))

theorem reads_parameterTokens (parameters : List Parameter) (text : String) :
    Reads .language .parameters
      (withCommas (parameters.map Parameter.tokens) ++ ⟨.closeParen, text⟩ :: rest) parameters
      (⟨.closeParen, text⟩ :: rest) := by
  induction parameters with
  | nil => exact Phrase.reads_parameters_nil
  | cons first others ih =>
      obtain ⟨kind, text', behind, -, same, apart⟩ := exists_separator first.tokens
        (others.map Parameter.tokens) (by decide : TokenKind.closeParen ≠ .comma) text rest
      rw [List.map_cons, same]
      exact Phrase.reads_parameters_cons (reads_typeTokens first.type (by simp)) apart ih

theorem ReadAsBody.reads_functionRest (signature : Signature) (inner : ReadAsBody content body) :
    Recipe.functionRest.Reads (Reads .language) (signature.tokens ++ braced content ++ rest)
      (signature, body) rest := by
  have block : Recipe.block.Reads (Reads .language) (braced content ++ rest) body rest :=
    inner.reads_block
  rw [Signature.tokens, List.append_assoc, List.append_assoc, between_append]
  rw [between_append] at block ⊢
  exact Recipe.reads_functionRest.mpr ⟨_, _, _, _, _, rfl,
    reads_parameterTokens signature.parameters _, reads_typeMark signature.result nofun, block⟩

theorem readAs_function (signature : Signature) (inner : ReadAsBody content body) :
    ReadAs (.ofKind .fnWord :: signature.tokens ++ braced content) (.function signature body) := by
  intro rest stops
  have read : Recipe.functionLiteral.Reads (Reads .language)
      (.ofKind .fnWord :: (signature.tokens ++ braced content ++ rest)) (.function signature body)
      rest :=
    Recipe.reads_functionLiteral.mpr ⟨_, _, signature, body, rfl, inner.reads_functionRest signature,
      rfl⟩
  exact Phrase.reads_expression_of_prefixRule .function (by decide) read
    (Phrase.reads_tail_of_stops stops)

/-! ## Forms of statements -/

theorem readAsStatement_block (inner : ReadAsBody content body) :
    ReadAsStatement (braced content) (.block body) := by
  intro rest _
  have read : Recipe.blockStatement.Reads (Reads .language) (braced content ++ rest) (.block body)
      rest := Recipe.reads_blockStatement.mpr ⟨body, inner.reads_block, rfl⟩
  exact Phrase.reads_statement_of_rule .block (by decide) read

theorem readAsStatement_expression (part : ReadAs content value) :
    ReadAsStatement (parenthesized content ++ [.ofKind .semicolon]) (.expression value) := by
  intro rest _
  have inner : Reads .language (.expression .lowest)
      (parenthesized content ++ .ofKind .semicolon :: rest) value (.ofKind .semicolon :: rest) :=
    part.reads (stops_of_kind rfl)
  rw [List.append_assoc]
  rw [between_append] at inner ⊢
  rw [Phrase.reads_iff]
  refine Recipe.reads_statementPhrase.mpr ⟨_, _, rfl, .inl ⟨rfl, ?_⟩⟩
  exact Recipe.reads_expressionStatement.mpr ⟨value, _, inner, rfl⟩

section Declarations

variable {initial : Option (List Token)} {given : Option Expr}

/-- What a declaration gives is read from what stands behind its type, and no type begins
there. -/
theorem exists_reads_initial (name : String) {constant : Bool} {type : Option TypeExpr}
    (settled : type ≠ none ∨ given ≠ none) (assigned : constant → given ≠ none)
    (read : Option.Rel ReadAs initial given) (rest : List Token) :
    ∃ token behind, token.kind ≠ .colon ∧
      marked .assignment (initial.map parenthesized) ++ .ofKind .semicolon :: rest =
        token :: behind ∧
      (Recipe.initialValue constant name type).Reads (Reads .language) (token :: behind) given
        (.ofKind .semicolon :: rest) := by
  cases read with
  | none =>
      have typed : type ≠ none := settled.resolve_right (by simp)
      have variable' : constant = false := by
        cases constant with
        | false => rfl
        | true => exact absurd rfl (assigned rfl)
      refine ⟨.ofKind .semicolon, rest, nofun, rfl, ?_⟩
      exact Recipe.reads_initialValue.mpr (.inl ⟨_, rest, rfl, variable', typed, rfl, rfl⟩)
  | @some content value part =>
      refine ⟨.ofKind .assignment, parenthesized content ++ .ofKind .semicolon :: rest, nofun, rfl, ?_⟩
      exact Recipe.reads_initialValue.mpr (.inr ⟨_, _, value, rfl, part.reads (stops_of_kind rfl), rfl⟩)

theorem readAsStatement_declaration (name : String) {constant : Bool} {type : Option TypeExpr}
    (settled : type ≠ none ∨ given ≠ none) (assigned : constant → given ≠ none)
    (read : Option.Rel ReadAs initial given) :
    ReadAsStatement
      (.ofKind (if constant then .constWord else .letWord) :: ⟨.identifier, name⟩ ::
        marked .colon (type.map TypeExpr.tokens) ++ marked .assignment (initial.map parenthesized) ++
        [.ofKind .semicolon])
      (.declaration name constant given type) := by
  intro rest _
  obtain ⟨token, behind, other, same, inner⟩ := exists_reads_initial name settled assigned read rest
  have word : decide ((Token.ofKind (if constant then .constWord else .letWord)).kind = .constWord) =
      constant := by cases constant <;> rfl
  rw [← word] at inner
  have whole : Recipe.declaration.Reads (Reads .language)
      (.ofKind (if constant then .constWord else .letWord) :: ⟨.identifier, name⟩ ::
        (marked .colon (type.map TypeExpr.tokens) ++ token :: behind))
      (.declaration name constant given type) rest := by
    refine Recipe.reads_declaration.mpr
      ⟨_, name, _, _, type, given, _, rfl, reads_typeMark type other, inner, ?_⟩
    rw [word]
  rw [← same] at whole
  simp only [List.cons_append, List.append_assoc, List.nil_append]
  exact Phrase.reads_statement_of_rule .declaration (by cases constant <;> decide) whole

end Declarations

theorem readAsStatement_function (name : String) (signature : Signature)
    (inner : ReadAsBody content body) :
    ReadAsStatement
      (.ofKind .fnWord :: ⟨.identifier, name⟩ :: signature.tokens ++ braced content)
      (.function name signature body) := by
  intro rest _
  have read : Recipe.functionDeclaration.Reads (Reads .language)
      (.ofKind .fnWord :: ⟨.identifier, name⟩ :: (signature.tokens ++ braced content ++ rest))
      (.function name signature body) rest :=
    Recipe.reads_functionDeclaration.mpr
      ⟨_, name, _, signature, body, rfl, inner.reads_functionRest signature, rfl⟩
  exact Phrase.reads_statement_of_rule .function (by decide) read

theorem readAsStatement_importing (name source : String) :
    ReadAsStatement
      [.ofKind .importWord, ⟨.identifier, name⟩, .ofKind .fromWord, ⟨.text, source⟩,
        .ofKind .semicolon]
      (.importing name source) := by
  intro rest _
  have from' : (Recipe.optional .fromWord (Recipe.expectText .text)).Reads (Reads .language)
      (.ofKind .fromWord :: ⟨.text, source⟩ :: .ofKind .semicolon :: rest) (some source)
      (.ofKind .semicolon :: rest) :=
    Recipe.reads_optional_some (Recipe.reads_expectText.mpr rfl)
  have read : Recipe.importing.Reads (Reads .language)
      (.ofKind .importWord :: ⟨.identifier, name⟩ :: .ofKind .fromWord :: ⟨.text, source⟩ ::
        .ofKind .semicolon :: rest)
      (.importing name source) rest :=
    Recipe.reads_importing.mpr ⟨_, name, _, some source, _, rfl, from', rfl⟩
  exact Phrase.reads_statement_of_rule .importing (by decide) read

theorem readAsStatement_foreach (item : String) (index : Option String)
    (iterable : ReadAs content value) (inner : ReadAsBody content' body) :
    ReadAsStatement
      (.ofKind .foreachWord :: ⟨.identifier, item⟩ ::
        marked .comma (index.map fun index => [⟨.identifier, index⟩]) ++
        .ofKind .inWord :: parenthesized content ++ braced content')
      (.foreach item index value body) := by
  intro rest _
  have counted : (Recipe.optional .comma (Recipe.expectText .identifier)).Reads (Reads .language)
      (marked .comma (index.map fun index => [⟨.identifier, index⟩]) ++
        .ofKind .inWord :: (parenthesized content ++ (braced content' ++ rest))) index
      (.ofKind .inWord :: (parenthesized content ++ (braced content' ++ rest))) := by
    have other : (Token.ofKind .inWord).kind ≠ .comma := nofun
    apply reads_marked index other
    intro name _
    exact Recipe.reads_expectText.mpr rfl
  have collection : Reads .language (.expression .lowest)
      (parenthesized content ++ (braced content' ++ rest)) value (braced content' ++ rest) := by
    apply iterable.reads
    rw [between_append]
    exact stops_of_kind rfl
  have read : Recipe.foreach.Reads (Reads .language)
      (.ofKind .foreachWord :: ⟨.identifier, item⟩ ::
        (marked .comma (index.map fun index => [⟨.identifier, index⟩]) ++
          .ofKind .inWord :: (parenthesized content ++ (braced content' ++ rest))))
      (.foreach item index value body) rest :=
    Recipe.reads_foreach.mpr
      ⟨_, item, _, index, _, _, value, _, body, rfl, counted, collection, inner.reads_block, rfl⟩
  simp only [List.cons_append, List.append_assoc]
  exact Phrase.reads_statement_of_rule .foreach (by decide) read

theorem readAsStatement_classDeclaration (name : String) (inner : ReadAsBody content body) :
    ReadAsStatement (.ofKind .classWord :: ⟨.identifier, name⟩ :: braced content)
      (.classDeclaration name body) := by
  intro rest _
  have read : Recipe.classDeclaration.Reads (Reads .language)
      (.ofKind .classWord :: ⟨.identifier, name⟩ :: (braced content ++ rest))
      (.classDeclaration name body) rest :=
    Recipe.reads_classDeclaration.mpr ⟨_, name, _, body, rfl, inner.reads_block, rfl⟩
  exact Phrase.reads_statement_of_rule .classDeclaration (by decide) read

theorem readAsStatement_returning {given : Option (List Token)} {result : Option Expr}
    (part : Option.Rel ReadAs given result) :
    ReadAsStatement
      (.ofKind .returnWord :: (given.map parenthesized).getD [] ++ [.ofKind .semicolon])
      (.returning result) := by
  intro rest _
  cases part with
  | none =>
      have read : Recipe.returning.Reads (Reads .language)
          (.ofKind .returnWord :: .ofKind .semicolon :: rest) (.returning none) rest :=
        Recipe.reads_returning.mpr (.inl ⟨_, _, rfl, rfl⟩)
      exact Phrase.reads_statement_of_rule .returning (by decide) read
  | @some content value part =>
      have inner : Reads .language (.expression .lowest)
          (parenthesized content ++ .ofKind .semicolon :: rest) value (.ofKind .semicolon :: rest) :=
        part.reads (stops_of_kind rfl)
      have read : Recipe.returning.Reads (Reads .language)
          (.ofKind .returnWord :: (parenthesized content ++ .ofKind .semicolon :: rest))
          (.returning (some value)) rest := by
        rw [between_append] at inner ⊢
        exact Recipe.reads_returning.mpr (.inr ⟨_, _, _, value, _, rfl, nofun, inner, rfl⟩)
      simp only [Option.map_some, Option.getD_some, List.cons_append, List.append_assoc,
        List.nil_append]
      exact Phrase.reads_statement_of_rule .returning (by decide) read

theorem readAsStatement_loop (condition : ReadAs content value) (inner : ReadAsBody content' body) :
    ReadAsStatement (.ofKind .whileWord :: parenthesized content ++ braced content')
      (.loop value body) := by
  intro rest _
  have tested : Reads .language (.expression .assignment)
      (parenthesized content ++ (braced content' ++ rest)) value (braced content' ++ rest) := by
    apply condition.reads
    rw [between_append]
    exact stops_of_kind rfl
  have read : Recipe.loop.Reads (Reads .language)
      (.ofKind .whileWord :: (parenthesized content ++ (braced content' ++ rest))) (.loop value body)
      rest := Recipe.reads_loop.mpr ⟨_, _, value, _, body, rfl, tested, inner.reads_block, rfl⟩
  simp only [List.cons_append, List.append_assoc]
  exact Phrase.reads_statement_of_rule .loop (by decide) read

/-! ## Conditions -/

/-- The tokens are read as a statement that can stand behind `else`. -/
def ReadAsAlternative (content : List Token) (statement : Statement) : Prop :=
  ReadAsStatement content statement ∧
    ∃ token rest, content = token :: rest ∧ token.kind ∈ [.ifWord, .openCurly]

theorem ReadAsAlternative.reads (alternative : ReadAsAlternative content statement)
    (ends : EndsStatement rest) :
    (Recipe.ifKind .ifWord Recipe.conditional Recipe.blockStatement).Reads (Reads .language)
      (content ++ rest) statement rest := by
  obtain ⟨read, ⟨kind, text⟩, behind, rfl, member⟩ := alternative
  have inner := read rest ends
  rw [Phrase.reads_iff] at inner
  obtain ⟨_, _, same, rules⟩ := Recipe.reads_statementPhrase.mp inner
  cases same
  refine Recipe.reads_ifKind.mpr ⟨_, _, rfl, ?_⟩
  simp only [List.mem_cons, List.not_mem_nil, or_false] at member
  rcases rules with ⟨none, -⟩ | ⟨_, found, read⟩
  · rcases member with rfl | rfl <;> cases none
  · rcases member with rfl | rfl
    · cases found
      exact read
    · cases found
      exact read

theorem readAsStatement_conditional {other : Option (List Token)} {alternative : Option Statement}
    (condition : ReadAs content value) (inner : ReadAsBody content' body)
    (second : Option.Rel ReadAsAlternative other alternative) :
    ReadAsStatement
      (.ofKind .ifWord :: parenthesized content ++ braced content' ++ marked .elseWord other)
      (.conditional value body alternative) := by
  intro rest ends
  have tested : Reads .language (.expression .assignment)
      (parenthesized content ++ (braced content' ++ (marked .elseWord other ++ rest))) value
      (braced content' ++ (marked .elseWord other ++ rest)) := by
    apply condition.reads
    rw [between_append]
    exact stops_of_kind rfl
  have decided : (Recipe.optional .elseWord
      (Recipe.ifKind .ifWord Recipe.conditional Recipe.blockStatement)).Reads (Reads .language)
      (marked .elseWord other ++ rest) alternative rest := by
    cases second with
    | none =>
        obtain ⟨token, behind, rfl, different⟩ := ends
        exact Recipe.reads_optional_none different
    | some second => exact Recipe.reads_optional_some (second.reads ends)
  have read : Recipe.conditional.Reads (Reads .language)
      (.ofKind .ifWord ::
        (parenthesized content ++ (braced content' ++ (marked .elseWord other ++ rest))))
      (.conditional value body alternative) rest := by
    rw [Recipe.reads_conditional, Phrase.reads_iff]
    exact Recipe.reads_conditionalPhrase.mpr
      ⟨_, _, value, _, body, _, alternative, rfl, tested, inner.reads_block, decided, rfl⟩
  simp only [List.cons_append, List.append_assoc]
  exact Phrase.reads_statement_of_rule .conditional (by decide) read

end ScriptReader
