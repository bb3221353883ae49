/- # ScriptReader.Proofs.Keeping — what a tree keeps of its tokens

A tree drops the punctuation and the reserved words of a program, and it keeps the
rest: names, numbers, and the operators. `Statement.items` reads them off a tree from
left to right, and `Token.Means` says which token each of them can have been.

No rule drops, doubles or moves one of them: for every phrase that is read, the
telling tokens that were passed are the items of its value, in order
(`Phrase.Reads.keeps`). A tail has kept the items of what stands to its left already,
so it adds its own behind them.
-/
import Mathlib
import ScriptReader.Proofs.Acceptance
import ScriptReader.Proofs.Language

namespace ScriptReader

set_option autoImplicit false

/-! ## Items -/

/-- What a tree keeps of a token: the name or the number that it stands for, the operator as
it was written, or only that a mark was there. -/
inductive Item where
  | name (text : String)
  | number (value : Binary64)
  | operator (token : Token)
  | mark (kind : TokenKind)
  deriving DecidableEq, Repr

/-- The token can be what the item was kept of. -/
def Token.Means (token : Token) : Item → Prop
  | .name text => token = ⟨.identifier, text⟩
  | .number value => token.kind = .number ∧ Binary64.ofNumeral? token.text = some value
  | .operator operator => token = operator
  | .mark kind => token.kind = kind

/-- The kinds whose tokens a tree keeps. -/
def TokenKind.telling : List TokenKind :=
  .identifier :: .number :: .not :: .typeofWord :: joining

/-- The tokens that a tree keeps something of. -/
def tellingTokens (tokens : List Token) : List Token :=
  tokens.filter fun token => token.kind ∈ TokenKind.telling

def TypeExpr.items : TypeExpr → List Item
  | .name text => [.name text]
  | .list element => element.items

def Parameter.items (parameter : Parameter) : List Item :=
  .name parameter.name :: parameter.type.items

def Signature.items (signature : Signature) : List Item :=
  signature.parameters.flatMap Parameter.items ++ signature.result.elim [] TypeExpr.items

mutual

/-- The items of an expression, from left to right. -/
def Expr.items : Expr → List Item
  | .number value => [.number value]
  | .text _ => []
  | .symbol name => [.name name]
  | .binary left operator right | .assignment left operator right =>
    left.items ++ .operator operator :: right.items
  | .range lower upper => lower.items ++ .mark .dotDot :: upper.items
  | .operation operator operand => .operator operator :: operand.items
  | .member object property => object.items ++ [.name property]
  | .element object index => object.items ++ index.items
  | .call callee arguments | .creation callee arguments => callee.items ++ exprsItems arguments
  | .array elements => exprsItems elements
  | .function signature body => signature.items ++ statementsItems body

def exprsItems : List Expr → List Item
  | [] => []
  | expr :: rest => expr.items ++ exprsItems rest

/-- The items of an expression that may be there. -/
def optionalItems : Option Expr → List Item
  | none => []
  | some expr => expr.items

/-- The items of a value that may be assigned, with those of the sign in front of it. -/
def assignedItems : Option Expr → List Item
  | none => []
  | some expr => .mark .assignment :: expr.items

/-- The items of a statement, from left to right. The source of an import is no name. -/
def Statement.items : Statement → List Item
  | .block body => statementsItems body
  | .declaration name _ value type =>
    .name name :: type.elim [] TypeExpr.items ++ assignedItems value
  | .expression value => value.items
  | .function name signature body => .name name :: signature.items ++ statementsItems body
  | .conditional condition consequent alternative =>
    condition.items ++ statementsItems consequent ++ alternativeItems alternative
  | .importing name _ => [.name name]
  | .foreach item index iterable body =>
    .name item :: index.elim [] (fun index => [.name index]) ++ iterable.items ++
      statementsItems body
  | .classDeclaration name body => .name name :: statementsItems body
  | .returning value => optionalItems value
  | .loop condition body => condition.items ++ statementsItems body

def statementsItems : List Statement → List Item
  | [] => []
  | statement :: rest => statement.items ++ statementsItems rest

def alternativeItems : Option Statement → List Item
  | none => []
  | some statement => statement.items

end

/-! ## Passing tokens -/

/-- On the way from the tokens ahead to those left, the telling tokens are the items. -/
def Keeps (ahead left : List Token) (items : List Item) : Prop :=
  ∃ passed, ahead = passed ++ left ∧ List.Forall₂ Token.Means (tellingTokens passed) items

section Passing

variable {ahead middle left rest : List Token} {items others : List Item} {kind : TokenKind}
  {text : String}

theorem Keeps.refl (left : List Token) : Keeps left left [] := ⟨[], rfl, .nil⟩

theorem Keeps.trans (first : Keeps ahead middle items) (second : Keeps middle left others) :
    Keeps ahead left (items ++ others) := by
  obtain ⟨passed, rfl, means⟩ := first
  obtain ⟨passed', rfl, means'⟩ := second
  refine ⟨passed ++ passed', by simp, ?_⟩
  rw [tellingTokens, List.filter_append]
  exact List.rel_append means means'

/-- A token that tells nothing is passed. -/
theorem Keeps.pass (silent : kind ∉ TokenKind.telling) (keeps : Keeps rest left items) :
    Keeps (⟨kind, text⟩ :: rest) left items := by
  obtain ⟨passed, rfl, means⟩ := keeps
  refine ⟨⟨kind, text⟩ :: passed, rfl, ?_⟩
  rwa [tellingTokens, List.filter_cons_of_neg (by simpa using silent)]

/-- A telling token is kept. -/
theorem Keeps.keep (item : Item) (telling : kind ∈ TokenKind.telling)
    (means : Token.Means ⟨kind, text⟩ item) (keeps : Keeps rest left items) :
    Keeps (⟨kind, text⟩ :: rest) left (item :: items) := by
  obtain ⟨passed, rfl, others⟩ := keeps
  refine ⟨⟨kind, text⟩ :: passed, rfl, ?_⟩
  rw [tellingTokens, List.filter_cons_of_pos (by simpa using telling)]
  exact .cons means others

/-- Behind what was kept, a token that tells nothing is passed. -/
theorem Keeps.stop (keeps : Keeps ahead (⟨kind, text⟩ :: left) items)
    (silent : kind ∉ TokenKind.telling) : Keeps ahead left items := by
  simpa using keeps.trans (.pass silent (.refl left))

theorem Keeps.keep_name (keeps : Keeps rest left items) :
    Keeps (⟨.identifier, text⟩ :: rest) left (.name text :: items) :=
  keeps.keep (.name text) (by decide) rfl

end Passing

/-! ## What each phrase keeps -/

/-- What is kept of the tokens of each phrase that is read. A condition passes its first token
without looking at it. -/
def Kept : Readings
  | .expression _, ahead, value, left => Keeps ahead left value.items
  | .expressionTail _ first, ahead, value, left =>
    ∃ more, value.items = first.items ++ more ∧ Keeps ahead left more
  | .type _, ahead, type, left => Keeps ahead left type.items
  | .typeTail _ first, ahead, type, left => type = first ∧ left = ahead
  | .statement, ahead, statement, left => Keeps ahead left statement.items
  | .statements, ahead, body, left => Keeps ahead left (statementsItems body)
  | .conditional, ahead, statement, left =>
    (∀ token rest, ahead = token :: rest → token.kind ∉ TokenKind.telling) →
      Keeps ahead left statement.items
  | .arguments _, ahead, contents, left => Keeps ahead left (exprsItems contents)
  | .parameters, ahead, names, left => Keeps ahead left (names.flatMap Parameter.items)

section Recipes

variable {ahead left rest : List Token} {value first : Expr} {body : List Statement}
  {statement : Statement} {token : Token}

/-! ### Parts of rules -/

theorem keeps_block (read : Recipe.block.Reads Kept ahead body left) :
    Keeps ahead left (statementsItems body) := by
  obtain ⟨opening, inside, closing, rfl, inner⟩ := Recipe.reads_block.mp read
  exact .pass (by decide) (Keeps.stop inner (by decide))

theorem keeps_enclosed {open' close : TokenKind} {contents : List Expr}
    (silent : open' ∉ TokenKind.telling) (silent' : close ∉ TokenKind.telling)
    (read : (Recipe.enclosed open' close).Reads Kept ahead contents left) :
    Keeps ahead left (exprsItems contents) := by
  obtain ⟨opening, inside, closing, rfl, inner⟩ := Recipe.reads_enclosed.mp read
  exact .pass silent (Keeps.stop inner silent')

theorem keeps_separator {close : TokenKind} {middle behind : List Token}
    (read : (Recipe.separator close).Reads Kept middle () behind) : Keeps middle behind [] := by
  obtain ⟨token, rest, rfl, apart⟩ := Recipe.reads_separator.mp read
  split at apart
  · subst apart
    exact .refl _
  · obtain ⟨comma, rfl⟩ := apart
    exact .pass (by rw [comma]; decide) (.refl _)

/-- A mark that tells nothing leaves what is kept to what stands behind it. -/
theorem keeps_optional {α : Type} {mark : TokenKind} {content : Recipe α} {result : Option α}
    (items : α → List Item) (silent : mark ∉ TokenKind.telling)
    (inside : ∀ ahead value left, content.Reads Kept ahead value left →
      Keeps ahead left (items value))
    (read : (Recipe.optional mark content).Reads Kept ahead result left) :
    Keeps ahead left (result.elim [] items) := by
  rcases Recipe.reads_optional.mp read with
    ⟨text, rest, value, rfl, rfl, inner⟩ | ⟨token, rest, rfl, other, rfl, rfl⟩
  · exact .pass silent (inside _ _ _ inner)
  · exact .refl _

theorem keeps_typeMark {result : Option TypeExpr}
    (read : (Recipe.optional .colon (Recipe.type .lowest)).Reads Kept ahead result left) :
    Keeps ahead left (result.elim [] TypeExpr.items) :=
  keeps_optional TypeExpr.items (by decide)
    (fun _ _ _ inner => Recipe.reads_type.mp inner) read

theorem keeps_indexMark {index : Option String}
    (read : (Recipe.optional .comma (Recipe.expectText .identifier)).Reads Kept ahead index left) :
    Keeps ahead left (index.elim [] fun index => [.name index]) := by
  refine keeps_optional (fun index => [.name index]) (by decide) ?_ read
  intro ahead index left inner
  rw [Recipe.reads_expectText.mp inner]
  exact .keep_name (.refl left)

/-- The source of an import is a text, of which nothing is kept. -/
theorem keeps_sourceMark {source : Option String}
    (read : (Recipe.optional .fromWord (Recipe.expectText .text)).Reads Kept ahead source left) :
    Keeps ahead left [] := by
  rcases Recipe.reads_optional.mp read with
    ⟨text, rest, value, rfl, rfl, inner⟩ | ⟨token, rest, rfl, other, rfl, rfl⟩
  · rw [Recipe.reads_expectText.mp inner]
    exact .pass (by decide) (.pass (by decide) (.refl left))
  · exact .refl _

theorem keeps_functionRest {signature : Signature}
    (read : Recipe.functionRest.Reads Kept ahead (signature, body) left) :
    Keeps ahead left (signature.items ++ statementsItems body) := by
  obtain ⟨opening, inside, closing, behind, middle, rfl, names, result, block⟩ :=
    Recipe.reads_functionRest.mp read
  have parameters : Keeps (⟨.openParen, opening⟩ :: inside) behind
      (signature.parameters.flatMap Parameter.items) :=
    .pass (by decide) (Keeps.stop names (by decide))
  exact (parameters.trans (keeps_typeMark result)).trans (keeps_block block)

/-! ### Rules -/

theorem keeps_of_ofToken (made : Recipe.ofToken token = .ok value) :
    Keeps (token :: left) left value.items := by
  obtain ⟨kind, text⟩ := token
  unfold Recipe.ofToken at made
  split at made
  · rename_i number
    cases found : Binary64.ofNumeral? text with
    | none => simp [found] at made
    | some decimal =>
        simp only [found] at made
        cases made
        cases (number : kind = .number)
        exact Keeps.keep (.number decimal) (by decide) ⟨rfl, found⟩ (.refl left)
  · rename_i literal
    cases made
    cases (literal : kind = .text)
    exact .pass (by decide) (.refl left)
  · rename_i name
    cases made
    cases (name : kind = .identifier)
    exact .keep_name (.refl left)
  · cases made

theorem keeps_of_prefixRule {rule : PrefixRule} (found : token.kind ∈ rule.kinds)
    (read : rule.recipe.Reads Kept (token :: rest) value left) :
    Keeps (token :: rest) left value.items := by
  cases rule with
  | primary =>
      obtain ⟨_, same, made⟩ := Recipe.reads_primary.mp read
      cases same
      exact keeps_of_ofToken made
  | operation =>
      obtain ⟨operator, _, operand, same, inner, rfl⟩ := Recipe.reads_operation.mp read
      cases same
      have telling : ∀ kind ∈ TokenKind.signs, kind ∈ TokenKind.telling := by decide
      exact Keeps.keep (.operator token) (telling _ found) rfl inner
  | grouping =>
      obtain ⟨opening, inside, closing, same, inner⟩ := Recipe.reads_grouping.mp read
      rw [same]
      exact .pass (by decide) (Keeps.stop inner (by decide))
  | array =>
      obtain ⟨elements, inner, rfl⟩ := Recipe.reads_array.mp read
      exact keeps_enclosed (by decide) (by decide) inner
  | function =>
      obtain ⟨opening, _, signature, body, same, inner, rfl⟩ := Recipe.reads_functionLiteral.mp read
      rw [same]
      exact .pass (by decide) (keeps_functionRest inner)
  | creation =>
      obtain ⟨opening, _, callee, arguments, same, inner, rfl⟩ := Recipe.reads_creation.mp read
      rw [same]
      exact .pass (by decide) inner

/-- What an infix rule keeps stands behind what its left operand has kept. -/
theorem keeps_of_infixRule {rule : InfixRule} {power : Power} (found : token.kind ∈ rule.kinds)
    (read : (rule.recipe first power).Reads Kept (token :: rest) value left) :
    ∃ more, value.items = first.items ++ more ∧ Keeps (token :: rest) left more := by
  have telling : ∀ kind ∈ TokenKind.joining, kind ∈ TokenKind.telling := by decide
  cases rule with
  | binary | assignment =>
      obtain ⟨_, _, second, same, inner, rfl⟩ := (Recipe.reads_joining rfl).mp read
      cases same
      have joining : token.kind ∈ TokenKind.joining := by
        simp only [InfixRule.kinds] at found
        simp [TokenKind.joining, found]
      exact ⟨_, rfl, Keeps.keep (.operator token) (telling _ joining) rfl inner⟩
  | range =>
      obtain ⟨_, _, second, same, inner, rfl⟩ := (Recipe.reads_joining rfl).mp read
      cases same
      have dotDot : token.kind = .dotDot := List.mem_singleton.mp found
      exact ⟨_, rfl, Keeps.keep (.mark .dotDot) (by rw [dotDot]; decide) dotDot inner⟩
  | call =>
      obtain ⟨arguments, inner, rfl⟩ := Recipe.reads_call.mp read
      exact ⟨_, rfl, keeps_enclosed (by decide) (by decide) inner⟩
  | member =>
      rcases Recipe.reads_member.mp read with
        ⟨opening, inside, index, closing, same, inner, rfl⟩ | ⟨operator, property, same, named, rfl⟩
      · rw [same]
        exact ⟨_, rfl, .pass (by decide) (Keeps.stop inner (by decide))⟩
      · cases same
        have silent : ∀ kind ∈ InfixRule.member.kinds, kind ∉ TokenKind.telling := by decide
        exact ⟨_, rfl, .pass (silent _ found) (.keep_name (.refl left))⟩

theorem keeps_of_typePrefixRule {rule : TypePrefixRule} {type : TypeExpr}
    (read : rule.recipe.Reads Kept ahead type left) : Keeps ahead left type.items := by
  cases rule with
  | name =>
      obtain ⟨name, rfl, rfl⟩ := Recipe.reads_typeName.mp read
      exact .keep_name (.refl left)
  | list =>
      obtain ⟨opening, closing, inside, element, rfl, inner, rfl⟩ := Recipe.reads_typeList.mp read
      exact .pass (by decide) (.pass (by decide) inner)

theorem keeps_initialValue {constant : Bool} {name : String} {type : Option TypeExpr}
    {value : Option Expr}
    (read : (Recipe.initialValue constant name type).Reads Kept ahead value left) :
    Keeps ahead left (assignedItems value) := by
  rcases Recipe.reads_initialValue.mp read with
    ⟨text, rest, -, -, -, rfl, rfl⟩ | ⟨text, rest, content, rfl, inner, rfl⟩
  · exact .refl _
  · exact Keeps.keep (.mark .assignment) (by decide) rfl inner

theorem keeps_conditional
    (silent : ∀ token rest, ahead = token :: rest → token.kind ∉ TokenKind.telling)
    (read : Recipe.conditionalPhrase.Reads Kept ahead statement left) :
    Keeps ahead left statement.items := by
  obtain ⟨opening, rest, condition, middle, consequent, behind, alternative, same, tested, inner,
    other, rfl⟩ := Recipe.reads_conditionalPhrase.mp read
  have passed := silent _ _ same
  rw [same]
  have second : Keeps behind left (alternativeItems alternative) := by
    rcases Recipe.reads_optional.mp other with
      ⟨text, rest, last, rfl, rfl, next⟩ | ⟨token, rest, rfl, different, rfl, rfl⟩
    · refine .pass (by decide) ?_
      obtain ⟨token, _, rfl, next⟩ := Recipe.reads_ifKind.mp next
      by_cases again : token.kind = .ifWord
      · rw [if_pos again] at next
        refine Recipe.reads_conditional.mp next ?_
        rintro _ _ ⟨⟩
        rw [again]
        decide
      · rw [if_neg again] at next
        obtain ⟨body, block, rfl⟩ := Recipe.reads_blockStatement.mp next
        exact keeps_block block
    · exact .refl _
  exact .pass passed ((Keeps.trans tested (keeps_block inner)).trans second)

theorem keeps_of_statementRule {rule : StatementRule} (found : token.kind ∈ rule.kinds)
    (read : rule.recipe.Reads Kept (token :: rest) statement left) :
    Keeps (token :: rest) left statement.items := by
  have silent : ∀ rule : StatementRule, ∀ kind ∈ rule.kinds, kind ∉ TokenKind.telling := by
    intro rule
    cases rule <;> decide
  cases rule with
  | anyStatement | expression => cases found
  | block =>
      obtain ⟨body, block, rfl⟩ := Recipe.reads_blockStatement.mp read
      exact keeps_block block
  | declaration =>
      obtain ⟨_, name, _, middle, type, content, closing, same, typed, given, rfl⟩ :=
        Recipe.reads_declaration.mp read
      cases same
      refine .pass (silent _ _ found) (.keep_name ?_)
      exact (keeps_typeMark typed).trans ((keeps_initialValue given).stop (by decide))
  | function =>
      obtain ⟨_, name, _, signature, body, same, inner, rfl⟩ :=
        Recipe.reads_functionDeclaration.mp read
      cases same
      exact .pass (silent _ _ found) (.keep_name (keeps_functionRest inner))
  | conditional =>
      refine Recipe.reads_conditional.mp read ?_
      rintro _ _ ⟨⟩
      exact silent _ _ found
  | importing =>
      obtain ⟨_, name, _, source, closing, same, named, rfl⟩ := Recipe.reads_importing.mp read
      cases same
      refine .pass (silent _ _ found) (.keep_name ?_)
      exact (keeps_sourceMark named).stop (by decide)
  | foreach =>
      obtain ⟨_, item, _, index, word, inside, iterable, middle, body, same, counted, collection,
        block, rfl⟩ := Recipe.reads_foreach.mp read
      cases same
      refine .pass (silent _ _ found) (.keep_name ?_)
      exact (((keeps_indexMark counted).stop (by decide)).trans collection).trans (keeps_block block)
  | classDeclaration =>
      obtain ⟨_, name, _, body, same, block, rfl⟩ := Recipe.reads_classDeclaration.mp read
      cases same
      exact .pass (silent _ _ found) (.keep_name (keeps_block block))
  | returning =>
      rcases Recipe.reads_returning.mp read with
        ⟨_, closing, same, rfl⟩ | ⟨_, token', _, content, closing, same, _, inner, rfl⟩
      · cases same
        exact .pass (silent _ _ found) (.pass (by decide) (.refl left))
      · cases same
        exact .pass (silent _ _ found) (Keeps.stop inner (by decide))
  | loop =>
      obtain ⟨_, _, condition, middle, body, same, tested, block, rfl⟩ := Recipe.reads_loop.mp read
      cases same
      exact .pass (silent _ _ found) (Keeps.trans tested (keeps_block block))

/-! ### Phrases -/

theorem keeps_of_recipe {phrase : Phrase} {result : phrase.Value}
    (read : (phrase.recipe .language).Reads Kept ahead result left) :
    Kept phrase ahead result left := by
  cases phrase with
  | expression least =>
      obtain ⟨token, _, _, first, middle, rfl, found, begun, more, same, tail⟩ :=
        Recipe.reads_expressionPhrase.mp read
      obtain ⟨rule, member, rfl⟩ := Tables.language_prefixRule_iff.mp found
      have front := keeps_of_prefixRule member begun
      change Keeps _ left (Expr.items result)
      rw [same]
      exact front.trans tail
  | expressionTail least first =>
      obtain ⟨token, _, rfl, ⟨_, same, stays⟩ | ⟨_, _, whole, middle, found, joined, more, same,
        tail⟩⟩ := Recipe.reads_expressionTailPhrase.mp read
      · change ∃ more, Expr.items result = _ ∧ _
        rw [same, stays]
        exact ⟨[], by simp, .refl _⟩
      · obtain ⟨rule, member, rfl⟩ := Tables.language_infixRule_iff.mp found
        obtain ⟨added, whole', front⟩ := keeps_of_infixRule member joined
        exact ⟨added ++ more, by rw [same, whole', List.append_assoc], front.trans tail⟩
  | type least =>
      obtain ⟨token, _, _, first, middle, rfl, found, begun, rfl, rfl⟩ :=
        Recipe.reads_typePhrase.mp read
      obtain ⟨rule, -, rfl⟩ := Tables.language_typePrefixRule_iff.mp found
      exact keeps_of_typePrefixRule begun
  | typeTail least first =>
      exact ((Recipe.reads_typeTailPhrase Tables.language_typeInfixPower).mp read).2
  | statement =>
      obtain ⟨token, _, rfl, ⟨_, inner⟩ | ⟨_, found, inner⟩⟩ :=
        Recipe.reads_statementPhrase.mp read
      · obtain ⟨content, closing, kept, rfl⟩ := Recipe.reads_expressionStatement.mp inner
        exact Keeps.stop kept (by decide)
      · obtain ⟨rule, member, rfl⟩ := Tables.language_statementRule_iff.mp found
        exact keeps_of_statementRule member inner
  | statements =>
      obtain ⟨token, _, rfl, read⟩ := Recipe.reads_statementsPhrase.mp read
      split at read
      · obtain ⟨rfl, rfl⟩ := read
        exact .refl _
      · obtain ⟨first, middle, others, kept, more, rfl⟩ := read
        exact Keeps.trans kept more
  | conditional =>
      intro silent
      exact keeps_conditional silent read
  | arguments close =>
      obtain ⟨token, _, rfl, read⟩ := Recipe.reads_argumentsPhrase.mp read
      split at read
      · obtain ⟨rfl, rfl⟩ := read
        exact .refl _
      · obtain ⟨first, middle, behind, others, kept, apart, more, rfl⟩ := read
        exact Keeps.trans kept ((keeps_separator apart).trans more)
  | parameters =>
      obtain ⟨token, _, rfl, read⟩ := Recipe.reads_parametersPhrase.mp read
      split at read
      · obtain ⟨rfl, rfl⟩ := read
        exact .refl _
      · obtain ⟨name, colon, inside, type, middle, behind, others, same, typed, apart, more, rfl⟩ :=
          read
        rw [same]
        refine .keep_name (.pass (by decide) ?_)
        exact Keeps.trans typed ((keeps_separator apart).trans more)

end Recipes

/-- Nothing that the tree keeps is lost, doubled or moved while a phrase is read. -/
theorem Phrase.Reads.keeps {phrase : Phrase} {ahead left : List Token} {value : phrase.Value}
    (read : Phrase.Reads .language phrase ahead value left) : Kept phrase ahead value left :=
  read.induct fun _ _ _ _ inner => keeps_of_recipe (inner.mono fun _ _ _ _ both => both.2)

/-! ## Programs -/

theorem keeps_of_readsRow {ahead left : List Token} {body : List Statement}
    (row : ReadsRow .language ahead body left) : Keeps ahead left (statementsItems body) := by
  induction row with
  | done ahead => exact .refl ahead
  | more _ read _ ih => exact Keeps.trans read.keeps ih

/-- A row passes exactly the tokens in front of the end of input that it stops at. -/
theorem keeps_beforeEnd {tokens left : List Token} {token : Token} {items : List Item}
    (keeps : Keeps (Cursor.closeStream tokens) (token :: left) items)
    (covers : Covers .program (Cursor.closeStream tokens) (token :: left))
    (ends : token.kind = .endOfInput) :
    List.Forall₂ Token.Means (tellingTokens (beforeEnd tokens)) items := by
  obtain ⟨first, rest, first_ends, stream⟩ := closeStream_eq_append tokens
  obtain ⟨passed, same, means⟩ := keeps
  obtain ⟨spent, same', derives⟩ := covers
  have endless : ∀ token ∈ passed, token.kind ≠ .endOfInput := by
    rw [List.append_cancel_right (same.symm.trans same')]
    exact derives.endless trivial
  have front : ∀ token ∈ beforeEnd tokens, token.kind ≠ .endOfInput := by
    intro token member
    simpa using List.mem_takeWhile_imp member
  have both : beforeEnd tokens = passed := by
    rw [← beforeEnd_append endless ends, ← same, stream, beforeEnd_append front first_ends]
  rw [both]
  exact means

/-- **No name, number or operator is lost, doubled or moved.** The telling tokens in front of
the first end of input are, one by one, what the items of the accepted tree were kept of. -/
theorem parse_keeps_items {tokens : List Token} {body : List Statement}
    (accepted : parse tokens = .accepted body) :
    List.Forall₂ Token.Means (tellingTokens (beforeEnd tokens)) (statementsItems body) := by
  have reads := (parseWith_eq_accepted_iff Tables.Grounded.language).mp accepted
  obtain ⟨token, left, ends, row⟩ := readsProgram_iff.mp reads
  exact keeps_beforeEnd (keeps_of_readsRow row) (covers_of_readsRow row) ends

/-- A declaration with a type and with a value that holds a property, an index, a sign and a
creation. The index is the number nearest to a tenth. -/
theorem declaration_keeps_items :
    let tokens : List Token :=
      [⟨.letWord, "let"⟩, ⟨.identifier, "t"⟩, ⟨.colon, ":"⟩, ⟨.openBracket, "["⟩,
        ⟨.closeBracket, "]"⟩, ⟨.identifier, "num"⟩, ⟨.assignment, "="⟩, ⟨.identifier, "a"⟩,
        ⟨.dot, "."⟩, ⟨.identifier, "b"⟩, ⟨.openBracket, "["⟩, ⟨.number, "0.1"⟩,
        ⟨.closeBracket, "]"⟩, ⟨.plus, "+"⟩, ⟨.dash, "-"⟩, ⟨.newWord, "new"⟩, ⟨.identifier, "f"⟩,
        ⟨.openParen, "("⟩, ⟨.text, "x"⟩, ⟨.comma, ","⟩, ⟨.identifier, "y"⟩, ⟨.closeParen, ")"⟩,
        ⟨.semicolon, ";"⟩]
    let tenth : Binary64 := .finite false 7205759403792794 (-56)
    let sum : Expr :=
      .binary (.element (.member (.symbol "a") "b") (.number tenth)) ⟨.plus, "+"⟩
        (.operation ⟨.dash, "-"⟩ (.creation (.symbol "f") [.text "x", .symbol "y"]))
    let body : List Statement := [.declaration "t" false (some sum) (some (.list (.name "num")))]
    parse tokens = .accepted body ∧
      List.Forall₂ Token.Means (tellingTokens (beforeEnd tokens)) (statementsItems body) := by
  intro tokens tenth sum body
  have accepted : parse tokens = .accepted body := by
    unfold body sum tenth tokens
    rfl
  exact ⟨accepted, parse_keeps_items accepted⟩

end ScriptReader
