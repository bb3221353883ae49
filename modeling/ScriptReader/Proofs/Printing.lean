/- # ScriptReader.Proofs.Printing — how trees are written

Every well-formed tree can be written down: each node as the tokens of its form,
with every part that is an expression in parentheses, so that no operator meets
another. Numbers need a text that gives them back, which `Spelling` chooses.
-/
import ScriptReader.Proofs.WellFormed

namespace ScriptReader

set_option autoImplicit false

/-! ## Tokens -/

/-- A text for every number that has one. -/
structure Spelling where
  text : Binary64 → String
  reads : ∀ value, value.Spellable → Binary64.ofNumeral? (text value) = some value

instance : Nonempty Spelling := by
  classical
  refine ⟨⟨fun value => if spellable : value.Spellable then spellable.choose else "", ?_⟩⟩
  intro value spellable
  rw [dif_pos spellable]
  exact spellable.choose_spec

/-- A number can be written as any text that gives it back. -/
theorem exists_spelling {text : String} {value : Binary64}
    (reads : Binary64.ofNumeral? text = some value) :
    ∃ spelling : Spelling, spelling.text value = text := by
  obtain ⟨other⟩ : Nonempty Spelling := inferInstance
  refine ⟨⟨fun value' => if value' = value then text else other.text value', ?_⟩, if_pos rfl⟩
  intro value' spellable
  by_cases same : value' = value
  · rw [if_pos same, same, reads]
  · rw [if_neg same]
    exact other.reads value' spellable

/-- The token of a kind that is written in one way only. -/
def Token.ofKind (kind : TokenKind) : Token := ⟨kind, kind.spelling?.getD ""⟩

/-- Tokens between two that are written in one way only. -/
def between (opening closing : TokenKind) (content : List Token) : List Token :=
  .ofKind opening :: content ++ [.ofKind closing]

theorem between_append (opening closing : TokenKind) (content rest : List Token) :
    between opening closing content ++ rest =
      .ofKind opening :: (content ++ .ofKind closing :: rest) := by
  simp [between]

abbrev parenthesized (content : List Token) : List Token := between .openParen .closeParen content

abbrev bracketed (content : List Token) : List Token := between .openBracket .closeBracket content

abbrev braced (content : List Token) : List Token := between .openCurly .closeCurly content

def TypeExpr.tokens : TypeExpr → List Token
  | .name text => [⟨.identifier, text⟩]
  | .list element => .ofKind .openBracket :: .ofKind .closeBracket :: element.tokens

/-- A mark and what stands behind it, or nothing. -/
def marked (mark : TokenKind) : Option (List Token) → List Token
  | none => []
  | some content => .ofKind mark :: content

/-- Lists of tokens with commas between them. -/
def withCommas : List (List Token) → List Token
  | [] => []
  | [last] => last
  | first :: rest => first ++ .ofKind .comma :: withCommas rest

def Parameter.tokens (parameter : Parameter) : List Token :=
  ⟨.identifier, parameter.name⟩ :: .ofKind .colon :: parameter.type.tokens

def Signature.tokens (signature : Signature) : List Token :=
  parenthesized (withCommas (signature.parameters.map Parameter.tokens)) ++
    marked .colon (signature.result.map TypeExpr.tokens)

/-! ## Trees -/

section Printing

variable (spelling : Spelling)

mutual

/-- The tokens of an expression. -/
def Expr.tokens : Expr → List Token
  | .number value => [⟨.number, spelling.text value⟩]
  | .text value => [⟨.text, value⟩]
  | .symbol name => [⟨.identifier, name⟩]
  | .binary left operator right | .assignment left operator right =>
    parenthesized left.tokens ++ operator :: parenthesized right.tokens
  | .range lower upper =>
    parenthesized lower.tokens ++ .ofKind .dotDot :: parenthesized upper.tokens
  | .operation operator operand => operator :: parenthesized operand.tokens
  | .member object property =>
    parenthesized object.tokens ++ [.ofKind .dot, ⟨.identifier, property⟩]
  | .element object index =>
    parenthesized object.tokens ++ bracketed (parenthesized index.tokens)
  | .call callee arguments =>
    parenthesized callee.tokens ++
      parenthesized (withCommas ((exprsTokens arguments).map parenthesized))
  | .creation callee arguments =>
    .ofKind .newWord :: parenthesized callee.tokens ++
      parenthesized (withCommas ((exprsTokens arguments).map parenthesized))
  | .array elements => bracketed (withCommas ((exprsTokens elements).map parenthesized))
  | .function signature body =>
    .ofKind .fnWord :: signature.tokens ++ braced (statementsTokens body)

/-- The tokens of each expression. -/
def exprsTokens : List Expr → List (List Token)
  | [] => []
  | expr :: rest => expr.tokens :: exprsTokens rest

/-- The tokens of an expression that may be there. -/
def optionalExprTokens : Option Expr → Option (List Token)
  | none => none
  | some expr => some expr.tokens

/-- The tokens of a statement. -/
def Statement.tokens : Statement → List Token
  | .block body => braced (statementsTokens body)
  | .declaration name constant value type =>
    .ofKind (if constant then .constWord else .letWord) :: ⟨.identifier, name⟩ ::
      marked .colon (type.map TypeExpr.tokens) ++
      marked .assignment ((optionalExprTokens value).map parenthesized) ++ [.ofKind .semicolon]
  | .expression value => parenthesized value.tokens ++ [.ofKind .semicolon]
  | .function name signature body =>
    .ofKind .fnWord :: ⟨.identifier, name⟩ :: signature.tokens ++ braced (statementsTokens body)
  | .conditional condition consequent alternative =>
    .ofKind .ifWord :: parenthesized condition.tokens ++ braced (statementsTokens consequent) ++
      marked .elseWord (alternativeTokens alternative)
  | .importing name source =>
    [.ofKind .importWord, ⟨.identifier, name⟩, .ofKind .fromWord, ⟨.text, source⟩,
      .ofKind .semicolon]
  | .foreach item index iterable body =>
    .ofKind .foreachWord :: ⟨.identifier, item⟩ ::
      marked .comma (index.map fun index => [⟨.identifier, index⟩]) ++
      .ofKind .inWord :: parenthesized iterable.tokens ++ braced (statementsTokens body)
  | .classDeclaration name body =>
    .ofKind .classWord :: ⟨.identifier, name⟩ :: braced (statementsTokens body)
  | .returning value =>
    .ofKind .returnWord :: ((optionalExprTokens value).map parenthesized).getD [] ++
      [.ofKind .semicolon]
  | .loop condition body =>
    .ofKind .whileWord :: parenthesized condition.tokens ++ braced (statementsTokens body)

/-- The tokens of statements, one behind the other. -/
def statementsTokens : List Statement → List Token
  | [] => []
  | statement :: rest => statement.tokens ++ statementsTokens rest

/-- The tokens of a statement that may be there. -/
def alternativeTokens : Option Statement → Option (List Token)
  | none => none
  | some statement => some statement.tokens

end

end Printing

end ScriptReader
