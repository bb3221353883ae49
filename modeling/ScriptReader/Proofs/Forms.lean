/- # ScriptReader.Proofs.Forms — what each rule reads, spelled out

One lemma for each recipe: which tokens stand ahead, which phrases are read
between them, and what is made of all of it. The lemmas hold of whatever can be
read as the phrases, and they are used both ways: a reading is taken apart by
them, and it is put together by them.

Tokens that are only passed are named by their kind; their texts do not matter.
-/
import ScriptReader.Proofs.Reading

namespace ScriptReader

set_option autoImplicit false

/-! ## Rules that join two operands -/

namespace InfixRule

/-- Whether the rule joins the expression to its left with one to its right. -/
def joins : InfixRule → Bool
  | .binary | .assignment | .range => true
  | .call | .member => false

/-- Whether the right operand takes operators of the rule's own power. -/
def groupsRight : InfixRule → Bool
  | .assignment | .range => true
  | .binary | .call | .member => false

/-- The power at which the right operand is read. -/
def rightPower (power : Power) (rule : InfixRule) : Power :=
  if rule.groupsRight then power.weaker else power

/-- The expression that two operands make. -/
def join (left : Expr) (operator : Token) (right : Expr) : InfixRule → Expr
  | .assignment => .assignment left operator right
  | .range => .range left right
  | .binary | .call | .member => .binary left operator right

end InfixRule

namespace Recipe

variable {α : Type} {readings : Readings} {ahead left : List Token}

/-! ## Phrases as they are -/

section Asked

variable {least : Power} {value operand : Expr} {type' type'' : TypeExpr} {read : Statement}
  {body : List Statement} {contents : List Expr} {names : List Parameter} {close : TokenKind}

@[simp] theorem reads_expression : (expression least).Reads readings ahead value left ↔
    readings (.expression least) ahead value left := reads_ask

@[simp] theorem reads_expressionTail :
    (expressionTail least operand).Reads readings ahead value left ↔
      readings (.expressionTail least operand) ahead value left := reads_ask

@[simp] theorem reads_type : (type least).Reads readings ahead type' left ↔
    readings (.type least) ahead type' left := reads_ask

@[simp] theorem reads_typeTail : (typeTail least type'').Reads readings ahead type' left ↔
    readings (.typeTail least type'') ahead type' left := reads_ask

@[simp] theorem reads_statement : statement.Reads readings ahead read left ↔
    readings .statement ahead read left := reads_ask

@[simp] theorem reads_statements : statements.Reads readings ahead body left ↔
    readings .statements ahead body left := reads_ask

@[simp] theorem reads_conditional : conditional.Reads readings ahead read left ↔
    readings .conditional ahead read left := reads_ask

@[simp] theorem reads_arguments : (arguments close).Reads readings ahead contents left ↔
    readings (.arguments close) ahead contents left := reads_ask

@[simp] theorem reads_parameters : parameters.Reads readings ahead names left ↔
    readings .parameters ahead names left := reads_ask

end Asked

/-! ## Passed and optional tokens -/

/-- The kind of the current token decides what is read. -/
theorem reads_kind_bind {next : TokenKind → Recipe α} {result : α} :
    (kind >>= next).Reads readings ahead result left ↔
      ∃ token rest, ahead = token :: rest ∧
        (next token.kind).Reads readings ahead result left := by
  simp only [reads_bind, reads_kind]
  constructor
  · rintro ⟨_, _, ⟨rfl, token, rest, same, rfl⟩, read⟩
    exact ⟨token, rest, same, read⟩
  · rintro ⟨token, rest, same, read⟩
    exact ⟨token.kind, ahead, ⟨rfl, token, rest, same, rfl⟩, read⟩

theorem reads_optional {mark : TokenKind} {content : Recipe α} {result : Option α} :
    (optional mark content).Reads readings ahead result left ↔
      (∃ text rest value, ahead = ⟨mark, text⟩ :: rest ∧ result = some value ∧
        content.Reads readings rest value left) ∨
      (∃ token rest, ahead = token :: rest ∧ token.kind ≠ mark ∧ result = none ∧
        left = ahead) := by
  simp only [optional, reads_ifKind, reads_bind, reads_take, reads_pure, reads_yield]
  constructor
  · rintro ⟨⟨kind, text⟩, rest, rfl, read⟩
    by_cases same : kind = mark
    · rw [if_pos same] at read
      obtain ⟨_, _, ends, value, _, inside, rfl, rfl⟩ := read
      cases ends
      exact .inl ⟨text, rest, value, same ▸ rfl, rfl, inside⟩
    · rw [if_neg same] at read
      exact .inr ⟨⟨kind, text⟩, rest, rfl, same, read.1, read.2⟩
  · rintro (⟨text, rest, value, rfl, rfl, inside⟩ | ⟨token, rest, rfl, other, rfl, rfl⟩)
    · refine ⟨⟨mark, text⟩, rest, rfl, ?_⟩
      rw [if_pos rfl]
      exact ⟨⟨mark, text⟩, rest, rfl, value, left, inside, rfl, rfl⟩
    · refine ⟨token, rest, rfl, ?_⟩
      rw [if_neg other]
      exact ⟨rfl, rfl⟩

theorem reads_optional_some {mark : TokenKind} {content : Recipe α} {text : String} {value : α}
    {rest : List Token} (read : content.Reads readings rest value left) :
    (optional mark content).Reads readings (⟨mark, text⟩ :: rest) (some value) left :=
  reads_optional.mpr (.inl ⟨text, rest, value, rfl, rfl, read⟩)

theorem reads_optional_none {mark : TokenKind} {content : Recipe α} {token : Token}
    {rest : List Token} (other : token.kind ≠ mark) :
    (optional mark content).Reads readings (token :: rest) none (token :: rest) :=
  reads_optional.mpr (.inr ⟨token, rest, rfl, other, rfl, rfl⟩)

theorem reads_separator {close : TokenKind} {result : Unit} :
    (separator close).Reads readings ahead result left ↔
      ∃ token rest, ahead = token :: rest ∧
        if token.kind = .endOfInput ∨ token.kind = close then left = ahead
        else token.kind = .comma ∧ left = rest := by
  simp only [separator, Reads]
  constructor
  · rintro ⟨token, rest, rfl, read⟩
    refine ⟨token, rest, rfl, ?_⟩
    by_cases ends : token.kind = .endOfInput ∨ token.kind = close
    · rw [if_pos ends] at read ⊢
      exact read.2
    · rw [if_neg ends] at read ⊢
      simp only [reads_bind, reads_expect, reads_pure] at read
      obtain ⟨_, _, ⟨same, comma⟩, -, rfl⟩ := read
      cases same
      exact ⟨comma, rfl⟩
  · rintro ⟨token, rest, rfl, read⟩
    refine ⟨token, rest, rfl, ?_⟩
    by_cases ends : token.kind = .endOfInput ∨ token.kind = close
    · rw [if_pos ends] at read ⊢
      exact ⟨rfl, read⟩
    · rw [if_neg ends] at read ⊢
      obtain ⟨comma, rfl⟩ := read
      exact reads_bind.mpr ⟨token, left, reads_expect.mpr ⟨rfl, comma⟩, rfl, rfl⟩

/-! ## Between brackets -/

theorem reads_between {open' close : TokenKind} {phrase : Phrase} {value : phrase.Value} :
    (do
        let _ ← expect open'
        let value ← ask phrase
        let _ ← expect close
        return value : Recipe phrase.Value).Reads readings ahead value left ↔
      ∃ opening inside closing, ahead = ⟨open', opening⟩ :: inside ∧
        readings phrase inside value (⟨close, closing⟩ :: left) := by
  simp only [reads_bind, reads_ask, reads_expect, reads_pure]
  constructor
  · rintro ⟨⟨_, opening⟩, inside, ⟨rfl, rfl⟩, _, _, read, ⟨_, closing⟩, _, ⟨rfl, rfl⟩, rfl, rfl⟩
    exact ⟨opening, inside, closing, rfl, read⟩
  · rintro ⟨opening, inside, closing, rfl, read⟩
    exact ⟨_, inside, ⟨rfl, rfl⟩, value, _, read, _, left, ⟨rfl, rfl⟩, rfl, rfl⟩

theorem reads_block {body : List Statement} : block.Reads readings ahead body left ↔
    ∃ opening inside closing, ahead = ⟨.openCurly, opening⟩ :: inside ∧
      readings .statements inside body (⟨.closeCurly, closing⟩ :: left) := reads_between

theorem reads_grouping {content : Expr} : grouping.Reads readings ahead content left ↔
    ∃ opening inside closing, ahead = ⟨.openParen, opening⟩ :: inside ∧
      readings (.expression .lowest) inside content (⟨.closeParen, closing⟩ :: left) :=
  reads_between

theorem reads_enclosed {open' close : TokenKind} {contents : List Expr} :
    (enclosed open' close).Reads readings ahead contents left ↔
      ∃ opening inside closing, ahead = ⟨open', opening⟩ :: inside ∧
        readings (.arguments close) inside contents (⟨close, closing⟩ :: left) := reads_between

theorem reads_functionRest {signature : Signature} {body : List Statement} :
    functionRest.Reads readings ahead (signature, body) left ↔
      ∃ opening inside closing behind middle, ahead = ⟨.openParen, opening⟩ :: inside ∧
        readings .parameters inside signature.parameters (⟨.closeParen, closing⟩ :: behind) ∧
        (optional .colon (type .lowest)).Reads readings behind signature.result middle ∧
        block.Reads readings middle body left := by
  simp only [functionRest, reads_bind, reads_expect, reads_parameters, reads_pure]
  constructor
  · rintro ⟨⟨_, opening⟩, inside, ⟨rfl, rfl⟩, names, _, read, ⟨_, closing⟩, behind, ⟨rfl, rfl⟩,
      result, middle, type, _, _, body, same, rfl⟩
    cases same
    exact ⟨opening, inside, closing, behind, middle, rfl, read, type, body⟩
  · rintro ⟨opening, inside, closing, behind, middle, rfl, read, type, body⟩
    exact ⟨_, inside, ⟨rfl, rfl⟩, _, _, read, _, behind, ⟨rfl, rfl⟩, _, middle, type, _, _, body,
      rfl, rfl⟩

/-! ## Forms of expressions -/

theorem reads_primary {value : Expr} : primary.Reads readings ahead value left ↔
    ∃ token, ahead = token :: left ∧ ofToken token = .ok value := reads_tokenAs

theorem reads_operation {value : Expr} : operation.Reads readings ahead value left ↔
    ∃ operator rest operand, ahead = operator :: rest ∧
      readings (.expression .unary) rest operand left ∧ value = .operation operator operand := by
  simp only [operation, reads_bind, reads_take, reads_expression, reads_pure]
  constructor
  · rintro ⟨operator, rest, rfl, operand, _, read, rfl, rfl⟩
    exact ⟨operator, rest, operand, rfl, read, rfl⟩
  · rintro ⟨operator, rest, operand, rfl, read, rfl⟩
    exact ⟨operator, rest, rfl, operand, left, read, rfl, rfl⟩

theorem reads_array {value : Expr} : array.Reads readings ahead value left ↔
    ∃ elements, (enclosed .openBracket .closeBracket).Reads readings ahead elements left ∧
      value = .array elements := by
  simp only [array, reads_bind, reads_pure]
  constructor
  · rintro ⟨elements, _, read, rfl, rfl⟩
    exact ⟨elements, read, rfl⟩
  · rintro ⟨elements, read, rfl⟩
    exact ⟨elements, left, read, rfl, rfl⟩

theorem reads_functionLiteral {value : Expr} : functionLiteral.Reads readings ahead value left ↔
    ∃ opening rest signature body, ahead = ⟨.fnWord, opening⟩ :: rest ∧
      functionRest.Reads readings rest (signature, body) left ∧
      value = .function signature body := by
  simp only [functionLiteral, reads_bind, reads_expect, reads_pure]
  constructor
  · rintro ⟨⟨_, opening⟩, rest, ⟨rfl, rfl⟩, ⟨signature, body⟩, _, read, rfl, rfl⟩
    exact ⟨opening, rest, signature, body, rfl, read, rfl⟩
  · rintro ⟨opening, rest, signature, body, rfl, read, rfl⟩
    exact ⟨_, rest, ⟨rfl, rfl⟩, (signature, body), left, read, rfl, rfl⟩

theorem ofCall_eq_ok {content value : Expr} : ofCall content = .ok value ↔
    ∃ callee arguments, content = .call callee arguments ∧ value = .creation callee arguments := by
  constructor
  · intro made
    cases content with
    | call callee arguments =>
        cases made
        exact ⟨callee, arguments, rfl, rfl⟩
    | _ => cases made
  · rintro ⟨callee, arguments, rfl, rfl⟩
    rfl

theorem reads_creation {value : Expr} : creation.Reads readings ahead value left ↔
    ∃ opening rest callee arguments, ahead = ⟨.newWord, opening⟩ :: rest ∧
      readings (.expression .lowest) rest (.call callee arguments) left ∧
      value = .creation callee arguments := by
  simp only [creation, reads_bind, reads_expect, reads_phraseAs, ofCall_eq_ok]
  constructor
  · rintro ⟨⟨_, opening⟩, rest, ⟨rfl, rfl⟩, _, read, callee, arguments, rfl, rfl⟩
    exact ⟨opening, rest, callee, arguments, rfl, read, rfl⟩
  · rintro ⟨opening, rest, callee, arguments, rfl, read, rfl⟩
    exact ⟨_, rest, ⟨rfl, rfl⟩, _, read, callee, arguments, rfl, rfl⟩

/-- All rules that join two operands read alike: the operator and a right operand. -/
theorem reads_joining {rule : InfixRule} (joins : rule.joins) {first value : Expr}
    {power : Power} : (rule.recipe first power).Reads readings ahead value left ↔
      ∃ operator rest second, ahead = operator :: rest ∧
        readings (.expression (rule.rightPower power)) rest second left ∧
        value = rule.join first operator second := by
  have read : ∀ (power' : Power) (make : Token → Expr → Expr),
      (do
        let operator ← take
        let second ← expression power'
        return make operator second : Recipe Expr).Reads readings ahead value left ↔
      ∃ operator rest second, ahead = operator :: rest ∧
        readings (.expression power') rest second left ∧ value = make operator second := by
    intro power' make
    simp only [reads_bind, reads_take, reads_expression, reads_pure]
    constructor
    · rintro ⟨operator, rest, rfl, second, _, read, rfl, rfl⟩
      exact ⟨operator, rest, second, rfl, read, rfl⟩
    · rintro ⟨operator, rest, second, rfl, read, rfl⟩
      exact ⟨operator, rest, rfl, second, left, read, rfl, rfl⟩
  cases rule with
  | binary => exact read power fun operator second => .binary first operator second
  | assignment => exact read power.weaker fun operator second => .assignment first operator second
  | range => exact read power.weaker fun _ second => .range first second
  | call | member => cases joins

theorem reads_call {callee value : Expr} : (call callee).Reads readings ahead value left ↔
    ∃ arguments, (enclosed .openParen .closeParen).Reads readings ahead arguments left ∧
      value = .call callee arguments := by
  simp only [call, reads_bind, reads_pure]
  constructor
  · rintro ⟨arguments, _, read, rfl, rfl⟩
    exact ⟨arguments, read, rfl⟩
  · rintro ⟨arguments, read, rfl⟩
    exact ⟨arguments, left, read, rfl, rfl⟩

theorem reads_member {object value : Expr} : (member object).Reads readings ahead value left ↔
    (∃ opening inside index closing, ahead = ⟨.openBracket, opening⟩ :: inside ∧
      readings (.expression .lowest) inside index (⟨.closeBracket, closing⟩ :: left) ∧
      value = .element object index) ∨
    (∃ operator property, ahead = operator :: ⟨.identifier, property⟩ :: left ∧
      operator.kind ≠ .openBracket ∧ value = .member object property) := by
  simp only [member, reads_bind, reads_take]
  constructor
  · rintro ⟨⟨kind, text⟩, rest, rfl, read⟩
    by_cases computed : kind = .openBracket
    · subst computed
      simp only [if_true, reads_bind, reads_expression, reads_expect, reads_pure] at read
      obtain ⟨index, _, inside, ⟨_, closing⟩, _, ⟨rfl, rfl⟩, rfl, rfl⟩ := read
      exact .inl ⟨text, rest, index, closing, rfl, inside, rfl⟩
    · simp only [if_neg computed, reads_bind, reads_expectText, reads_pure] at read
      obtain ⟨property, _, rfl, rfl, rfl⟩ := read
      exact .inr ⟨⟨kind, text⟩, property, rfl, computed, rfl⟩
  · rintro (⟨opening, inside, index, closing, rfl, read, rfl⟩ |
      ⟨operator, property, rfl, named, rfl⟩)
    · refine ⟨⟨.openBracket, opening⟩, inside, rfl, ?_⟩
      simp only [if_true, reads_bind, reads_expression, reads_expect, reads_pure]
      exact ⟨index, _, read, _, left, ⟨rfl, rfl⟩, rfl, rfl⟩
    · refine ⟨operator, ⟨.identifier, property⟩ :: left, rfl, ?_⟩
      simp only [if_neg named, reads_bind, reads_expectText, reads_pure]
      exact ⟨property, left, rfl, rfl, rfl⟩

/-! ## Forms of types -/

theorem reads_typeName {value : TypeExpr} : typeName.Reads readings ahead value left ↔
    ∃ name, ahead = ⟨.identifier, name⟩ :: left ∧ value = .name name := by
  simp only [typeName, reads_bind, reads_expectText, reads_pure]
  constructor
  · rintro ⟨name, _, rfl, rfl, rfl⟩
    exact ⟨name, rfl, rfl⟩
  · rintro ⟨name, rfl, rfl⟩
    exact ⟨name, left, rfl, rfl, rfl⟩

theorem reads_typeList {value : TypeExpr} : typeList.Reads readings ahead value left ↔
    ∃ opening closing rest element,
      ahead = ⟨.openBracket, opening⟩ :: ⟨.closeBracket, closing⟩ :: rest ∧
      readings (.type .lowest) rest element left ∧ value = .list element := by
  simp only [typeList, reads_bind, reads_expect, reads_type, reads_pure]
  constructor
  · rintro ⟨⟨_, opening⟩, _, ⟨rfl, rfl⟩, ⟨_, closing⟩, rest, ⟨rfl, rfl⟩, element, _, read, rfl, rfl⟩
    exact ⟨opening, closing, rest, element, rfl, read, rfl⟩
  · rintro ⟨opening, closing, rest, element, rfl, read, rfl⟩
    exact ⟨_, _, ⟨rfl, rfl⟩, _, rest, ⟨rfl, rfl⟩, element, left, read, rfl, rfl⟩

/-! ## Forms of statements -/

theorem reads_expressionStatement {value : Statement} :
    expressionStatement.Reads readings ahead value left ↔
      ∃ content closing, readings (.expression .lowest) ahead content (⟨.semicolon, closing⟩ :: left) ∧
        value = .expression content := by
  simp only [expressionStatement, reads_bind, reads_expect, reads_expression, reads_pure]
  constructor
  · rintro ⟨content, _, read, ⟨_, closing⟩, _, ⟨rfl, rfl⟩, rfl, rfl⟩
    exact ⟨content, closing, read, rfl⟩
  · rintro ⟨content, closing, read, rfl⟩
    exact ⟨content, _, read, _, left, ⟨rfl, rfl⟩, rfl, rfl⟩

theorem reads_blockStatement {value : Statement} :
    blockStatement.Reads readings ahead value left ↔
      ∃ body, block.Reads readings ahead body left ∧ value = .block body := by
  simp only [blockStatement, reads_bind, reads_pure]
  constructor
  · rintro ⟨body, _, read, rfl, rfl⟩
    exact ⟨body, read, rfl⟩
  · rintro ⟨body, read, rfl⟩
    exact ⟨body, left, read, rfl, rfl⟩

theorem reads_initialValue {constant : Bool} {name : String} {type : Option TypeExpr}
    {value : Option Expr} : (initialValue constant name type).Reads readings ahead value left ↔
      (∃ text rest, ahead = ⟨.semicolon, text⟩ :: rest ∧ constant = false ∧ type ≠ none ∧
        value = none ∧ left = ahead) ∨
      (∃ text rest content, ahead = ⟨.assignment, text⟩ :: rest ∧
        readings (.expression .assignment) rest content left ∧ value = some content) := by
  simp only [initialValue, Reads]
  constructor
  · rintro ⟨⟨kind, text⟩, rest, rfl, read⟩
    by_cases bare : kind = .semicolon
    · subst bare
      cases constant with
      | true => exact read.elim
      | false =>
          cases type with
          | none => exact read.elim
          | some type => exact .inl ⟨text, rest, rfl, rfl, by simp, read.1, read.2⟩
    · simp only [if_neg bare, reads_bind, reads_expect, reads_expression, reads_pure] at read
      obtain ⟨⟨_, _⟩, _, ⟨same, rfl⟩, content, _, inside, rfl, rfl⟩ := read
      cases same
      exact .inr ⟨text, rest, content, rfl, inside, rfl⟩
  · rintro (⟨text, rest, rfl, rfl, typed, rfl, rfl⟩ | ⟨text, rest, content, rfl, inside, rfl⟩)
    · refine ⟨⟨.semicolon, text⟩, rest, rfl, ?_⟩
      simp only [if_true, typed]
      exact ⟨rfl, rfl⟩
    · refine ⟨⟨.assignment, text⟩, rest, rfl, ?_⟩
      rw [if_neg (by decide : TokenKind.assignment ≠ .semicolon)]
      simp only [reads_bind, reads_expect, reads_expression, reads_pure]
      exact ⟨_, rest, ⟨rfl, rfl⟩, content, left, inside, rfl, rfl⟩

theorem reads_declaration {value : Statement} : declaration.Reads readings ahead value left ↔
    ∃ opening name rest middle type content closing,
      ahead = opening :: ⟨.identifier, name⟩ :: rest ∧
      (optional .colon (Recipe.type .lowest)).Reads readings rest type middle ∧
      (initialValue (decide (opening.kind = .constWord)) name type).Reads readings middle content
        (⟨.semicolon, closing⟩ :: left) ∧
      value = .declaration name (decide (opening.kind = .constWord)) content type := by
  simp only [declaration, reads_bind, reads_take, reads_expectText, reads_expect, reads_pure]
  constructor
  · rintro ⟨opening, _, rfl, name, rest, rfl, type, middle, typed, content, _, given,
      ⟨_, closing⟩, _, ⟨rfl, rfl⟩, rfl, rfl⟩
    exact ⟨opening, name, rest, middle, type, content, closing, rfl, typed, given, rfl⟩
  · rintro ⟨opening, name, rest, middle, type, content, closing, rfl, typed, given, rfl⟩
    exact ⟨opening, _, rfl, name, rest, rfl, type, middle, typed, content, _, given, _, left,
      ⟨rfl, rfl⟩, rfl, rfl⟩

theorem reads_functionDeclaration {value : Statement} :
    functionDeclaration.Reads readings ahead value left ↔
      ∃ opening name rest signature body, ahead = opening :: ⟨.identifier, name⟩ :: rest ∧
        functionRest.Reads readings rest (signature, body) left ∧
        value = .function name signature body := by
  simp only [functionDeclaration, reads_bind, reads_take, reads_expectText, reads_pure]
  constructor
  · rintro ⟨opening, _, rfl, name, rest, rfl, ⟨signature, body⟩, _, read, rfl, rfl⟩
    exact ⟨opening, name, rest, signature, body, rfl, read, rfl⟩
  · rintro ⟨opening, name, rest, signature, body, rfl, read, rfl⟩
    exact ⟨opening, _, rfl, name, rest, rfl, (signature, body), left, read, rfl, rfl⟩

theorem reads_importing {value : Statement} : importing.Reads readings ahead value left ↔
    ∃ opening name rest source closing, ahead = opening :: ⟨.identifier, name⟩ :: rest ∧
      (optional .fromWord (expectText .text)).Reads readings rest source
        (⟨.semicolon, closing⟩ :: left) ∧
      value = .importing name (source.getD name) := by
  simp only [importing, reads_bind, reads_take, reads_expectText, reads_expect, reads_pure]
  constructor
  · rintro ⟨opening, _, rfl, name, rest, rfl, source, _, read, ⟨_, closing⟩, _, ⟨rfl, rfl⟩, rfl, rfl⟩
    exact ⟨opening, name, rest, source, closing, rfl, read, rfl⟩
  · rintro ⟨opening, name, rest, source, closing, rfl, read, rfl⟩
    exact ⟨opening, _, rfl, name, rest, rfl, source, _, read, _, left, ⟨rfl, rfl⟩, rfl, rfl⟩

theorem reads_foreach {value : Statement} : foreach.Reads readings ahead value left ↔
    ∃ opening item rest index word inside iterable middle body,
      ahead = opening :: ⟨.identifier, item⟩ :: rest ∧
      (optional .comma (expectText .identifier)).Reads readings rest index
        (⟨.inWord, word⟩ :: inside) ∧
      readings (.expression .lowest) inside iterable middle ∧
      block.Reads readings middle body left ∧ value = .foreach item index iterable body := by
  simp only [foreach, reads_bind, reads_take, reads_expectText, reads_expect, reads_expression,
    reads_pure]
  constructor
  · rintro ⟨opening, _, rfl, item, rest, rfl, index, _, counted, ⟨_, word⟩, inside, ⟨rfl, rfl⟩,
      iterable, middle, read, body, _, inner, rfl, rfl⟩
    exact ⟨opening, item, rest, index, word, inside, iterable, middle, body, rfl, counted, read,
      inner, rfl⟩
  · rintro ⟨opening, item, rest, index, word, inside, iterable, middle, body, rfl, counted, read,
      inner, rfl⟩
    exact ⟨opening, _, rfl, item, rest, rfl, index, _, counted, _, inside, ⟨rfl, rfl⟩, iterable,
      middle, read, body, left, inner, rfl, rfl⟩

theorem reads_classDeclaration {value : Statement} :
    classDeclaration.Reads readings ahead value left ↔
      ∃ opening name rest body, ahead = opening :: ⟨.identifier, name⟩ :: rest ∧
        block.Reads readings rest body left ∧ value = .classDeclaration name body := by
  simp only [classDeclaration, reads_bind, reads_take, reads_expectText, reads_pure]
  constructor
  · rintro ⟨opening, _, rfl, name, rest, rfl, body, _, read, rfl, rfl⟩
    exact ⟨opening, name, rest, body, rfl, read, rfl⟩
  · rintro ⟨opening, name, rest, body, rfl, read, rfl⟩
    exact ⟨opening, _, rfl, name, rest, rfl, body, left, read, rfl, rfl⟩

theorem reads_returning {value : Statement} : returning.Reads readings ahead value left ↔
    (∃ opening closing, ahead = opening :: ⟨.semicolon, closing⟩ :: left ∧
      value = .returning none) ∨
    (∃ opening token rest content closing, ahead = opening :: token :: rest ∧
      token.kind ≠ .semicolon ∧
      readings (.expression .lowest) (token :: rest) content (⟨.semicolon, closing⟩ :: left) ∧
      value = .returning (some content)) := by
  simp only [returning, reads_bind, reads_take, reads_ifKind, reads_expect, reads_pure]
  constructor
  · rintro ⟨opening, _, rfl, content, _, ⟨⟨kind, text⟩, rest, rfl, read⟩, ⟨_, closing⟩, _,
      ⟨ends, rfl⟩, rfl, rfl⟩
    by_cases bare : kind = .semicolon
    · rw [if_pos bare] at read
      obtain ⟨rfl, rfl⟩ := read
      cases ends
      exact .inl ⟨opening, text, rfl, rfl⟩
    · simp only [if_neg bare, reads_expression] at read
      obtain ⟨inner, _, read, rfl, rfl⟩ := read
      cases ends
      exact .inr ⟨opening, ⟨kind, text⟩, rest, inner, closing, rfl, bare, read, rfl⟩
  · rintro (⟨opening, closing, rfl, rfl⟩ |
      ⟨opening, token, rest, content, closing, rfl, bare, read, rfl⟩)
    · refine ⟨opening, _, rfl, none, ⟨.semicolon, closing⟩ :: left, ⟨_, left, rfl, ?_⟩,
        ⟨.semicolon, closing⟩, left, ⟨rfl, rfl⟩, rfl, rfl⟩
      rw [if_pos rfl]
      exact ⟨rfl, rfl⟩
    · refine ⟨opening, _, rfl, some content, ⟨.semicolon, closing⟩ :: left,
        ⟨token, rest, rfl, ?_⟩, _, left, ⟨rfl, rfl⟩, rfl, rfl⟩
      rw [if_neg bare]
      exact ⟨content, _, reads_expression.mpr read, rfl, rfl⟩

theorem reads_loop {value : Statement} : loop.Reads readings ahead value left ↔
    ∃ opening rest condition middle body, ahead = opening :: rest ∧
      readings (.expression .assignment) rest condition middle ∧
      block.Reads readings middle body left ∧ value = .loop condition body := by
  simp only [loop, reads_bind, reads_take, reads_expression, reads_pure]
  constructor
  · rintro ⟨opening, rest, rfl, condition, middle, read, body, _, inner, rfl, rfl⟩
    exact ⟨opening, rest, condition, middle, body, rfl, read, inner, rfl⟩
  · rintro ⟨opening, rest, condition, middle, body, rfl, read, inner, rfl⟩
    exact ⟨opening, rest, rfl, condition, middle, read, body, left, inner, rfl, rfl⟩

/-! ## Phrases under tables -/

section Phrases

variable {tables : Tables}

theorem reads_expressionPhrase {least : Power} {value : Expr} :
    (expressionPhrase tables least).Reads readings ahead value left ↔
      ∃ token rest recipe first middle, ahead = token :: rest ∧
        tables.prefixRule token.kind = some recipe ∧
        recipe.Reads readings ahead first middle ∧
        readings (.expressionTail least first) middle value left := by
  rw [expressionPhrase, reads_kind_bind]
  constructor
  · rintro ⟨token, rest, rfl, read⟩
    cases found : tables.prefixRule token.kind with
    | none => simp [found] at read
    | some recipe =>
        simp only [found, reads_bind, reads_expressionTail] at read
        obtain ⟨first, middle, begun, tail⟩ := read
        exact ⟨token, rest, recipe, first, middle, rfl, found, begun, tail⟩
  · rintro ⟨token, rest, recipe, first, middle, rfl, found, begun, tail⟩
    refine ⟨token, rest, rfl, ?_⟩
    simp only [found, reads_bind, reads_expressionTail]
    exact ⟨first, middle, begun, tail⟩

theorem reads_expressionTailPhrase {least : Power} {first value : Expr} :
    (expressionTailPhrase tables least first).Reads readings ahead value left ↔
      ∃ token rest, ahead = token :: rest ∧
        ((¬ least < tables.power token.kind ∧ value = first ∧ left = ahead) ∨
          (least < tables.power token.kind ∧ ∃ recipe whole middle,
            tables.infixRule token.kind = some recipe ∧
            (recipe first (tables.power token.kind)).Reads readings ahead whole middle ∧
            readings (.expressionTail least whole) middle value left)) := by
  rw [expressionTailPhrase, reads_kind_bind]
  constructor
  · rintro ⟨token, rest, rfl, read⟩
    refine ⟨token, rest, rfl, ?_⟩
    by_cases tighter : least < tables.power token.kind
    · rw [if_pos tighter] at read
      cases found : tables.infixRule token.kind with
      | none => simp [found] at read
      | some recipe =>
          simp only [found, reads_bind, reads_expressionTail] at read
          obtain ⟨whole, middle, joined, tail⟩ := read
          exact .inr ⟨tighter, recipe, whole, middle, rfl, joined, tail⟩
    · rw [if_neg tighter] at read
      exact .inl ⟨tighter, read.1, read.2⟩
  · rintro ⟨token, rest, rfl, ⟨stops, rfl, rfl⟩ | ⟨tighter, recipe, whole, middle, found, joined, tail⟩⟩
    · refine ⟨token, rest, rfl, ?_⟩
      rw [if_neg stops]
      exact ⟨rfl, rfl⟩
    · refine ⟨token, rest, rfl, ?_⟩
      rw [if_pos tighter]
      simp only [found, reads_bind, reads_expressionTail]
      exact ⟨whole, middle, joined, tail⟩

theorem reads_typePhrase {least : Power} {value : TypeExpr} :
    (typePhrase tables least).Reads readings ahead value left ↔
      ∃ token rest recipe first middle, ahead = token :: rest ∧
        tables.typePrefixRule token.kind = some recipe ∧
        recipe.Reads readings ahead first middle ∧
        readings (.typeTail least first) middle value left := by
  rw [typePhrase, reads_kind_bind]
  constructor
  · rintro ⟨token, rest, rfl, read⟩
    cases found : tables.typePrefixRule token.kind with
    | none => simp [found] at read
    | some recipe =>
        simp only [found, reads_bind, reads_typeTail] at read
        obtain ⟨first, middle, begun, tail⟩ := read
        exact ⟨token, rest, recipe, first, middle, rfl, found, begun, tail⟩
  · rintro ⟨token, rest, recipe, first, middle, rfl, found, begun, tail⟩
    refine ⟨token, rest, rfl, ?_⟩
    simp only [found, reads_bind, reads_typeTail]
    exact ⟨first, middle, begun, tail⟩

/-- Where no kind goes on from a type, a type ends where its first rule ends. -/
theorem reads_typeTailPhrase (plain : ∀ kind, tables.typeInfixPower kind = none) {least : Power}
    {first value : TypeExpr} :
    (typeTailPhrase tables least first).Reads readings ahead value left ↔
      ahead ≠ [] ∧ value = first ∧ left = ahead := by
  have stops : ∀ kind, ¬ least < tables.typePower kind := by
    intro kind
    rw [Tables.typePower, plain]
    exact Nat.not_lt_zero _
  rw [typeTailPhrase, reads_kind_bind]
  constructor
  · rintro ⟨token, rest, rfl, read⟩
    rw [if_neg (stops _)] at read
    exact ⟨by simp, read.1, read.2⟩
  · rintro ⟨some, rfl, rfl⟩
    obtain ⟨token, rest, rfl⟩ := List.exists_cons_of_ne_nil some
    refine ⟨token, rest, rfl, ?_⟩
    rw [if_neg (stops _)]
    exact ⟨rfl, rfl⟩

theorem reads_statementPhrase {value : Statement} :
    (statementPhrase tables).Reads readings ahead value left ↔
      ∃ token rest, ahead = token :: rest ∧
        ((tables.statementRule token.kind = none ∧
            expressionStatement.Reads readings ahead value left) ∨
          ∃ recipe, tables.statementRule token.kind = some recipe ∧
            recipe.Reads readings ahead value left) := by
  rw [statementPhrase, reads_kind_bind]
  constructor
  · rintro ⟨token, rest, rfl, read⟩
    refine ⟨token, rest, rfl, ?_⟩
    cases found : tables.statementRule token.kind with
    | none =>
        rw [found] at read
        exact .inl ⟨rfl, read⟩
    | some recipe =>
        rw [found] at read
        exact .inr ⟨recipe, rfl, read⟩
  · rintro ⟨token, rest, rfl, ⟨none, read⟩ | ⟨recipe, found, read⟩⟩
    · refine ⟨token, rest, rfl, ?_⟩
      rw [none]
      exact read
    · refine ⟨token, rest, rfl, ?_⟩
      rw [found]
      exact read

theorem reads_statementsPhrase {body : List Statement} :
    statementsPhrase.Reads readings ahead body left ↔
      ∃ token rest, ahead = token :: rest ∧
        if token.kind = .endOfInput ∨ token.kind = .closeCurly then body = [] ∧ left = ahead
        else ∃ first middle others, readings .statement ahead first middle ∧
          readings .statements middle others left ∧ body = first :: others := by
  rw [statementsPhrase, reads_kind_bind]
  refine exists_congr fun token => exists_congr fun rest => and_congr_right fun _ => ?_
  by_cases ends : token.kind = .endOfInput ∨ token.kind = .closeCurly
  · rw [if_pos ends, if_pos ends]
    exact reads_pure
  · rw [if_neg ends, if_neg ends]
    simp only [reads_bind, reads_statement, reads_statements, reads_pure]
    constructor
    · rintro ⟨first, middle, read, others, _, more, rfl, rfl⟩
      exact ⟨first, middle, others, read, more, rfl⟩
    · rintro ⟨first, middle, others, read, more, rfl⟩
      exact ⟨first, middle, read, others, left, more, rfl, rfl⟩

theorem reads_argumentsPhrase {close : TokenKind} {contents : List Expr} :
    (argumentsPhrase close).Reads readings ahead contents left ↔
      ∃ token rest, ahead = token :: rest ∧
        if token.kind = .endOfInput ∨ token.kind = close then contents = [] ∧ left = ahead
        else ∃ first middle behind others, readings (.expression .assignment) ahead first middle ∧
          (separator close).Reads readings middle () behind ∧
          readings (.arguments close) behind others left ∧ contents = first :: others := by
  rw [argumentsPhrase, reads_kind_bind]
  refine exists_congr fun token => exists_congr fun rest => and_congr_right fun _ => ?_
  by_cases ends : token.kind = .endOfInput ∨ token.kind = close
  · rw [if_pos ends, if_pos ends]
    exact reads_pure
  · rw [if_neg ends, if_neg ends]
    simp only [reads_bind, reads_expression, reads_arguments, reads_pure]
    constructor
    · rintro ⟨first, middle, read, _, behind, apart, others, _, more, rfl, rfl⟩
      exact ⟨first, middle, behind, others, read, apart, more, rfl⟩
    · rintro ⟨first, middle, behind, others, read, apart, more, rfl⟩
      exact ⟨first, middle, read, (), behind, apart, others, left, more, rfl, rfl⟩

theorem reads_parametersPhrase {names : List Parameter} :
    parametersPhrase.Reads readings ahead names left ↔
      ∃ token rest, ahead = token :: rest ∧
        if token.kind = .endOfInput ∨ token.kind = .closeParen then names = [] ∧ left = ahead
        else ∃ name colon inside type middle behind others,
          ahead = ⟨.identifier, name⟩ :: ⟨.colon, colon⟩ :: inside ∧
          readings (.type .lowest) inside type middle ∧
          (separator .closeParen).Reads readings middle () behind ∧
          readings .parameters behind others left ∧ names = ⟨name, type⟩ :: others := by
  rw [parametersPhrase, reads_kind_bind]
  refine exists_congr fun token => exists_congr fun rest => and_congr_right fun _ => ?_
  by_cases ends : token.kind = .endOfInput ∨ token.kind = .closeParen
  · rw [if_pos ends, if_pos ends]
    exact reads_pure
  · rw [if_neg ends, if_neg ends]
    simp only [reads_bind, reads_expectText, reads_expect, reads_type, reads_parameters, reads_pure]
    constructor
    · rintro ⟨name, _, rfl, ⟨_, colon⟩, inside, ⟨rfl, rfl⟩, type, middle, typed, _, behind, apart,
        others, _, more, rfl, rfl⟩
      exact ⟨name, colon, inside, type, middle, behind, others, rfl, typed, apart, more, rfl⟩
    · rintro ⟨name, colon, inside, type, middle, behind, others, rfl, typed, apart, more, rfl⟩
      exact ⟨name, _, rfl, _, inside, ⟨rfl, rfl⟩, type, middle, typed, (), behind, apart, others,
        left, more, rfl, rfl⟩

theorem reads_conditionalPhrase {value : Statement} :
    conditionalPhrase.Reads readings ahead value left ↔
      ∃ opening rest condition middle consequent behind alternative, ahead = opening :: rest ∧
        readings (.expression .assignment) rest condition middle ∧
        block.Reads readings middle consequent behind ∧
        (optional .elseWord (ifKind .ifWord conditional blockStatement)).Reads readings behind
          alternative left ∧
        value = .conditional condition consequent alternative := by
  simp only [conditionalPhrase, reads_bind, reads_take, reads_expression, reads_pure]
  constructor
  · rintro ⟨opening, rest, rfl, condition, middle, read, consequent, behind, inner, alternative, _,
      other, rfl, rfl⟩
    exact ⟨opening, rest, condition, middle, consequent, behind, alternative, rfl, read, inner,
      other, rfl⟩
  · rintro ⟨opening, rest, condition, middle, consequent, behind, alternative, rfl, read, inner,
      other, rfl⟩
    exact ⟨opening, rest, rfl, condition, middle, read, consequent, behind, inner, alternative, left,
      other, rfl, rfl⟩

end Phrases

end Recipe

end ScriptReader
