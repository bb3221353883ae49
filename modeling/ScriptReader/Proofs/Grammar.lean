/- # ScriptReader.Proofs.Grammar — the grammar of the language

The grammar as it is usually written: a rule for each category, made of tokens of
given kinds, parts of other categories, sequences, choices, options and
repetitions. It says which lists of tokens are programs and nothing about how they
are read: there are no powers in it, and no rule says where it ends.

`Derives` says that a list of tokens has the form of a pattern. `Covers` says it of
what stands in front of some place of a list, as readings do. `Derives.spells` is
the induction over the grammar.
-/
import Mathlib.Logic.Relation
import ScriptReader.Proofs.Language

namespace ScriptReader

set_option autoImplicit false

/-- The categories of the grammar. An expression is told by the kinds that may join its
operands; a creation is the operand that ends an expression; a continuation goes on from
something in a chain; a call is what may stand behind `new`. -/
inductive Category where
  | statement | conditional | block | signature | parameter | type
  | expression (operators : List TokenKind)
  | operand | creation | chain | primary | continuation | call

namespace Category

/-- Expressions that may assign. -/
def anyExpression : Category := .expression TokenKind.joining

/-- Expressions that do not assign. -/
def plainExpression : Category := .expression (.dotDot :: TokenKind.combining)

end Category

/-- What a list of tokens may look like. -/
inductive Pattern where
  | nothing
  | token (kinds : List TokenKind)
  | part (category : Category)
  | both (first second : Pattern)
  | either (first second : Pattern)
  | optional (content : Pattern)
  | many (content : Pattern)
  | avoiding (kind : TokenKind) (content : Pattern)

namespace Pattern

/-- A token of one kind. -/
def word (kind : TokenKind) : Pattern := .token [kind]

/-- One pattern behind the other. -/
def inOrder : List Pattern → Pattern
  | [] => .nothing
  | [last] => last
  | first :: rest => .both first (inOrder rest)

/-- One of several patterns. -/
def oneOf : List Pattern → Pattern
  | [] => .token []
  | [last] => last
  | first :: rest => .either first (oneOf rest)

/-- Items with commas between them, and perhaps one behind them. -/
def separated (item : Pattern) : Pattern :=
  .optional (.inOrder [item, .many (.inOrder [.word .comma, item]), .optional (.word .comma)])

/-- A type behind a colon, or nothing. -/
def typeMark : Pattern := .optional (.inOrder [.word .colon, .part .type])

/-- Expressions with commas between them. -/
def arguments : Pattern := .separated (.part .plainExpression)

/-- Operands with operators between them. -/
def operands (operators : List TokenKind) : Pattern :=
  .inOrder [.part .operand, .many (.inOrder [.token operators, .part .operand])]

/-- Operands with operators behind them, and then a creation. -/
def upToCreation (operators : List TokenKind) : Pattern :=
  .inOrder [.many (.inOrder [.part .operand, .token operators]), .part .creation]

/-- A program is any number of statements. -/
def program : Pattern := .many (.part .statement)

end Pattern

/-- The rule of each category. -/
def Category.rule : Category → Pattern
  | .statement => .oneOf
      [.part .block,
       .inOrder [.word .letWord, .word .identifier, .typeMark, .word .assignment,
         .part .plainExpression, .word .semicolon],
       .inOrder [.word .letWord, .word .identifier, .word .colon, .part .type, .word .semicolon],
       .inOrder [.word .constWord, .word .identifier, .typeMark, .word .assignment,
         .part .plainExpression, .word .semicolon],
       .inOrder [.word .fnWord, .word .identifier, .part .signature],
       .part .conditional,
       .inOrder [.word .importWord, .word .identifier,
         .optional (.inOrder [.word .fromWord, .word .text]), .word .semicolon],
       .inOrder [.word .foreachWord, .word .identifier,
         .optional (.inOrder [.word .comma, .word .identifier]), .word .inWord,
         .part .anyExpression, .part .block],
       .inOrder [.word .classWord, .word .identifier, .part .block],
       .inOrder [.word .returnWord, .optional (.part .anyExpression), .word .semicolon],
       .inOrder [.word .whileWord, .part .plainExpression, .part .block],
       .inOrder [.avoiding .fnWord (.part .anyExpression), .word .semicolon]]
  | .conditional => .inOrder
      [.word .ifWord, .part .plainExpression, .part .block,
       .optional (.oneOf
         [.inOrder [.word .elseWord, .part .conditional],
          .inOrder [.word .elseWord, .part .block]])]
  | .block => .inOrder [.word .openCurly, .many (.part .statement), .word .closeCurly]
  | .signature => .inOrder
      [.word .openParen, .separated (.part .parameter), .word .closeParen, .typeMark,
       .part .block]
  | .parameter => .inOrder [.word .identifier, .word .colon, .part .type]
  | .type => .inOrder
      [.many (.inOrder [.word .openBracket, .word .closeBracket]), .word .identifier]
  | .expression operators => .oneOf [.operands operators, .upToCreation operators]
  | .operand => .inOrder [.many (.token TokenKind.signs), .part .chain]
  | .creation => .inOrder [.many (.token TokenKind.signs), .word .newWord, .part .call]
  | .chain => .inOrder [.part .primary, .many (.part .continuation)]
  | .primary => .oneOf
      [.token [.number, .text, .identifier],
       .inOrder [.word .openParen, .part .anyExpression, .word .closeParen],
       .inOrder [.word .openBracket, .arguments, .word .closeBracket],
       .inOrder [.word .fnWord, .part .signature]]
  | .continuation => .oneOf
      [.inOrder [.word .dot, .word .identifier],
       .inOrder [.word .openBracket, .part .anyExpression, .word .closeBracket],
       .inOrder [.word .openParen, .arguments, .word .closeParen]]
  | .call => .oneOf
      [.inOrder [.part .chain, .word .openParen, .arguments, .word .closeParen],
       .inOrder [.word .openParen, .part .call, .word .closeParen]]

/-- A number has a text that can be read as one. -/
def Token.Legible (token : Token) : Prop :=
  token.kind = .number → (Binary64.ofNumeral? token.text).isSome

/-- A list of tokens has the form of a pattern. -/
inductive Derives : Pattern → List Token → Prop
  | nothing : Derives .nothing []
  | token {kinds : List TokenKind} {token : Token} (member : token.kind ∈ kinds)
      (legible : token.Legible) : Derives (.token kinds) [token]
  | part {category : Category} {tokens : List Token} (rule : Derives category.rule tokens) :
      Derives (.part category) tokens
  | both {first second : Pattern} {tokens tokens' : List Token} (before : Derives first tokens)
      (behind : Derives second tokens') : Derives (.both first second) (tokens ++ tokens')
  | left {first second : Pattern} {tokens : List Token} (chosen : Derives first tokens) :
      Derives (.either first second) tokens
  | right {first second : Pattern} {tokens : List Token} (chosen : Derives second tokens) :
      Derives (.either first second) tokens
  | absent {content : Pattern} : Derives (.optional content) []
  | present {content : Pattern} {tokens : List Token} (chosen : Derives content tokens) :
      Derives (.optional content) tokens
  | done {content : Pattern} : Derives (.many content) []
  | more {content : Pattern} {tokens tokens' : List Token} (first : Derives content tokens)
      (rest : Derives (.many content) tokens') : Derives (.many content) (tokens ++ tokens')
  | avoiding {kind : TokenKind} {content : Pattern} {tokens : List Token}
      (other : tokens.head?.map Token.kind ≠ some kind) (chosen : Derives content tokens) :
      Derives (.avoiding kind content) tokens

/-! ## In front of a place -/

/-- What stands ahead of `left` has the form of the pattern. -/
def Covers (pattern : Pattern) (ahead left : List Token) : Prop :=
  ∃ spent, ahead = spent ++ left ∧ Derives pattern spent

section Covers

variable {pattern first second : Pattern} {category : Category} {kinds : List TokenKind}
  {kind : TokenKind} {ahead middle left : List Token}

@[simp] theorem covers_nothing : Covers .nothing ahead left ↔ left = ahead := by
  constructor
  · rintro ⟨_, rfl, derives⟩
    cases derives with
    | nothing => rfl
  · rintro rfl
    exact ⟨[], rfl, .nothing⟩

@[simp] theorem covers_token : Covers (.token kinds) ahead left ↔
    ∃ token, ahead = token :: left ∧ token.kind ∈ kinds ∧ token.Legible := by
  constructor
  · rintro ⟨_, rfl, derives⟩
    cases derives with
    | token member legible => exact ⟨_, rfl, member, legible⟩
  · rintro ⟨token, rfl, member, legible⟩
    exact ⟨[token], rfl, .token member legible⟩

theorem covers_part : Covers (.part category) ahead left ↔ Covers category.rule ahead left := by
  constructor
  · rintro ⟨spent, rfl, derives⟩
    cases derives with
    | part rule => exact ⟨spent, rfl, rule⟩
  · rintro ⟨spent, rfl, rule⟩
    exact ⟨spent, rfl, .part rule⟩

@[simp] theorem covers_both : Covers (.both first second) ahead left ↔
    ∃ middle, Covers first ahead middle ∧ Covers second middle left := by
  constructor
  · rintro ⟨_, rfl, derives⟩
    cases derives with
    | @both _ _ tokens tokens' before behind =>
        exact ⟨tokens' ++ left, ⟨tokens, by simp, before⟩, tokens', rfl, behind⟩
  · rintro ⟨_, ⟨tokens, rfl, before⟩, tokens', rfl, behind⟩
    exact ⟨tokens ++ tokens', by simp, .both before behind⟩

@[simp] theorem covers_either : Covers (.either first second) ahead left ↔
    Covers first ahead left ∨ Covers second ahead left := by
  constructor
  · rintro ⟨spent, rfl, derives⟩
    cases derives with
    | left chosen => exact .inl ⟨spent, rfl, chosen⟩
    | right chosen => exact .inr ⟨spent, rfl, chosen⟩
  · rintro (⟨spent, rfl, chosen⟩ | ⟨spent, rfl, chosen⟩)
    · exact ⟨spent, rfl, .left chosen⟩
    · exact ⟨spent, rfl, .right chosen⟩

@[simp] theorem covers_optional : Covers (.optional pattern) ahead left ↔
    left = ahead ∨ Covers pattern ahead left := by
  constructor
  · rintro ⟨spent, rfl, derives⟩
    cases derives with
    | absent => exact .inl rfl
    | present chosen => exact .inr ⟨spent, rfl, chosen⟩
  · rintro (rfl | ⟨spent, rfl, chosen⟩)
    · exact ⟨[], rfl, .absent⟩
    · exact ⟨spent, rfl, .present chosen⟩

theorem covers_many : Covers (.many pattern) ahead left ↔
    Relation.ReflTransGen (Covers pattern) ahead left := by
  constructor
  · rintro ⟨spent, rfl, derives⟩
    generalize same : Pattern.many pattern = repeated at derives
    induction derives with
    | done => exact .refl
    | @more _ tokens tokens' first rest _ ih =>
        cases same
        rw [List.append_assoc]
        exact .head ⟨tokens, rfl, first⟩ (ih rfl)
    | _ => cases same
  · intro steps
    induction steps using Relation.ReflTransGen.head_induction_on with
    | refl => exact ⟨[], rfl, .done⟩
    | head step _ ih =>
        obtain ⟨tokens, rfl, first⟩ := step
        obtain ⟨tokens', rfl, rest⟩ := ih
        exact ⟨tokens ++ tokens', by simp, .more first rest⟩

theorem covers_oneOf {forms : List Pattern} (member : pattern ∈ forms)
    (covers : Covers pattern ahead left) : Covers (.oneOf forms) ahead left := by
  induction forms with
  | nil => cases member
  | cons form rest ih =>
      cases rest with
      | nil =>
          cases List.mem_singleton.mp member
          exact covers
      | cons second rest =>
          apply covers_either.mpr
          rcases List.mem_cons.mp member with rfl | later
          · exact .inl covers
          · exact .inr (ih later)

/-- One of the forms that a rule lists, counted from zero, is enough. -/
theorem covers_form (index : Nat) {forms : List Pattern} (rule : category.rule = .oneOf forms)
    (found : forms[index]? = some pattern) (covers : Covers pattern ahead left) :
    Covers (.part category) ahead left := by
  rw [covers_part, rule]
  exact covers_oneOf (List.mem_of_getElem? found) covers

/-- A word of one kind, whatever its text. -/
theorem covers_word_iff (other : kind ≠ .number) : Covers (.word kind) ahead left ↔
    ∃ text, ahead = ⟨kind, text⟩ :: left := by
  simp only [Pattern.word, covers_token, List.mem_singleton]
  constructor
  · rintro ⟨⟨_, text⟩, rfl, rfl, -⟩
    exact ⟨text, rfl⟩
  · rintro ⟨text, rfl⟩
    exact ⟨_, rfl, rfl, fun number => absurd number other⟩

theorem covers_word {text : String} (other : kind ≠ .number) :
    Covers (.word kind) (⟨kind, text⟩ :: left) left := (covers_word_iff other).mpr ⟨text, rfl⟩

/-! ### Items with commas -/

theorem covers_separated_nil {item : Pattern} : Covers (.separated item) left left :=
  covers_optional.mpr (.inl rfl)

theorem covers_separated_one {item : Pattern} (covers : Covers item ahead left) :
    Covers (.separated item) ahead left := by
  refine covers_optional.mpr (.inr ?_)
  simp only [Pattern.inOrder, covers_both]
  exact ⟨left, covers, left, covers_many.mpr .refl, covers_optional.mpr (.inl rfl)⟩

theorem covers_separated_cons {item : Pattern} {text : String}
    (covers : Covers item ahead (⟨.comma, text⟩ :: middle))
    (rest : Covers (.separated item) middle left) : Covers (.separated item) ahead left := by
  have comma : Covers (.word .comma) (⟨.comma, text⟩ :: middle) middle := covers_word (by decide)
  refine covers_optional.mpr (.inr ?_)
  simp only [Pattern.inOrder, covers_both, covers_many]
  rcases covers_optional.mp rest with rfl | rest
  · exact ⟨_, covers, _, .refl, covers_optional.mpr (.inr comma)⟩
  · simp only [Pattern.inOrder, covers_both, covers_many] at rest
    obtain ⟨behind, first, last, others, trailing⟩ := rest
    exact ⟨_, covers, last, .head (covers_both.mpr ⟨middle, comma, first⟩) others, trailing⟩

theorem Covers.avoiding (covers : Covers pattern ahead left)
    (other : ∀ token rest, ahead = token :: rest → token.kind ≠ kind) :
    Covers (.avoiding kind pattern) ahead left := by
  obtain ⟨spent, rfl, derives⟩ := covers
  refine ⟨spent, rfl, .avoiding ?_ derives⟩
  cases spent with
  | nil => simp
  | cons token rest => simpa using other token (rest ++ left) rfl

end Covers

/-! ## Induction over the grammar -/

/-- A pattern, given a meaning of each category for what stands in front of a place. -/
def Pattern.Spells (meaning : Category → List Token → List Token → Prop) :
    Pattern → List Token → List Token → Prop
  | .nothing, ahead, left => left = ahead
  | .token kinds, ahead, left =>
    ∃ token, ahead = token :: left ∧ token.kind ∈ kinds ∧ token.Legible
  | .part category, ahead, left => meaning category ahead left
  | .both first second, ahead, left =>
    ∃ middle, first.Spells meaning ahead middle ∧ second.Spells meaning middle left
  | .either first second, ahead, left =>
    first.Spells meaning ahead left ∨ second.Spells meaning ahead left
  | .optional content, ahead, left => left = ahead ∨ content.Spells meaning ahead left
  | .many content, ahead, left => Relation.ReflTransGen (content.Spells meaning) ahead left
  | .avoiding kind content, ahead, left =>
    content.Spells meaning ahead left ∧
      (left = ahead ∨ ∀ token rest, ahead = token :: rest → token.kind ≠ kind)

/-- A meaning that every rule establishes holds of everything that is derived, wherever it
stands. -/
theorem Derives.spells {meaning : Category → List Token → List Token → Prop}
    (step : ∀ category ahead left, category.rule.Spells meaning ahead left →
      meaning category ahead left)
    {pattern : Pattern} {tokens : List Token} (derives : Derives pattern tokens)
    (left : List Token) : pattern.Spells meaning (tokens ++ left) left := by
  induction derives generalizing left with
  | nothing => rfl
  | token member legible => exact ⟨_, rfl, member, legible⟩
  | part rule ih => exact step _ _ _ (ih left)
  | @both _ _ tokens tokens' _ _ ihBefore ihBehind =>
      rw [List.append_assoc]
      exact ⟨tokens' ++ left, ihBefore _, ihBehind left⟩
  | left _ ih => exact .inl (ih left)
  | right _ ih => exact .inr (ih left)
  | absent => exact .inl rfl
  | present _ ih => exact .inr (ih left)
  | done => exact .refl
  | more _ _ ihFirst ihRest =>
      rw [List.append_assoc]
      exact .head (ihFirst _) (ihRest left)
  | @avoiding kind _ tokens other _ ih =>
      refine ⟨ih left, ?_⟩
      cases tokens with
      | nil => exact .inl rfl
      | cons head rest =>
          right
          rintro token behind same
          cases same
          simpa using other

/-- No pattern of the grammar has the end of input in it, unless it joins operands. -/
def Pattern.Endless : Pattern → Prop
  | .nothing => True
  | .token kinds => .endOfInput ∉ kinds
  | .part (.expression operators) => .endOfInput ∉ operators
  | .part _ => True
  | .both first second | .either first second => first.Endless ∧ second.Endless
  | .optional content | .many content | .avoiding _ content => content.Endless

theorem Category.endless_rule {category : Category} (endless : (Pattern.part category).Endless) :
    category.rule.Endless := by
  cases category with
  | expression operators =>
      have apart : TokenKind.endOfInput ∉ operators := endless
      simpa [rule, Pattern.oneOf, Pattern.operands, Pattern.upToCreation, Pattern.inOrder,
        Pattern.Endless] using apart
  | _ =>
      simp [rule, Pattern.oneOf, Pattern.inOrder, Pattern.Endless, Pattern.word,
        Pattern.typeMark, Pattern.arguments, Pattern.separated, anyExpression, plainExpression,
        TokenKind.joining, TokenKind.assigning, TokenKind.combining, TokenKind.signs]

theorem Derives.endless {pattern : Pattern} {tokens : List Token}
    (derives : Derives pattern tokens) (endless : pattern.Endless) :
    ∀ token ∈ tokens, token.kind ≠ .endOfInput := by
  induction derives with
  | nothing | absent | done => simp
  | token member legible =>
      intro token present
      rw [List.mem_singleton.mp present]
      exact fun ends => endless (ends ▸ member)
  | part rule ih => exact ih (Category.endless_rule endless)
  | both _ _ ihBefore ihBehind =>
      intro token present
      rcases List.mem_append.mp present with before | behind
      · exact ihBefore endless.1 token before
      · exact ihBehind endless.2 token behind
  | more _ _ ihFirst ihRest =>
      intro token present
      rcases List.mem_append.mp present with before | behind
      · exact ihFirst endless token before
      · exact ihRest endless token behind
  | left _ ih => exact ih endless.1
  | right _ ih => exact ih endless.2
  | present _ ih | avoiding _ _ ih => exact ih endless

end ScriptReader
