/- # ScriptReader.Proofs.Chains — signs apply to the whole chain behind them

A chain is a number, a text, a name or a group, with continuations behind it: names
behind dots, and indices and arguments in brackets. Signs may stand in front of it.

What is inside the brackets is a stream of its own that is taken up to the closing one
(`TakenUpTo`). A continuation binds tighter than a sign, so the operand of a sign goes on
through all of them (`reads_tail_of_continuations`), and it stops behind the last one,
since nothing else binds tighter (`stops_unary_iff`). So the continuations nest from left
to right, inside all of the signs (`signs_apply_to_whole_chain`).
-/
import ScriptReader.Proofs.Assembling
import ScriptReader.Proofs.Lookahead
import ScriptReader.Proofs.Performing

namespace ScriptReader

set_option autoImplicit false

/-! ## What is inside brackets -/

/-- Asked for the phrase, the reader takes the tokens and stands at the closing one, in some
stream. -/
def Phrase.TakenUpTo (phrase : Phrase) (tokens : List Token) (close : Token)
    (value : phrase.Value) : Prop :=
  ∃ index rest, (Cursor.facing index (tokens ++ close :: rest)).Ended ∧
    (Recipe.ask phrase).perform .language (.facing index (tokens ++ close :: rest)) =
      .accepted value (.facing (index + tokens.length) (close :: rest))

/-- The tokens are taken in front of the closing one wherever they stand. -/
theorem Phrase.TakenUpTo.reads {phrase : Phrase} {tokens : List Token} {close : Token}
    {value : phrase.Value} (taken : phrase.TakenUpTo tokens close value)
    (starts : ∀ token, phrase.StartsAt token) (rest : List Token) :
    Phrase.Reads .language phrase (tokens ++ close :: rest) value (close :: rest) := by
  obtain ⟨index, rest', ended, performed⟩ := taken
  have read := reads_of_perform .language ended (starts _) performed
  rw [Cursor.ahead_facing (by simp), Cursor.ahead_facing (by simp)] at read
  exact read.alike (alike_cons close rest' rest)

/-! ## Chains -/

/-- The tokens are a number, a text, a name or a group, and stand for the value. -/
inductive IsPrimary : List Token → Expr → Prop
  | number {text : String} {value : Binary64} (readable : Binary64.ofNumeral? text = some value) :
      IsPrimary [⟨.number, text⟩] (.number value)
  | text (content : String) : IsPrimary [⟨.text, content⟩] (.text content)
  | symbol (name : String) : IsPrimary [⟨.identifier, name⟩] (.symbol name)
  | group {opening closing : String} {inside : List Token} {content : Expr}
      (taken : (Phrase.expression .lowest).TakenUpTo inside ⟨.closeParen, closing⟩ content) :
      IsPrimary (⟨.openParen, opening⟩ :: (inside ++ [⟨.closeParen, closing⟩])) content

/-- The tokens go on from an expression in front of them, and make another one of it. -/
inductive Continues : List Token → (Expr → Expr) → Prop
  | member (dot name : String) :
      Continues [⟨.dot, dot⟩, ⟨.identifier, name⟩] fun object => .member object name
  | element {opening closing : String} {inside : List Token} {index : Expr}
      (taken : (Phrase.expression .lowest).TakenUpTo inside ⟨.closeBracket, closing⟩ index) :
      Continues (⟨.openBracket, opening⟩ :: (inside ++ [⟨.closeBracket, closing⟩]))
        fun object => .element object index
  | call {opening closing : String} {inside : List Token} {arguments : List Expr}
      (taken : (Phrase.arguments .closeParen).TakenUpTo inside ⟨.closeParen, closing⟩ arguments) :
      Continues (⟨.openParen, opening⟩ :: (inside ++ [⟨.closeParen, closing⟩]))
        fun callee => .call callee arguments

/-- What a chain begins with. -/
structure Primary where
  tokens : List Token
  value : Expr
  isPrimary : IsPrimary tokens value

/-- What a chain goes on with. -/
structure Continuation where
  tokens : List Token
  extend : Expr → Expr
  continues : Continues tokens extend

/-- What a chain stands for: each continuation goes on from all that is in front of it. -/
def chainValue (primary : Primary) (continuations : List Continuation) : Expr :=
  continuations.foldl (fun value continuation => continuation.extend value) primary.value

section Chains

variable {least : Power} {left rest : List Token} {value whole : Expr}

/-- An expression goes on with a continuation that binds tighter than what is asked for. -/
theorem Continues.reads_tail {tokens : List Token} {extend : Expr → Expr}
    (continues : Continues tokens extend) (tighter : least < .call ∧ least < .member)
    (tail : Phrase.Reads .language (.expressionTail least (extend value)) rest whole left) :
    Phrase.Reads .language (.expressionTail least value) (tokens ++ rest) whole left := by
  cases continues with
  | member dot name =>
      refine Phrase.reads_tail_of_infixRule .member (by decide) tighter.2 ?_ tail
      have named : TokenKind.dot ≠ .openBracket := by decide
      exact Recipe.reads_member.mpr (.inr ⟨_, name, rfl, named, rfl⟩)
  | @element opening closing inside index taken =>
      have read := taken.reads (fun _ => trivial) rest
      rw [List.cons_append, List.append_assoc]
      refine Phrase.reads_tail_of_infixRule .member (by decide) tighter.2 ?_ tail
      exact Recipe.reads_member.mpr (.inl ⟨opening, _, index, closing, rfl, read, rfl⟩)
  | @call opening closing inside arguments taken =>
      have read := taken.reads (fun _ => trivial) rest
      rw [List.cons_append, List.append_assoc]
      refine Phrase.reads_tail_of_infixRule .call (by decide) tighter.1 ?_ tail
      exact Recipe.reads_call.mpr
        ⟨arguments, Recipe.reads_enclosed.mpr ⟨opening, _, closing, rfl, read⟩, rfl⟩

/-- An expression goes on through all continuations, from the first to the last. -/
theorem reads_tail_of_continuations (continuations : List Continuation)
    (tighter : least < .call ∧ least < .member) (stops : Stops least left) :
    Phrase.Reads .language (.expressionTail least value)
      (continuations.flatMap Continuation.tokens ++ left)
      (continuations.foldl (fun value continuation => continuation.extend value) value) left := by
  induction continuations generalizing value with
  | nil => exact Phrase.reads_tail_of_stops stops
  | cons continuation others ih =>
      rw [List.flatMap_cons, List.append_assoc, List.foldl_cons]
      exact continuation.continues.reads_tail tighter ih

/-- An expression begins with a primary, and goes on behind it. -/
theorem IsPrimary.reads_expression {tokens : List Token} (isPrimary : IsPrimary tokens value)
    (tail : Phrase.Reads .language (.expressionTail least value) rest whole left) :
    Phrase.Reads .language (.expression least) (tokens ++ rest) whole left := by
  cases isPrimary with
  | @number text value readable =>
      have made : Recipe.ofToken ⟨.number, text⟩ = .ok (.number value) := by
        simp only [Recipe.ofToken, readable]
      exact Phrase.reads_expression_of_prefixRule .primary (by decide)
        (Recipe.reads_primary.mpr ⟨_, rfl, made⟩) tail
  | text content =>
      exact Phrase.reads_expression_of_prefixRule .primary (by decide)
        (Recipe.reads_primary.mpr ⟨_, rfl, rfl⟩) tail
  | symbol name =>
      exact Phrase.reads_expression_of_prefixRule .primary (by decide)
        (Recipe.reads_primary.mpr ⟨_, rfl, rfl⟩) tail
  | @group opening closing inside content taken =>
      have read := taken.reads (fun _ => trivial) rest
      rw [List.cons_append, List.append_assoc]
      exact Phrase.reads_expression_of_prefixRule .grouping (by decide)
        (Recipe.reads_grouping.mpr ⟨opening, _, closing, rfl, read⟩) tail

/-- A chain is read in front of anything that binds no tighter than what is asked for. -/
theorem reads_chain (primary : Primary) (continuations : List Continuation)
    (tighter : least < .call ∧ least < .member) (stops : Stops least left) :
    Phrase.Reads .language (.expression least)
      (primary.tokens ++ (continuations.flatMap Continuation.tokens ++ left))
      (chainValue primary continuations) left :=
  primary.isPrimary.reads_expression (reads_tail_of_continuations continuations tighter stops)

/-! ## Signs -/

/-- Nothing but a continuation binds tighter than a sign. -/
theorem stops_unary_iff {next : Token} :
    Stops .unary (next :: rest) ↔ next.kind ∉ [.dot, .openBracket, .openParen] := by
  have powers : ∀ kind, ¬ .unary < Tables.language.power kind ↔
      kind ∉ [.dot, .openBracket, .openParen] := by
    intro kind
    cases kind <;> decide
  constructor
  · rintro ⟨token, rest', same, stops⟩
    cases same
    exact (powers _).mp stops
  · intro other
    exact ⟨next, rest, rfl, (powers _).mpr other⟩

/-- A sign applies to the whole of what is read at the power of signs behind it. -/
theorem reads_sign {sign : Token} (signed : sign.kind ∈ TokenKind.signs)
    (operand : Phrase.Reads .language (.expression .unary) rest value left)
    (stops : Stops .unary left) :
    Phrase.Reads .language (.expression .unary) (sign :: rest) (.operation sign value) left :=
  Phrase.reads_expression_of_prefixRule .operation signed
    (Recipe.reads_operation.mpr ⟨sign, rest, value, rfl, operand, rfl⟩)
    (Phrase.reads_tail_of_stops stops)

theorem reads_signs {signs : List Token} (signed : ∀ sign ∈ signs, sign.kind ∈ TokenKind.signs)
    (operand : Phrase.Reads .language (.expression .unary) rest value left)
    (stops : Stops .unary left) :
    Phrase.Reads .language (.expression .unary) (signs ++ rest) (signs.foldr .operation value)
      left := by
  induction signs with
  | nil => exact operand
  | cons sign others ih =>
      obtain ⟨first, signed⟩ := List.forall_mem_cons.mp signed
      exact reads_sign first (ih signed) stops

end Chains

/-- **Signs apply to the whole chain behind them.** In front of anything but a dot or an opening
bracket, an operand of signs is read to the end of its chain and no further: the continuations
nest from left to right, inside all of the signs. -/
theorem signs_apply_to_whole_chain (signs : List Token) (primary : Primary)
    (continuations : List Continuation) (next : Token) (rest : List Token) (index : Nat)
    (signed : ∀ sign ∈ signs, sign.kind ∈ [.dash, .not, .typeofWord])
    (stops : next.kind ∉ [.dot, .openBracket, .openParen])
    (ended : (Cursor.facing index (next :: rest)).Ended) :
    let tokens := signs ++ primary.tokens ++ continuations.flatMap Continuation.tokens
    (Recipe.expression .unary).perform .language (.facing index (tokens ++ next :: rest)) =
      .accepted (signs.foldr .operation (chainValue primary continuations))
        (.facing (index + tokens.length) (next :: rest)) := by
  intro tokens
  have stops : Stops .unary (next :: rest) := stops_unary_iff.mpr stops
  have tighter : Power.unary < .call ∧ Power.unary < .member := by decide
  have read : Phrase.Reads .language (.expression .unary) (tokens ++ next :: rest)
      (signs.foldr .operation (chainValue primary continuations)) (next :: rest) := by
    have chain := reads_signs signed (reads_chain primary continuations tighter stops) stops
    simpa only [tokens, List.append_assoc] using chain
  have ended' : (Cursor.facing index (tokens ++ next :: rest)).Ended := by
    simpa [Cursor.Ended, Cursor.ahead_facing] using ended
  have performed := perform_of_reads .language ended' read (by simp) trivial
  have length : (tokens ++ next :: rest).length - (next :: rest).length = tokens.length := by
    rw [List.length_append, Nat.add_sub_cancel_right]
  rwa [length] at performed

/-- In `- ! ( a ) . b [ c ] ( d , e ) * f` both signs apply to the call, and the product is left
to what asked for the operand. -/
theorem signs_apply_to_group_with_call :
    let product : List Token := [⟨.star, "*"⟩, ⟨.identifier, "f"⟩, .endOfInput]
    let call : Expr :=
      .call (.element (.member (.symbol "a") "b") (.symbol "c")) [.symbol "d", .symbol "e"]
    (Recipe.expression .unary).perform .language
        (.facing 2
          ([⟨.dash, "-"⟩, ⟨.not, "!"⟩, ⟨.openParen, "("⟩, ⟨.identifier, "a"⟩, ⟨.closeParen, ")"⟩,
            ⟨.dot, "."⟩, ⟨.identifier, "b"⟩, ⟨.openBracket, "["⟩, ⟨.identifier, "c"⟩,
            ⟨.closeBracket, "]"⟩, ⟨.openParen, "("⟩, ⟨.identifier, "d"⟩, ⟨.comma, ","⟩,
            ⟨.identifier, "e"⟩, ⟨.closeParen, ")"⟩] ++ product)) =
      .accepted (.operation ⟨.dash, "-"⟩ (.operation ⟨.not, "!"⟩ call)) (.facing 17 product) := by
  intro product call
  have group : (Phrase.expression .lowest).TakenUpTo [⟨.identifier, "a"⟩] ⟨.closeParen, ")"⟩
      (.symbol "a") := ⟨0, [.endOfInput], rfl, by cbv⟩
  have index : (Phrase.expression .lowest).TakenUpTo [⟨.identifier, "c"⟩] ⟨.closeBracket, "]"⟩
      (.symbol "c") := ⟨0, [.endOfInput], rfl, by cbv⟩
  have arguments : (Phrase.arguments .closeParen).TakenUpTo
      [⟨.identifier, "d"⟩, ⟨.comma, ","⟩, ⟨.identifier, "e"⟩] ⟨.closeParen, ")"⟩
      [.symbol "d", .symbol "e"] := ⟨0, [.endOfInput], rfl, by cbv⟩
  exact signs_apply_to_whole_chain [⟨.dash, "-"⟩, ⟨.not, "!"⟩] ⟨_, _, .group group⟩
    [⟨_, _, .member "." "b"⟩, ⟨_, _, .element index⟩, ⟨_, _, .call arguments⟩] ⟨.star, "*"⟩
    [⟨.identifier, "f"⟩, .endOfInput] 2 (by decide) (by decide) rfl

end ScriptReader
