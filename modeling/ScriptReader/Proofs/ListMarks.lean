/- # ScriptReader.Proofs.ListMarks — a type is a name behind list marks

A list mark is an opening bracket with a closing one directly behind it. A type takes all
the marks that there are (`listMarks`), and then it has to come to a name: one mark puts one
list around what is behind it (`returns_type_of_mark`), so any number of them puts as many
lists around it and points at the same token (`returns_type_of_marks`). Nothing goes on behind
the name, so the power that a type is asked for at makes no difference.
-/
import ScriptReader.Proofs.Language
import ScriptReader.Proofs.Returning
import Mathlib.Order.Bounds.Basic
import Mathlib.Logic.Function.Iterate

namespace ScriptReader

set_option autoImplicit false

/-! ## Marks -/

/-- The tokens begin with so many list marks. -/
def BeginsWithMarks (marks : Nat) (tokens : List Token) : Prop :=
  (List.replicate marks [TokenKind.openBracket, .closeBracket]).flatten <+: tokens.map Token.kind

/-- The number of list marks that the tokens begin with. -/
def listMarks : List Token → Nat
  | opening :: closing :: rest =>
    if opening.kind = .openBracket ∧ closing.kind = .closeBracket then listMarks rest + 1 else 0
  | _ => 0

variable {tokens : List Token} {marks : Nat}

theorem beginsWithMarks_zero : BeginsWithMarks 0 tokens := List.nil_prefix

theorem beginsWithMarks_succ : BeginsWithMarks (marks + 1) tokens ↔
    ∃ opening closing rest,
      tokens = ⟨.openBracket, opening⟩ :: ⟨.closeBracket, closing⟩ :: rest ∧
        BeginsWithMarks marks rest := by
  simp only [BeginsWithMarks, List.replicate_succ, List.flatten_cons, List.cons_append,
    List.nil_append]
  constructor
  · intro begins
    match tokens with
    | [] => simp at begins
    | [opening] => simp [List.cons_prefix_cons] at begins
    | ⟨_, opening⟩ :: ⟨_, closing⟩ :: rest =>
        simp only [List.map_cons, List.cons_prefix_cons] at begins
        obtain ⟨rfl, rfl, begins⟩ := begins
        exact ⟨opening, closing, rest, rfl, begins⟩
  · rintro ⟨opening, closing, rest, rfl, begins⟩
    simpa [List.cons_prefix_cons] using begins

theorem beginsWithMarks_listMarks (tokens : List Token) :
    BeginsWithMarks (listMarks tokens) tokens := by
  induction tokens using listMarks.induct with
  | case1 opening closing rest marked ih =>
      obtain ⟨kind, opening⟩ := opening
      obtain ⟨kind', closing⟩ := closing
      obtain ⟨rfl, rfl⟩ := marked
      rw [listMarks, if_pos ⟨rfl, rfl⟩]
      exact beginsWithMarks_succ.mpr ⟨opening, closing, rest, rfl, ih⟩
  | case2 opening closing rest plain =>
      rw [listMarks, if_neg plain]
      exact beginsWithMarks_zero
  | case3 tokens short =>
      rw [listMarks.eq_2 _ short]
      exact beginsWithMarks_zero

theorem BeginsWithMarks.le_listMarks (begins : BeginsWithMarks marks tokens) :
    marks ≤ listMarks tokens := by
  induction marks generalizing tokens with
  | zero => exact Nat.zero_le _
  | succ marks ih =>
      obtain ⟨opening, closing, rest, rfl, inner⟩ := beginsWithMarks_succ.mp begins
      rw [listMarks, if_pos ⟨rfl, rfl⟩]
      exact Nat.succ_le_succ (ih inner)

/-- Behind the last mark there is no further one. -/
theorem isGreatest_listMarks (tokens : List Token) :
    IsGreatest { marks | BeginsWithMarks marks tokens } (listMarks tokens) :=
  ⟨beginsWithMarks_listMarks tokens, fun _ begins => BeginsWithMarks.le_listMarks begins⟩

/-- Behind the marks of a stream something is left, since a mark does not end it. -/
theorem BeginsWithMarks.drop_ne_nil (begins : BeginsWithMarks marks tokens)
    (ended : tokens.getLast?.map Token.kind = some .endOfInput) : tokens.drop (2 * marks) ≠ [] := by
  induction marks generalizing tokens with
  | zero =>
      rintro rfl
      cases ended
  | succ marks ih =>
      obtain ⟨opening, closing, rest, rfl, inner⟩ := beginsWithMarks_succ.mp begins
      cases rest with
      | nil => cases ended
      | cons token rest =>
          rw [Nat.mul_succ, List.drop_succ_cons, List.drop_succ_cons]
          exact ih inner (by simpa using ended)

/-- A mark behind the marks is one more of them. -/
theorem BeginsWithMarks.succ_of_drop {opening closing : String} {rest : List Token}
    (begins : BeginsWithMarks marks tokens)
    (behind : tokens.drop (2 * marks) = ⟨.openBracket, opening⟩ :: ⟨.closeBracket, closing⟩ :: rest) :
    BeginsWithMarks (marks + 1) tokens := by
  induction marks generalizing tokens with
  | zero => exact beginsWithMarks_succ.mpr ⟨opening, closing, rest, behind, beginsWithMarks_zero⟩
  | succ marks ih =>
      obtain ⟨opening', closing', tokens, rfl, inner⟩ := beginsWithMarks_succ.mp begins
      rw [Nat.mul_succ, List.drop_succ_cons, List.drop_succ_cons] at behind
      exact beginsWithMarks_succ.mpr ⟨opening', closing', tokens, rfl, ih inner behind⟩

/-! ## Types -/

section Types

variable {least : Power} {index : Nat} {rest : List Token} {cursor : Cursor}
  {outcome : Outcome TypeExpr}

/-- No kind of token goes on from a type. -/
theorem returns_typeTail {type : TypeExpr} :
    (Recipe.typeTail least type).Returns .language cursor outcome ↔
      outcome = .accepted type cursor := by
  rw [Recipe.typeTail, Recipe.returns_ask, Phrase.recipe, Recipe.typeTailPhrase,
    Recipe.returns_kind_bind,
    if_neg (Tables.not_lt_typePower_of_none (Tables.language_typeInfixPower _))]
  exact Recipe.returns_yield

/-- A type is what the rule of its first token reads, whatever power it is asked for at. -/
theorem returns_type_of_prefixRule {recipe : Recipe TypeExpr}
    (found : Tables.language.typePrefixRule cursor.kind = some recipe)
    (returns : recipe.Returns .language cursor outcome) :
    (Recipe.type least).Returns .language cursor outcome := by
  rw [Recipe.type, Recipe.returns_ask, Phrase.recipe, Recipe.typePhrase, Recipe.returns_kind_bind,
    found]
  cases outcome with
  | accepted type middle =>
      exact Recipe.returns_bind.mpr (.inr ⟨type, middle, returns, returns_typeTail.mpr rfl⟩)
  | refused diagnostic middle =>
      exact Recipe.returns_bind.mpr (.inl ⟨diagnostic, middle, returns, rfl⟩)
  | exhausted => exact absurd rfl returns.1

theorem returns_type_of_name {name : String} (more : rest ≠ []) :
    (Recipe.type least).Returns .language (.facing index (⟨.identifier, name⟩ :: rest))
      (.accepted (.name name) (.facing (index + 1) rest)) := by
  refine returns_type_of_prefixRule rfl ?_
  rw [← Cursor.next_facing more]
  exact ⟨nofun, 0, rfl⟩

/-- A mark puts a list around the type behind it, and leaves a refusal as it is. -/
theorem returns_type_of_mark {opening closing : String} (more : rest ≠ [])
    (element : (Recipe.type .lowest).Returns .language (.facing (index + 2) rest) outcome) :
    (Recipe.type least).Returns .language
      (.facing index (⟨.openBracket, opening⟩ :: ⟨.closeBracket, closing⟩ :: rest))
      (outcome.map .list) := by
  have behind : (Cursor.facing (index + 1) (⟨.closeBracket, closing⟩ :: rest)).next =
      .facing (index + 2) rest := Cursor.next_facing more
  refine returns_type_of_prefixRule rfl ?_
  refine (Recipe.returns_expect_bind rfl).mpr ((Recipe.returns_expect_bind rfl).mpr ?_)
  rw [Cursor.next_facing (by simp), behind]
  cases outcome with
  | accepted type middle =>
      exact Recipe.returns_bind.mpr (.inr ⟨type, middle, element, Recipe.returns_yield.mpr rfl⟩)
  | refused diagnostic middle =>
      exact Recipe.returns_bind.mpr (.inl ⟨diagnostic, middle, element, rfl⟩)
  | exhausted => exact absurd rfl element.1

theorem returns_type_of_bracket {opening : String} {found : Token}
    (other : found.kind ≠ .closeBracket) :
    (Recipe.type least).Returns .language (.facing index (⟨.openBracket, opening⟩ :: found :: rest))
      (.refused ⟨.unexpected .closeBracket found.kind, .token (index + 1)⟩
        (.facing (index + 1) (found :: rest))) := by
  refine returns_type_of_prefixRule rfl ?_
  refine (Recipe.returns_expect_bind rfl).mpr ?_
  exact (Recipe.returns_expect_bind_of_ne other).mpr rfl

theorem returns_type_of_none (none : Tables.language.typePrefixRule cursor.kind = none) :
    (Recipe.type least).Returns .language cursor
      (.refused ⟨.expectedType cursor.kind, .token cursor.index⟩ cursor) := by
  rw [Recipe.type, Recipe.returns_ask, Phrase.recipe, Recipe.typePhrase, Recipe.returns_kind_bind,
    none]
  exact Recipe.returns_refuseKind.mpr rfl

/-- So many marks put as many lists around the type behind them. -/
theorem returns_type_of_marks (begins : BeginsWithMarks marks tokens)
    (more : tokens.drop (2 * marks) ≠ [])
    (inner : ∀ least, (Recipe.type least).Returns .language
      (.facing (index + 2 * marks) (tokens.drop (2 * marks))) outcome) :
    (Recipe.type least).Returns .language (.facing index tokens)
      (outcome.map TypeExpr.list^[marks]) := by
  induction marks generalizing tokens index least with
  | zero =>
      have same : outcome.map TypeExpr.list^[0] = outcome := by cases outcome <;> rfl
      rw [same]
      exact inner least
  | succ marks ih =>
      obtain ⟨opening, closing, rest, rfl, begins'⟩ := beginsWithMarks_succ.mp begins
      have outer : outcome.map TypeExpr.list^[marks + 1] =
          (outcome.map TypeExpr.list^[marks]).map .list := by
        rw [Function.iterate_succ']
        cases outcome <;> rfl
      have place : index + (2 * marks + 2) = index + 2 + 2 * marks := by omega
      simp only [Nat.mul_succ, List.drop_succ_cons, place] at more inner
      rw [outer]
      exact returns_type_of_mark (List.ne_nil_of_drop_ne_nil more) (ih begins' more inner)

end Types

/-! ## Main statement -/

/-- **A type is a name behind list marks.** Anywhere in a stream, let `marks` be the greatest
number of marks that the tokens ahead begin with; behind them stands a token. If it is a name, it
is the type, with a list around it for each mark, and nothing more is read. If it is an opening
bracket, the token behind that is refused for not closing it; any other token is refused for not
being a type. No power makes a difference. -/
theorem type_reads_name_behind_marks {cursor : Cursor} (ended : cursor.Ended) :
    ∃ marks token behind,
      IsGreatest { marks | BeginsWithMarks marks cursor.ahead } marks ∧
      cursor.ahead.drop (2 * marks) = token :: behind ∧
      ∀ least : Power,
        (token.kind = .identifier → (Recipe.type least).perform .language cursor =
          .accepted (TypeExpr.list^[marks] (.name token.text))
            (.facing (cursor.index + (2 * marks + 1)) behind)) ∧
        (token.kind = .openBracket → ∃ found rest, behind = found :: rest ∧
          (Recipe.type least).perform .language cursor =
            .refused ⟨.unexpected .closeBracket found.kind,
              .token (cursor.index + 2 * marks + 1)⟩
              (.facing (cursor.index + 2 * marks + 1) behind)) ∧
        (token.kind ≠ .identifier → token.kind ≠ .openBracket →
          (Recipe.type least).perform .language cursor =
            .refused ⟨.expectedType token.kind, .token (cursor.index + 2 * marks)⟩
              (.facing (cursor.index + 2 * marks) (token :: behind))) := by
  have greatest := isGreatest_listMarks cursor.ahead
  generalize listMarks cursor.ahead = marks at greatest
  obtain ⟨token, behind, ahead⟩ :=
    List.exists_cons_of_ne_nil (greatest.1.drop_ne_nil ended)
  refine ⟨marks, token, behind, greatest, ahead, fun least => ?_⟩
  have goesOn (open' : token.kind ≠ .endOfInput) : behind ≠ [] := by
    rintro rfl
    have last := congrArg (fun tokens => tokens.getLast?.map Token.kind) ahead
    rw [List.getLast?_drop] at last
    split at last
    · cases last
    · exact open' (Option.some.inj (last.symm.trans ended))
  have performs {outcome : Outcome TypeExpr}
      (inner : ∀ least, (Recipe.type least).Returns .language
        (.facing (cursor.index + 2 * marks) (token :: behind)) outcome) :
      (Recipe.type least).perform .language cursor = outcome.map TypeExpr.list^[marks] := by
    have careful : (Recipe.type least).Careful cursor.current := Recipe.careful_ask trivial
    refine (Recipe.returns_iff_perform .language ended careful).mp ?_
    rw [← ahead] at inner
    exact returns_type_of_marks greatest.1 (by simp [ahead]) inner
  obtain ⟨kind, text⟩ := token
  refine ⟨?_, ?_, ?_⟩
  · rintro rfl
    exact performs fun _ => returns_type_of_name (goesOn (by simp))
  · rintro rfl
    obtain ⟨found, rest, rfl⟩ := List.exists_cons_of_ne_nil (goesOn (by simp))
    refine ⟨found, rest, rfl, performs fun _ => returns_type_of_bracket ?_⟩
    intro closes
    obtain ⟨_, closing⟩ := found
    subst closes
    have more := greatest.2 (greatest.1.succ_of_drop ahead)
    omega
  · intro named opens
    have none : Tables.language.typePrefixRule kind = none := by
      cases found : Tables.language.typePrefixRule kind with
      | none => rfl
      | some recipe =>
          obtain ⟨rule, member, -⟩ := Tables.language_typePrefixRule_iff.mp found
          cases rule <;> simp_all [TypePrefixRule.kinds]
    exact performs fun _ => returns_type_of_none none

/-- In `[][]number {` both marks are taken, and the brace is left; in `[][ number` the name stands
where the second mark should be closed. -/
theorem type_with_two_marks :
    let opening : Token := ⟨.openBracket, "["⟩
    let closing : Token := ⟨.closeBracket, "]"⟩
    let number : Token := ⟨.identifier, "number"⟩
    let brace : Token := ⟨.openCurly, "\x7b"⟩
    ((Recipe.type .unary).perform .language
        ⟨3, opening, [closing, opening, closing, number, brace, .endOfInput]⟩ =
      .accepted (.list (.list (.name "number"))) ⟨8, brace, [.endOfInput]⟩) ∧
    (Recipe.type .lowest).perform .language ⟨0, opening, [closing, opening, number, .endOfInput]⟩ =
      .refused ⟨.unexpected .closeBracket .identifier, .token 3⟩ ⟨3, number, [.endOfInput]⟩ := by
  intro opening closing number brace
  constructor
  · obtain ⟨marks, token, behind, greatest, ahead, outcomes⟩ := type_reads_name_behind_marks
      (show (Cursor.mk 3 opening [closing, opening, closing, number, brace, .endOfInput]).Ended
        from rfl)
    obtain rfl : marks = 2 := greatest.unique (isGreatest_listMarks _)
    cases ahead
    exact (outcomes .unary).1 rfl
  · obtain ⟨marks, token, behind, greatest, ahead, outcomes⟩ := type_reads_name_behind_marks
      (show (Cursor.mk 0 opening [closing, opening, number, .endOfInput]).Ended from rfl)
    obtain rfl : marks = 1 := greatest.unique (isGreatest_listMarks _)
    cases ahead
    obtain ⟨found, rest, same, refused⟩ := (outcomes .lowest).2.1 rfl
    cases same
    exact refused

end ScriptReader
