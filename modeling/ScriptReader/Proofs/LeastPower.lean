/- # ScriptReader.Proofs.LeastPower — reading on at a weaker power

A rule is told the power of its operator and never the power that the whole was asked
for at. So an expression that is read at a weaker power begins with the expression that
is read at a stronger one, and goes on from there; where the stronger reading is refused,
the weaker one is refused in the same way.

That is so under any tables, with which a reading may also never end; so it is said of
what a reading returns, if anything (`Recipe.Returns`).

What goes on behind an operand is a run of infix rules, one after the other (`TailRun`). A
run at a stronger power is the first part of a run at a weaker one (`TailRun.resume`,
`TailRun.split`), and a run that is accepted where it began has no rule in it
(`TailRun.eq_of_index_le`).
-/
import ScriptReader.Proofs.Returning

namespace ScriptReader

set_option autoImplicit false

/-! ## Runs of infix rules -/

section Loop

variable {tables : Tables} {least low high : Power} {left operand whole : Expr}
  {cursor cursor' last : Cursor} {outcome : Outcome Expr} {diagnostic : Diagnostic}

/-- From an operand in front of the cursor, infix rules go on while the current token binds
tighter than the least power, and end with the outcome. -/
inductive TailRun (tables : Tables) (least : Power) : Expr → Cursor → Outcome Expr → Prop
  | stop {left : Expr} {cursor : Cursor} (stops : ¬ least < tables.power cursor.kind) :
      TailRun tables least left cursor (.accepted left cursor)
  | missing {left : Expr} {cursor : Cursor} (tighter : least < tables.power cursor.kind)
      (none : tables.infixRule cursor.kind = none) :
      TailRun tables least left cursor
        (.refused ⟨.missingInfixRule cursor.kind, .token cursor.index⟩ cursor)
  | refused {left : Expr} {cursor last : Cursor} {diagnostic : Diagnostic} (recipe : InfixRecipe)
      (tighter : least < tables.power cursor.kind)
      (found : tables.infixRule cursor.kind = some recipe)
      (failed : (recipe left (tables.power cursor.kind)).Returns tables cursor
        (.refused diagnostic last)) :
      TailRun tables least left cursor (.refused diagnostic last)
  | further {left whole : Expr} {cursor middle : Cursor} {outcome : Outcome Expr}
      (recipe : InfixRecipe) (tighter : least < tables.power cursor.kind)
      (found : tables.infixRule cursor.kind = some recipe)
      (joined : (recipe left (tables.power cursor.kind)).Returns tables cursor
        (.accepted whole middle))
      (more : TailRun tables least whole middle outcome) :
      TailRun tables least left cursor outcome

namespace TailRun

/-- A run of infix rules is what going on from an operand returns. -/
theorem returns (run : TailRun tables least left cursor outcome) :
    (Recipe.expressionTail least left).Returns tables cursor outcome := by
  induction run with
  | stop stops =>
      refine Recipe.returns_ask.mpr (Recipe.returns_kind_bind.mpr ?_)
      rw [if_neg stops]
      exact Recipe.returns_yield.mpr rfl
  | missing tighter none =>
      refine Recipe.returns_ask.mpr (Recipe.returns_kind_bind.mpr ?_)
      simp only [if_pos tighter, none]
      exact Recipe.returns_refuseKind.mpr rfl
  | refused recipe tighter found failed =>
      refine Recipe.returns_ask.mpr (Recipe.returns_kind_bind.mpr ?_)
      simp only [if_pos tighter, found]
      exact Recipe.returns_bind.mpr (.inl ⟨_, _, failed, rfl⟩)
  | further recipe tighter found joined more ih =>
      refine Recipe.returns_ask.mpr (Recipe.returns_kind_bind.mpr ?_)
      simp only [if_pos tighter, found]
      exact Recipe.returns_bind.mpr (.inr ⟨_, _, joined, ih⟩)

/-- What going on from an operand returns comes of a run of infix rules. -/
theorem of_answer {levels : Nat} (settled : outcome ≠ .exhausted)
    (answered : answer tables levels (.expressionTail least left) cursor = outcome) :
    TailRun tables least left cursor outcome := by
  induction levels generalizing left cursor with
  | zero => exact absurd answered.symm settled
  | succ levels ih =>
      change (Recipe.expressionTailPhrase tables least left).run (answer tables levels) cursor =
        outcome at answered
      rw [Recipe.expressionTailPhrase, Recipe.run_kind_bind] at answered
      by_cases tighter : least < tables.power cursor.kind
      · rw [if_pos tighter] at answered
        cases found : tables.infixRule cursor.kind with
        | none =>
            rw [found] at answered
            subst answered
            exact .missing tighter found
        | some recipe =>
            rw [found] at answered
            rcases Recipe.run_bind_cases settled answered with
              ⟨diagnostic, last, failed, rfl⟩ | ⟨whole, middle, joined, more⟩
            · exact .refused recipe tighter found ⟨settled, levels, failed⟩
            · rw [Recipe.expressionTail, Recipe.run_ask] at more
              exact .further recipe tighter found (Recipe.returns_of_accepted joined) (ih more)
      · rw [if_neg tighter] at answered
        subst answered
        exact .stop tighter

end TailRun

theorem returns_expressionTail_iff :
    (Recipe.expressionTail least left).Returns tables cursor outcome ↔
      TailRun tables least left cursor outcome := by
  constructor
  · rintro ⟨settled, levels, ran⟩
    rw [Recipe.expressionTail, Recipe.run_ask] at ran
    exact .of_answer settled ran
  · exact TailRun.returns

/-! ## Two powers -/

theorem Power.lt_of_le_of_lt {power : Power} (le : low ≤ high) (tighter : high < power) :
    low < power := by
  rw [Power.lt_iff_rank] at tighter ⊢
  rw [Power.le_iff_rank] at le
  omega

namespace TailRun

/-- Where a run at the stronger power is refused, a run at the weaker one is refused. -/
theorem weaken (le : low ≤ high)
    (run : TailRun tables high left cursor (.refused diagnostic last)) :
    TailRun tables low left cursor (.refused diagnostic last) := by
  generalize same : Outcome.refused diagnostic last = outcome at run
  induction run with
  | stop stops => cases same
  | missing tighter none =>
      cases same
      exact .missing (Power.lt_of_le_of_lt le tighter) none
  | refused recipe tighter found failed =>
      cases same
      exact .refused recipe (Power.lt_of_le_of_lt le tighter) found failed
  | further recipe tighter found joined more ih =>
      exact .further recipe (Power.lt_of_le_of_lt le tighter) found joined (ih same)

/-- Where a run at the stronger power ends, a run at the weaker one goes on. -/
theorem resume (le : low ≤ high) (run : TailRun tables high left cursor (.accepted whole cursor'))
    (more : TailRun tables low whole cursor' outcome) : TailRun tables low left cursor outcome := by
  generalize same : Outcome.accepted whole cursor' = ending at run
  induction run with
  | stop stops =>
      cases same
      exact more
  | missing tighter none => cases same
  | refused recipe tighter found failed => cases same
  | further recipe tighter found joined _ ih =>
      exact .further recipe (Power.lt_of_le_of_lt le tighter) found joined (ih same)

/-- A run at the weaker power begins with a run at the stronger one. -/
theorem split (le : low ≤ high) (run : TailRun tables low left cursor outcome) :
    (∃ diagnostic last, outcome = .refused diagnostic last ∧
      TailRun tables high left cursor outcome) ∨
    ∃ whole cursor', TailRun tables high left cursor (.accepted whole cursor') ∧
      TailRun tables low whole cursor' outcome := by
  induction run with
  | @stop left cursor stops =>
      refine .inr ⟨left, cursor, .stop ?_, .stop stops⟩
      intro tighter
      exact stops (Power.lt_of_le_of_lt le tighter)
  | @missing left cursor tighter none =>
      by_cases strong : high < tables.power cursor.kind
      · exact .inl ⟨_, _, rfl, .missing strong none⟩
      · exact .inr ⟨left, cursor, .stop strong, .missing tighter none⟩
  | @refused left cursor last diagnostic recipe tighter found failed =>
      by_cases strong : high < tables.power cursor.kind
      · exact .inl ⟨_, _, rfl, .refused recipe strong found failed⟩
      · exact .inr ⟨left, cursor, .stop strong, .refused recipe tighter found failed⟩
  | @further left whole cursor middle outcome recipe tighter found joined more ih =>
      by_cases strong : high < tables.power cursor.kind
      · rcases ih with ⟨diagnostic, last, rfl, run⟩ | ⟨inner, middle', run, rest⟩
        · exact .inl ⟨diagnostic, last, rfl, .further recipe strong found joined run⟩
        · exact .inr ⟨inner, middle', .further recipe strong found joined run, rest⟩
      · exact .inr ⟨left, cursor, .stop strong, .further recipe tighter found joined more⟩

end TailRun

/-- To go on at the weaker power is to go on at the stronger one, and then at the weaker one. -/
theorem returns_expressionTail_of_le (le : low ≤ high) :
    (Recipe.expressionTail low left).Returns tables cursor outcome ↔
      (Recipe.expressionTail high left >>= Recipe.expressionTail low).Returns tables cursor
        outcome := by
  rw [Recipe.returns_bind]
  simp only [returns_expressionTail_iff]
  constructor
  · intro run
    rcases run.split le with ⟨diagnostic, last, rfl, run⟩ | parts
    · exact .inl ⟨diagnostic, last, run, rfl⟩
    · exact .inr parts
  · rintro (⟨diagnostic, last, run, rfl⟩ | ⟨whole, cursor', run, more⟩)
    · exact run.weaken le
    · exact run.resume le more

theorem returns_expression_of_none (none : tables.prefixRule cursor.kind = none) :
    (Recipe.expression least).Returns tables cursor outcome ↔
      (Recipe.refuseKind .expectedExpression : Recipe Expr).Returns tables cursor outcome := by
  rw [Recipe.expression, Recipe.returns_ask, Phrase.recipe, Recipe.expressionPhrase,
    Recipe.returns_kind_bind, none]

theorem returns_expression_of_prefixRule {recipe : Recipe Expr}
    (found : tables.prefixRule cursor.kind = some recipe) :
    (Recipe.expression least).Returns tables cursor outcome ↔
      (recipe >>= Recipe.expressionTail least).Returns tables cursor outcome := by
  rw [Recipe.expression, Recipe.returns_ask, Phrase.recipe, Recipe.expressionPhrase,
    Recipe.returns_kind_bind, found]

/-- To read an expression at the weaker power is to read one at the stronger power, and to go on
from it at the weaker one. -/
theorem returns_expression_of_le (le : low ≤ high) :
    (Recipe.expression low).Returns tables cursor outcome ↔
      (Recipe.expression high >>= Recipe.expressionTail low).Returns tables cursor outcome := by
  cases found : tables.prefixRule cursor.kind with
  | none =>
      simp only [Recipe.returns_bind, returns_expression_of_none found, Recipe.returns_refuseKind]
      constructor
      · rintro rfl
        exact .inl ⟨_, _, rfl, rfl⟩
      · rintro (⟨_, _, same, rfl⟩ | ⟨_, _, same, -⟩)
        · exact same
        · cases same
  | some recipe =>
      calc (Recipe.expression low).Returns tables cursor outcome
        _ ↔ (recipe >>= Recipe.expressionTail low).Returns tables cursor outcome :=
          returns_expression_of_prefixRule found
        _ ↔ (recipe >>= fun operand =>
              Recipe.expressionTail high operand >>= Recipe.expressionTail low).Returns tables
                cursor outcome :=
          Recipe.returns_bind_congr fun _ _ => returns_expressionTail_of_le le
        _ ↔ ((recipe >>= Recipe.expressionTail high) >>= Recipe.expressionTail low).Returns
              tables cursor outcome := by
          simp only [Recipe.bind_eq, Recipe.bind_assoc]
        _ ↔ (Recipe.expression high >>= Recipe.expressionTail low).Returns tables cursor outcome :=
          by simp only [Recipe.returns_bind, returns_expression_of_prefixRule found]

end Loop

/-! ## Reading that goes on stays nowhere -/

section Headway

variable {tables : Tables} {least : Power} {left whole : Expr} {cursor cursor' : Cursor}

/-- On the token where it has moved on by nothing, a cursor is where it was. -/
theorem Cursor.Leads.eq_of_index_le (leads : cursor.Leads cursor')
    (still : cursor'.index ≤ cursor.index) : cursor' = cursor := by
  have index_le := leads.index_le
  obtain ⟨behind, total⟩ := leads
  obtain ⟨index, current, rest⟩ := cursor
  obtain ⟨index', current', rest'⟩ := cursor'
  have same : index' = index := Nat.le_antisymm still index_le
  subst same
  have lengths : (current' :: rest').length = (current :: rest).length :=
    congrArg Nat.succ (Nat.add_left_cancel total)
  cases behind.eq_of_length lengths
  rfl

namespace TailRun

/-- A run that is accepted ends in front of a token that does not bind tighter. -/
theorem stops (run : TailRun tables least left cursor (.accepted whole cursor')) :
    ¬ least < tables.power cursor'.kind := by
  generalize same : Outcome.accepted whole cursor' = ending at run
  induction run with
  | stop stops =>
      cases same
      exact stops
  | missing tighter none => cases same
  | refused recipe tighter found failed => cases same
  | further recipe tighter found joined more ih => exact ih same

/-- A run of infix rules that is accepted where it began has no rule in it: the token that it
began with would bind tighter, and the one that it ends at does not. -/
theorem eq_of_index_le (run : TailRun tables least left cursor (.accepted whole cursor'))
    (still : cursor'.index ≤ cursor.index) : whole = left ∧ cursor' = cursor := by
  have same : cursor' = cursor := run.returns.leads.eq_of_index_le still
  cases run with
  | stop stops => exact ⟨rfl, rfl⟩
  | further recipe tighter found joined more =>
      have stops := more.stops
      rw [same] at stops
      exact absurd tighter stops

end TailRun

end Headway

/-! ## Main statement -/

/-- **Reading at a weaker power goes on from reading at a stronger one.** Under any tables and
anywhere in a stream: where the stronger reading is refused, the weaker one is refused with the
same diagnostic; where the stronger one is accepted, the weaker one returns what going on from
there returns, if anything. So where the weaker one is accepted the stronger one is, no further
on, and with the same expression if it ends at the same token. -/
theorem expression_at_weaker_power (tables : Tables) (cursor : Cursor) {low high : Power}
    (le : low ≤ high) :
    (∀ diagnostic last,
      (Recipe.expression high).Returns tables cursor (.refused diagnostic last) →
        (Recipe.expression low).Returns tables cursor (.refused diagnostic last)) ∧
    (∀ left middle, (Recipe.expression high).Returns tables cursor (.accepted left middle) →
      ∀ outcome, (Recipe.expression low).Returns tables cursor outcome ↔
        (Recipe.expressionTail low left).Returns tables middle outcome) ∧
    (∀ whole last, (Recipe.expression low).Returns tables cursor (.accepted whole last) →
      ∃ left middle, (Recipe.expression high).Returns tables cursor (.accepted left middle) ∧
        cursor.Leads middle ∧ middle.Leads last ∧
        (middle.index = last.index → whole = left ∧ last = middle)) := by
  have parts (outcome : Outcome Expr) :
      (Recipe.expression low).Returns tables cursor outcome ↔
        (∃ diagnostic last,
          (Recipe.expression high).Returns tables cursor (.refused diagnostic last) ∧
            outcome = .refused diagnostic last) ∨
        ∃ left middle, (Recipe.expression high).Returns tables cursor (.accepted left middle) ∧
          (Recipe.expressionTail low left).Returns tables middle outcome :=
    (returns_expression_of_le le).trans Recipe.returns_bind
  refine ⟨?_, ?_, ?_⟩
  · intro diagnostic last refused
    exact (parts _).mpr (.inl ⟨diagnostic, last, refused, rfl⟩)
  · intro left middle accepted outcome
    constructor
    · intro returns
      rcases (parts _).mp returns with ⟨_, _, refused, -⟩ | ⟨left', middle', accepted', more⟩
      · cases accepted.unique refused
      · cases accepted.unique accepted'
        exact more
    · intro more
      exact (parts _).mpr (.inr ⟨left, middle, accepted, more⟩)
  · intro whole last returns
    rcases (parts _).mp returns with ⟨_, _, -, same⟩ | ⟨left, middle, accepted, more⟩
    · cases same
    · refine ⟨left, middle, accepted, accepted.leads, more.leads, ?_⟩
      intro same
      exact (returns_expressionTail_iff.mp more).eq_of_index_le (Nat.le_of_eq same.symm)

/-- In `a * b - c ;` the difference goes on from the product, which is read at the power of
differences; in `a * - ;` the product is refused, and so is all that begins with it. -/
theorem difference_goes_on_from_product :
    let a : Token := ⟨.identifier, "a"⟩
    let times : Token := ⟨.star, "*"⟩
    let minus : Token := ⟨.dash, "-"⟩
    let end' : List Token := [⟨.semicolon, ";"⟩, .endOfInput]
    let difference : Cursor := ⟨0, a, times :: a :: minus :: a :: end'⟩
    let unfinished : Cursor := ⟨0, a, times :: minus :: end'⟩
    let product : Expr := .binary (.symbol "a") times (.symbol "a")
    (∀ outcome, (Recipe.expression .lowest).Returns .language difference outcome ↔
      (Recipe.expressionTail .lowest product).Returns .language ⟨3, minus, a :: end'⟩ outcome) ∧
    (∃ left middle, middle.Leads ⟨5, ⟨.semicolon, ";"⟩, [.endOfInput]⟩ ∧
      (Recipe.expression .additive).Returns .language difference (.accepted left middle)) ∧
    ∃ last, (Recipe.expression .lowest).Returns .language unfinished
      (.refused ⟨.expectedExpression .semicolon, .token 3⟩ last) := by
  intro a times minus end' difference unfinished product
  have ended : difference.Ended := rfl
  have ended' : unfinished.Ended := rfl
  have careful (least : Power) (current : Token) : (Recipe.expression least).Careful current :=
    Recipe.careful_ask trivial
  have accepted : (Recipe.expression .additive).Returns .language difference
      (.accepted product ⟨3, minus, a :: end'⟩) :=
    (Recipe.returns_iff_perform .language ended (careful _ _)).mpr (by cbv)
  have whole : (Recipe.expression .lowest).Returns .language difference
      (.accepted (.binary product minus (.symbol "a")) ⟨5, ⟨.semicolon, ";"⟩, [.endOfInput]⟩) :=
    (Recipe.returns_iff_perform .language ended (careful _ _)).mpr (by cbv)
  have refused : (Recipe.expression .additive).Returns .language unfinished
      (.refused ⟨.expectedExpression .semicolon, .token 3⟩ ⟨3, ⟨.semicolon, ";"⟩, [.endOfInput]⟩) :=
    (Recipe.returns_iff_perform .language ended' (careful _ _)).mpr (by cbv)
  have le : Power.lowest ≤ .additive := by decide
  obtain ⟨-, goesOn, fewer⟩ := expression_at_weaker_power .language difference le
  obtain ⟨same, -, -⟩ := expression_at_weaker_power .language unfinished le
  obtain ⟨left, middle, stronger, -, leads, -⟩ := fewer _ _ whole
  exact ⟨goesOn _ _ accepted, ⟨left, middle, leads, stronger⟩, _, same _ _ refused⟩

end ScriptReader
