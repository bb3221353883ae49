/- # ScriptReader.Proofs.Returning — what a recipe returns

Under tables of one's own a reading may never end, and no number of levels is known to be
enough. So a recipe returns an outcome if some number of levels settles it
(`Recipe.Returns`), and then that is its only outcome. Under the tables of the language the
budget is such a number (`Recipe.returns_iff_perform`).

The lemmas `Recipe.returns_*` open a recipe step by step in what it returns, accepted or
refused, as the lemmas `Recipe.reads_*` do in what it reads.
-/
import ScriptReader.Proofs.Consulting
import ScriptReader.Proofs.Performing
import ScriptReader.Proofs.Staying

namespace ScriptReader

set_option autoImplicit false

namespace Recipe

variable {α β : Type} {tables : Tables} {cursor cursor' : Cursor}

/-- Carried out with enough levels, the recipe has the outcome. -/
def Returns (tables : Tables) (recipe : Recipe α) (cursor : Cursor) (outcome : Outcome α) : Prop :=
  outcome ≠ .exhausted ∧ ∃ levels, recipe.run (answer tables levels) cursor = outcome

theorem run_of_le {recipe : Recipe α} {levels levels' : Nat}
    (settled : recipe.run (answer tables levels) cursor ≠ .exhausted) (le : levels ≤ levels') :
    recipe.run (answer tables levels') cursor = recipe.run (answer tables levels) cursor :=
  run_eq_of_settled (fun _ _ settled => answer_of_le settled le) recipe cursor settled

theorem Returns.run_of_le {recipe : Recipe α} {outcome : Outcome α}
    (returns : recipe.Returns tables cursor outcome) :
    ∃ enough, ∀ levels ≥ enough, recipe.run (answer tables levels) cursor = outcome := by
  obtain ⟨settled, enough, rfl⟩ := returns
  exact ⟨enough, fun _ le => Recipe.run_of_le settled le⟩

theorem returns_of_accepted {recipe : Recipe α} {value : α} {levels : Nat}
    (ran : recipe.run (answer tables levels) cursor = .accepted value cursor') :
    recipe.Returns tables cursor (.accepted value cursor') :=
  ⟨nofun, levels, ran⟩

/-- A recipe returns one outcome at most. -/
theorem Returns.unique {recipe : Recipe α} {outcome outcome' : Outcome α}
    (returns : recipe.Returns tables cursor outcome)
    (returns' : recipe.Returns tables cursor outcome') : outcome = outcome' := by
  obtain ⟨enough, ran⟩ := returns.run_of_le
  obtain ⟨enough', ran'⟩ := returns'.run_of_le
  exact (ran _ (Nat.le_max_left enough enough')).symm.trans (ran' _ (Nat.le_max_right _ _))

/-- Under grounded tables, a careful recipe returns what comes of carrying it out. -/
theorem returns_iff_perform (grounded : tables.Grounded) {recipe : Recipe α}
    (ended : cursor.Ended) (careful : recipe.Careful cursor.current) {outcome : Outcome α} :
    recipe.Returns tables cursor outcome ↔ recipe.perform tables cursor = outcome := by
  have settled : recipe.perform tables cursor ≠ .exhausted :=
    perform_settles grounded ended careful
  constructor
  · intro returns
    exact Returns.unique ⟨settled, cursor.budget, rfl⟩ returns
  · rintro rfl
    exact ⟨settled, cursor.budget, rfl⟩

/-- A run of a sequence that settles is refused in its first recipe, or it is one of the second
behind what the first one reads. -/
theorem run_bind_cases {answer' : (phrase : Phrase) → Cursor → Outcome phrase.Value}
    {recipe : Recipe α} {next : α → Recipe β} {outcome : Outcome β}
    (settled : outcome ≠ .exhausted) (ran : (recipe >>= next).run answer' cursor = outcome) :
    (∃ diagnostic last, recipe.run answer' cursor = .refused diagnostic last ∧
      outcome = .refused diagnostic last) ∨
    ∃ value middle, recipe.run answer' cursor = .accepted value middle ∧
      (next value).run answer' middle = outcome := by
  rw [bind_eq, run_bind] at ran
  cases first : recipe.run answer' cursor with
  | accepted value middle =>
      rw [first] at ran
      exact .inr ⟨value, middle, rfl, ran⟩
  | refused diagnostic last =>
      rw [first] at ran
      exact .inl ⟨diagnostic, last, rfl, ran.symm⟩
  | exhausted =>
      rw [first] at ran
      exact absurd ran.symm settled

theorem returns_yield {value : α} {outcome : Outcome α} :
    (yield value).Returns tables cursor outcome ↔ outcome = .accepted value cursor := by
  constructor
  · rintro ⟨-, levels, rfl⟩
    rfl
  · rintro rfl
    exact ⟨nofun, 0, rfl⟩

theorem returns_refuseKind {make : TokenKind → Cause} {outcome : Outcome α} :
    (refuseKind make).Returns tables cursor outcome ↔
      outcome = .refused ⟨make cursor.kind, .token cursor.index⟩ cursor := by
  constructor
  · rintro ⟨-, levels, rfl⟩
    rfl
  · rintro rfl
    exact ⟨nofun, 0, rfl⟩

/-- A sequence is refused in its first recipe, or returns what the second returns behind what the
first one reads. -/
theorem returns_bind {recipe : Recipe α} {next : α → Recipe β} {outcome : Outcome β} :
    (recipe >>= next).Returns tables cursor outcome ↔
      (∃ diagnostic cursor', recipe.Returns tables cursor (.refused diagnostic cursor') ∧
        outcome = .refused diagnostic cursor') ∨
      ∃ value cursor', recipe.Returns tables cursor (.accepted value cursor') ∧
        (next value).Returns tables cursor' outcome := by
  constructor
  · rintro ⟨settled, levels, ran⟩
    rcases run_bind_cases settled ran with ⟨diagnostic, last, first, rfl⟩ | ⟨value, middle, first, ran⟩
    · exact .inl ⟨diagnostic, last, ⟨nofun, levels, first⟩, rfl⟩
    · exact .inr ⟨value, middle, returns_of_accepted first, settled, levels, ran⟩
  · rintro (⟨diagnostic, cursor', ⟨-, levels, first⟩, rfl⟩ | ⟨value, cursor', first, second⟩)
    · exact ⟨nofun, levels, by rw [bind_eq, run_bind, first]⟩
    · obtain ⟨enough, ran⟩ := first.run_of_le
      obtain ⟨enough', ran'⟩ := second.run_of_le
      refine ⟨second.1, max enough enough', ?_⟩
      rw [bind_eq, run_bind, ran _ (Nat.le_max_left _ _)]
      exact ran' _ (Nat.le_max_right _ _)

theorem returns_bind_congr {recipe : Recipe α} {next next' : α → Recipe β} {outcome : Outcome β}
    (same : ∀ value cursor', (next value).Returns tables cursor' outcome ↔
      (next' value).Returns tables cursor' outcome) :
    (recipe >>= next).Returns tables cursor outcome ↔
      (recipe >>= next').Returns tables cursor outcome := by
  simp only [returns_bind, same]

/-- A phrase that is asked for returns what its recipe returns. -/
theorem returns_ask {phrase : Phrase} {outcome : Outcome phrase.Value} :
    (ask phrase).Returns tables cursor outcome ↔
      (phrase.recipe tables).Returns tables cursor outcome := by
  constructor
  · rintro ⟨settled, levels, ran⟩
    rw [run_ask] at ran
    cases levels with
    | zero => exact absurd ran.symm settled
    | succ levels => exact ⟨settled, levels, ran⟩
  · rintro ⟨settled, levels, ran⟩
    exact ⟨settled, levels + 1, by rw [run_ask]; exact ran⟩

/-- The kind of the current token decides what is returned. -/
theorem returns_kind_bind {next : TokenKind → Recipe α} {outcome : Outcome α} :
    (kind >>= next).Returns tables cursor outcome ↔
      (next cursor.kind).Returns tables cursor outcome :=
  Iff.rfl

/-- The token that is expected is taken. -/
theorem returns_expect_bind {expected : TokenKind} {next : Token → Recipe α} {outcome : Outcome α}
    (same : cursor.kind = expected) :
    (expect expected >>= next).Returns tables cursor outcome ↔
      (next cursor.current).Returns tables cursor.next outcome := by
  have taken (levels : Nat) : (expect expected >>= next).run (answer tables levels) cursor =
      (next cursor.current).run (answer tables levels) cursor.next := by
    rw [bind_eq, run_bind, run_expect, Cursor.expect, if_pos same]
  simp only [Returns, taken]

/-- Another token than the expected one is refused. -/
theorem returns_expect_bind_of_ne {expected : TokenKind} {next : Token → Recipe α}
    {outcome : Outcome α} (other : cursor.kind ≠ expected) :
    (expect expected >>= next).Returns tables cursor outcome ↔
      outcome = .refused ⟨.unexpected expected cursor.kind, .token cursor.index⟩ cursor := by
  have refused (levels : Nat) : (expect expected >>= next).run (answer tables levels) cursor =
      .refused ⟨.unexpected expected cursor.kind, .token cursor.index⟩ cursor := by
    rw [bind_eq, run_bind, run_expect, Cursor.expect, if_neg other]
    rfl
  constructor
  · rintro ⟨-, levels, rfl⟩
    exact refused levels
  · rintro rfl
    exact ⟨nofun, 0, refused 0⟩

/-- What a recipe accepts leaves the cursor on its stream. -/
theorem Returns.leads {recipe : Recipe α} {value : α}
    (returns : recipe.Returns tables cursor (.accepted value cursor')) : cursor.Leads cursor' := by
  obtain ⟨-, levels, ran⟩ := returns
  exact leads_of_run (fun _ _ _ inner => leads_of_cursor? inner) (by rw [ran]; rfl)

end Recipe

end ScriptReader
