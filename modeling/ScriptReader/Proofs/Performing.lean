/- # ScriptReader.Proofs.Performing — recipes that are carried out

What a recipe reads or refuses is said of tokens, without levels and cursors; here it
is turned into what comes of carrying the recipe out at a place of a stream. A recipe
settles on the budget of its cursor, and on any larger one (`Recipe.run_eq_perform`), so
the levels that a reading takes may be as many as they are.

A sequence of which the first part is read is the second part, carried out behind what was
read (`Recipe.perform_bind_of_reads`); this covers all outcomes of the second part.

The lemmas `Recipe.refuses_*` open a recipe step by step in what it refuses, as the lemmas
`Recipe.reads_*` do in what it reads.
-/
import ScriptReader.Proofs.Headway
import ScriptReader.Proofs.Refusing

namespace ScriptReader

set_option autoImplicit false

/-! ## Refusals of recipes step by step -/

namespace Recipe

variable {α β : Type} {readings : Readings} {refusals : Refusals} {ahead stop rest : List Token}
  {token : Token} {cause : Cause}

theorem refuses_refuseKind {make : TokenKind → Cause} :
    (refuseKind make : Recipe α).Refuses readings refusals (token :: rest) (make token.kind)
      (token :: rest) :=
  ⟨token, rest, rfl, rfl, rfl⟩

theorem refuses_ask {phrase : Phrase} : (ask phrase).Refuses readings refusals ahead cause stop ↔
    refusals phrase ahead cause stop := by
  constructor
  · rintro (inside | ⟨_, _, -, ⟨wrong, -⟩ | ⟨-, refused⟩⟩)
    · exact inside
    · cases wrong
    · exact refused.elim
  · exact Or.inl

/-- A token of another kind than the expected one is refused. -/
theorem refuses_expect {expected : TokenKind} (other : token.kind ≠ expected) :
    (expect expected).Refuses readings refusals (token :: rest) (.unexpected expected token.kind)
      (token :: rest) := by
  refine ⟨token, rest, rfl, ?_⟩
  dsimp only
  rw [if_neg other]
  exact ⟨rfl, rfl⟩

/-- A sequence is refused in its first recipe, or in the second behind what the first reads. -/
theorem refuses_bind {recipe : Recipe α} {next : α → Recipe β} :
    (recipe >>= next).Refuses readings refusals ahead cause stop ↔
      recipe.Refuses readings refusals ahead cause stop ∨
        ∃ value middle, recipe.Reads readings ahead value middle ∧
          (next value).Refuses readings refusals middle cause stop := by
  rw [bind_eq]
  induction recipe generalizing ahead with
  | yield value =>
      constructor
      · intro refused
        exact .inr ⟨value, ahead, ⟨rfl, rfl⟩, refused⟩
      · rintro (refused | ⟨_, _, ⟨rfl, rfl⟩, refused⟩)
        · exact refused.elim
        · exact refused
  | refuse why =>
      constructor
      · exact Or.inl
      · rintro (refused | ⟨_, _, read, -⟩)
        · exact refused
        · exact read.elim
  | peek next' ih =>
      constructor
      · rintro ⟨token, rest, rfl, refused⟩
        rcases (ih token).mp refused with refused | ⟨value, middle, read, refused⟩
        · exact .inl ⟨token, rest, rfl, refused⟩
        · exact .inr ⟨value, middle, ⟨token, rest, rfl, read⟩, refused⟩
      · rintro (⟨token, rest, rfl, refused⟩ | ⟨value, middle, ⟨token, rest, rfl, read⟩, refused⟩)
        · exact ⟨token, rest, rfl, (ih token).mpr (.inl refused)⟩
        · exact ⟨token, rest, rfl, (ih token).mpr (.inr ⟨value, middle, read, refused⟩)⟩
  | readToken fault next' ih =>
      constructor
      · rintro ⟨token, rest, rfl, wrong | ⟨sound, refused⟩⟩
        · exact .inl ⟨token, rest, rfl, .inl wrong⟩
        · rcases (ih token).mp refused with refused | ⟨value, middle, read, refused⟩
          · exact .inl ⟨token, rest, rfl, .inr ⟨sound, refused⟩⟩
          · exact .inr ⟨value, middle, ⟨token, rest, rfl, sound, read⟩, refused⟩
      · rintro (⟨token, rest, rfl, wrong | ⟨sound, refused⟩⟩ |
          ⟨value, middle, ⟨token, rest, rfl, sound, read⟩, refused⟩)
        · exact ⟨token, rest, rfl, .inl wrong⟩
        · exact ⟨token, rest, rfl, .inr ⟨sound, (ih token).mpr (.inl refused)⟩⟩
        · exact ⟨token, rest, rfl, .inr
            ⟨sound, (ih token).mpr (.inr ⟨value, middle, read, refused⟩)⟩⟩
  | readPhrase phrase fault next' ih =>
      constructor
      · rintro (inside | ⟨inner, between, read, wrong | ⟨sound, refused⟩⟩)
        · exact .inl (.inl inside)
        · exact .inl (.inr ⟨inner, between, read, .inl wrong⟩)
        · rcases (ih inner).mp refused with refused | ⟨value, middle, read', refused⟩
          · exact .inl (.inr ⟨inner, between, read, .inr ⟨sound, refused⟩⟩)
          · exact .inr ⟨value, middle, ⟨inner, between, read, sound, read'⟩, refused⟩
      · rintro ((inside | ⟨inner, between, read, wrong | ⟨sound, refused⟩⟩) |
          ⟨value, middle, ⟨inner, between, read, sound, read'⟩, refused⟩)
        · exact .inl inside
        · exact .inr ⟨inner, between, read, .inl wrong⟩
        · exact .inr ⟨inner, between, read, .inr ⟨sound, (ih inner).mpr (.inl refused)⟩⟩
        · exact .inr ⟨inner, between, read, .inr
            ⟨sound, (ih inner).mpr (.inr ⟨value, middle, read', refused⟩)⟩⟩

/-- Behind an item that others follow, anything but a comma is refused. -/
theorem refuses_separator {close : TokenKind}
    (goesOn : ¬ (token.kind = .endOfInput ∨ token.kind = close)) (other : token.kind ≠ .comma) :
    (separator close).Refuses readings refusals (token :: rest) (.unexpected .comma token.kind)
      (token :: rest) := by
  refine ⟨token, rest, rfl, ?_⟩
  dsimp only
  rw [if_neg goesOn]
  exact refuses_bind.mpr (.inl (refuses_expect other))

/-- The kind of the current token decides what is refused. -/
theorem refuses_kind_bind {next : TokenKind → Recipe α} :
    (kind >>= next).Refuses readings refusals (token :: rest) cause stop ↔
      (next token.kind).Refuses readings refusals (token :: rest) cause stop := by
  constructor
  · rintro ⟨_, _, same, refused⟩
    cases same
    exact refused
  · intro refused
    exact ⟨token, rest, rfl, refused⟩

end Recipe

/-! ## Levels -/

theorem answer_of_le {tables : Tables} {phrase : Phrase} {levels levels' : Nat} {cursor : Cursor}
    (settled : answer tables levels phrase cursor ≠ .exhausted) (le : levels ≤ levels') :
    answer tables levels' phrase cursor = answer tables levels phrase cursor := by
  induction le with
  | refl => rfl
  | step _ ih => rw [answer_succ_of_settled _ _ _ _ (by rw [ih]; exact settled), ih]

theorem Cursor.Ended.of_suffix {ahead left : List Token} {index index' : Nat}
    (ended : (Cursor.facing index ahead).Ended) (suffix : left <:+ ahead) (more : left ≠ []) :
    (Cursor.facing index' left).Ended := by
  obtain ⟨spent, rfl⟩ := suffix
  rw [Cursor.Ended, Cursor.ahead_facing (by simp [more]), List.getLast?_append] at ended
  rw [Cursor.Ended, Cursor.ahead_facing more]
  cases last : left.getLast? with
  | none => exact absurd (List.getLast?_eq_none_iff.mp last) more
  | some token => rwa [last] at ended

/-- Further on in a stream, fewer levels are enough. -/
theorem Cursor.budget_facing_le {ahead left : List Token} {index index' : Nat}
    (suffix : left <:+ ahead) (more : left ≠ []) :
    (Cursor.facing index' left).budget ≤ (Cursor.facing index ahead).budget := by
  have length := suffix.length_le
  obtain ⟨token, rest, rfl⟩ := List.exists_cons_of_ne_nil more
  obtain ⟨token', rest', rfl⟩ := List.exists_cons_of_ne_nil (suffix.ne_nil more)
  simp only [List.length_cons] at length
  simp only [Cursor.budget, Cursor.facing]
  omega

namespace Recipe

variable {α β : Type} {tables : Tables} {ahead left middle stop : List Token} {value : α}
  {cause : Cause}

/-- What is read is accepted on enough levels. -/
theorem run_of_reads_phrases {recipe : Recipe α}
    (read : recipe.Reads (Phrase.Reads tables) ahead value left) (more : left ≠ []) (index : Nat) :
    ∃ enough, ∀ levels ≥ enough, recipe.run (answer tables levels) (.facing index ahead) =
      .accepted value (.facing (index + (ahead.length - left.length)) left) := by
  obtain ⟨enough, read⟩ := Phrase.exists_readsWithin read
  refine ⟨enough, fun levels le => ?_⟩
  exact run_of_reads (fun _ _ _ _ inner => inner.suffix)
    (fun _ _ _ _ inner more index => answer_of_readsWithin inner more index)
    (read.mono fun _ _ _ _ inner => inner.mono le) more index

/-- What is refused is refused on enough levels. -/
theorem run_of_refuses_phrases {recipe : Recipe α}
    (refused : recipe.Refuses (Phrase.Reads tables) (Phrase.Refuses tables) ahead cause stop)
    (more : stop ≠ []) (index : Nat) :
    ∃ enough, ∀ levels ≥ enough, ∃ cursor,
      recipe.run (answer tables levels) (.facing index ahead) =
        .refused ⟨cause, .token (index + (ahead.length - stop.length))⟩ cursor := by
  obtain ⟨enough, refused⟩ := Phrase.exists_refusesWithin refused
  refine ⟨enough, fun levels le => ?_⟩
  exact run_of_refuses (fun _ _ _ _ inner => inner.suffix) (fun _ _ _ _ inner => inner.suffix)
    (fun _ _ _ _ inner more index => answer_of_readsWithin inner more index)
    (fun _ _ _ _ inner some index => answer_of_refusesWithin inner some index)
    (refused.mono (fun _ _ _ _ inner => inner.mono le) fun _ _ _ _ inner => inner.mono le) more
    index

section Grounded

variable (grounded : tables.Grounded) {index : Nat}
include grounded

/-- The budget of a cursor is enough. -/
theorem perform_settles {recipe : Recipe α} {cursor : Cursor} (ended : cursor.Ended)
    (careful : recipe.Careful cursor.current) : recipe.perform tables cursor ≠ .exhausted := by
  have enough : 3 * cursor.rest.length + 2 < cursor.budget := by
    unfold Cursor.budget
    omega
  exact run_settles_of_careful
    (fun _ _ _ _ ended starts inner => (readsWithin_of_answer grounded ended starts inner).1)
    (fun _ _ ended starts enough => answer_settles grounded ended starts enough)
    ended careful enough

/-- More levels than the budget make no difference. -/
theorem run_eq_perform {recipe : Recipe α} {cursor : Cursor} (ended : cursor.Ended)
    (careful : recipe.Careful cursor.current) {levels : Nat} (le : cursor.budget ≤ levels) :
    recipe.run (answer tables levels) cursor = recipe.perform tables cursor :=
  run_eq_of_settled (fun _ _ settled => answer_of_le settled le) recipe cursor
    (perform_settles grounded ended careful)

/-- Behind what its first part reads, a sequence is its second part. -/
theorem perform_bind_of_reads {first : Recipe α} {next : α → Recipe β}
    (ended : (Cursor.facing index ahead).Ended)
    (careful : (first >>= next).Careful (Cursor.facing index ahead).current)
    (careful' : ∀ current, (next value).Careful current)
    (read : first.Reads (Phrase.Reads tables) ahead value middle) (more : middle ≠ []) :
    (first >>= next).perform tables (.facing index ahead) =
      (next value).perform tables (.facing (index + (ahead.length - middle.length)) middle) := by
  obtain ⟨spent, rfl⟩ := read.suffix fun _ _ _ _ inner => inner.suffix
  have suffix : middle <:+ spent ++ middle := List.suffix_append spent middle
  obtain ⟨enough, ran⟩ := run_of_reads_phrases read more index
  let behind := Cursor.facing (index + ((spent ++ middle).length - middle.length)) middle
  let levels := max enough (Cursor.facing index (spent ++ middle)).budget
  have within : behind.budget ≤ levels :=
    Nat.le_trans (Cursor.budget_facing_le suffix more) (Nat.le_max_right _ _)
  calc
    (first >>= next).perform tables (.facing index (spent ++ middle)) =
        (first >>= next).run (answer tables levels) (.facing index (spent ++ middle)) :=
      (run_eq_perform grounded ended careful (Nat.le_max_right _ _)).symm
    _ = (next value).run (answer tables levels) behind := by
      rw [bind_eq, run_bind, ran levels (Nat.le_max_left _ _)]
    _ = (next value).perform tables behind :=
      run_eq_perform grounded (ended.of_suffix suffix more) (careful' _) within

/-- What is read is accepted where the recipe is carried out. -/
theorem perform_of_reads {recipe : Recipe α} (ended : (Cursor.facing index ahead).Ended)
    (careful : recipe.Careful (Cursor.facing index ahead).current)
    (read : recipe.Reads (Phrase.Reads tables) ahead value left) (more : left ≠ []) :
    recipe.perform tables (.facing index ahead) =
      .accepted value (.facing (index + (ahead.length - left.length)) left) := by
  obtain ⟨enough, ran⟩ := run_of_reads_phrases read more index
  rw [← run_eq_perform grounded ended careful (Nat.le_max_right enough _),
    ran _ (Nat.le_max_left _ _)]

/-- What is refused is refused where the recipe is carried out. -/
theorem perform_of_refuses {recipe : Recipe α} (ended : (Cursor.facing index ahead).Ended)
    (careful : recipe.Careful (Cursor.facing index ahead).current)
    (refused : recipe.Refuses (Phrase.Reads tables) (Phrase.Refuses tables) ahead cause stop)
    (more : stop ≠ []) :
    ∃ cursor, recipe.perform tables (.facing index ahead) =
      .refused ⟨cause, .token (index + (ahead.length - stop.length))⟩ cursor := by
  obtain ⟨enough, ran⟩ := run_of_refuses_phrases refused more index
  rw [← run_eq_perform grounded ended careful (Nat.le_max_right enough _)]
  exact ran _ (Nat.le_max_left _ _)

end Grounded

end Recipe

/-! ## Phrases that are asked for -/

section Asking

variable {tables : Tables} {phrase : Phrase} {value : phrase.Value}

/-- What is accepted where a phrase is asked for can be read as the phrase. -/
theorem reads_of_perform (grounded : tables.Grounded) {cursor cursor' : Cursor}
    (ended : cursor.Ended) (starts : phrase.StartsAt cursor.current)
    (performed : (Recipe.ask phrase).perform tables cursor = .accepted value cursor') :
    Phrase.Reads tables phrase cursor.ahead value cursor'.ahead := by
  rw [Recipe.perform, Recipe.run_ask] at performed
  exact ⟨cursor.budget, (readsWithin_of_answer grounded ended starts performed).2⟩

/-- What can be read as a phrase is accepted where the phrase is asked for. -/
theorem perform_of_reads (grounded : tables.Grounded) {ahead left : List Token} {index : Nat}
    (ended : (Cursor.facing index ahead).Ended)
    (read : Phrase.Reads tables phrase ahead value left) (more : left ≠ [])
    (starts : phrase.StartsAt (Cursor.facing index ahead).current) :
    (Recipe.ask phrase).perform tables (.facing index ahead) =
      .accepted value (.facing (index + (ahead.length - left.length)) left) :=
  Recipe.perform_of_reads grounded ended (Recipe.careful_ask starts) (Recipe.reads_ask.mpr read)
    more

end Asking

end ScriptReader
