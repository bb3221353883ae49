/- # ScriptReader.Proofs.Refusing — what is refused where, without levels

The counterpart of `ScriptReader.Proofs.Reading` for refusals:
`phrase.Refuses tables ahead cause stop` says that the tokens `ahead` begin like the
phrase, that reading it stops with the cause, and that the token it is refused at is
the first of `stop`. What was read of the phrase before is the part of `ahead` in
front of `stop`.

Under grounded tables a refused answer is such a refusal (`refusesWithin_of_answer`),
and a refusal is a refused answer as long as there is a token to point at
(`answer_of_refusesWithin`). A program is refused exactly if a row of its statements
can be read and the statement behind them is refused (`parseWith_eq_refused_iff`).
-/
import ScriptReader.Proofs.Programs

namespace ScriptReader

set_option autoImplicit false

@[simp] theorem Cursor.index_facing (index : Nat) (tokens : List Token) :
    (facing index tokens).index = index := by
  cases tokens <;> rfl

/-! ## Refusals of recipes -/

/-- What can be refused in each phrase: the tokens ahead, the cause, and the tokens from the
one on that the refusal points at. -/
abbrev Refusals := Phrase → List Token → Cause → List Token → Prop

namespace Recipe

variable {α : Type}

/-- A recipe stops with a cause, given what can be read and what can be refused as each phrase.
Where a phrase that was read is at fault, the refusal points at where it began; such a phrase
leaves something of the stream. -/
def Refuses (readings : Readings) (refusals : Refusals) :
    Recipe α → List Token → Cause → List Token → Prop
  | .yield _, _, _, _ => False
  | .refuse why, ahead, cause, stop => cause = why ∧ stop = ahead
  | .peek next, ahead, cause, stop =>
    ∃ token rest, ahead = token :: rest ∧ (next token).Refuses readings refusals ahead cause stop
  | .readToken fault next, ahead, cause, stop =>
    ∃ token rest, ahead = token :: rest ∧
      (fault token = some cause ∧ stop = ahead ∨
        fault token = none ∧ (next token).Refuses readings refusals rest cause stop)
  | .readPhrase phrase fault next, ahead, cause, stop =>
    refusals phrase ahead cause stop ∨
      ∃ value middle, readings phrase ahead value middle ∧
        (fault value = some cause ∧ stop = ahead ∧ middle ≠ [] ∨
          fault value = none ∧ (next value).Refuses readings refusals middle cause stop)

variable {readings readings' : Readings} {refusals refusals' : Refusals} {ahead stop : List Token}
  {cause : Cause}

theorem Refuses.mono {recipe : Recipe α}
    (more : ∀ phrase ahead value left, readings phrase ahead value left →
      readings' phrase ahead value left)
    (further : ∀ phrase ahead cause stop, refusals phrase ahead cause stop →
      refusals' phrase ahead cause stop)
    (refused : recipe.Refuses readings refusals ahead cause stop) :
    recipe.Refuses readings' refusals' ahead cause stop := by
  induction recipe generalizing ahead with
  | yield value => exact refused
  | refuse why => exact refused
  | peek next ih =>
      obtain ⟨token, rest, same, refused⟩ := refused
      exact ⟨token, rest, same, ih _ refused⟩
  | readToken fault next ih =>
      obtain ⟨token, rest, same, here | ⟨sound, later⟩⟩ := refused
      · exact ⟨token, rest, same, .inl here⟩
      · exact ⟨token, rest, same, .inr ⟨sound, ih _ later⟩⟩
  | readPhrase phrase fault next ih =>
      rcases refused with inside | ⟨value, middle, read, here | ⟨sound, later⟩⟩
      · exact .inl (further _ _ _ _ inside)
      · exact .inr ⟨value, middle, more _ _ _ _ read, .inl here⟩
      · exact .inr ⟨value, middle, more _ _ _ _ read, .inr ⟨sound, ih _ later⟩⟩

/-- A refusal points at a token ahead, if that is so for the phrases. -/
theorem Refuses.suffix {recipe : Recipe α}
    (ends : ∀ phrase ahead value left, readings phrase ahead value left → left <:+ ahead)
    (stops : ∀ phrase ahead cause stop, refusals phrase ahead cause stop → stop <:+ ahead)
    (refused : recipe.Refuses readings refusals ahead cause stop) : stop <:+ ahead := by
  induction recipe generalizing ahead with
  | yield value => exact refused.elim
  | refuse why => exact refused.2 ▸ List.suffix_rfl
  | peek next ih =>
      obtain ⟨token, rest, -, refused⟩ := refused
      exact ih _ refused
  | readToken fault next ih =>
      obtain ⟨token, rest, rfl, ⟨-, rfl⟩ | ⟨-, later⟩⟩ := refused
      · exact List.suffix_rfl
      · exact (ih _ later).trans (List.suffix_cons _ _)
  | readPhrase phrase fault next ih =>
      rcases refused with inside | ⟨value, middle, read, ⟨-, rfl, -⟩ | ⟨-, later⟩⟩
      · exact stops _ _ _ _ inside
      · exact List.suffix_rfl
      · exact (ih _ later).trans (ends _ _ _ _ read)

end Recipe

/-! ## Refusals of phrases -/

namespace Phrase

/-- What can be refused in a phrase with so many levels of nesting. -/
def RefusesWithin (tables : Tables) : Nat → Refusals
  | 0 => fun _ _ _ _ => False
  | levels + 1 => fun phrase =>
    (phrase.recipe tables).Refuses (ReadsWithin tables levels) (RefusesWithin tables levels)

/-- The tokens ahead begin like the phrase, which is refused at the first token of `stop`. -/
def Refuses (tables : Tables) : Refusals :=
  fun phrase ahead cause stop => ∃ levels, RefusesWithin tables levels phrase ahead cause stop

variable {tables : Tables} {phrase : Phrase} {ahead left stop : List Token} {cause : Cause}

theorem RefusesWithin.succ {levels : Nat}
    (refused : RefusesWithin tables levels phrase ahead cause stop) :
    RefusesWithin tables (levels + 1) phrase ahead cause stop := by
  induction levels generalizing phrase ahead cause stop with
  | zero => exact refused.elim
  | succ levels ih =>
      exact Recipe.Refuses.mono (fun _ _ _ _ read => read.succ) (fun _ _ _ _ inside => ih inside)
        refused

theorem RefusesWithin.mono {levels levels' : Nat} (le : levels ≤ levels')
    (refused : RefusesWithin tables levels phrase ahead cause stop) :
    RefusesWithin tables levels' phrase ahead cause stop := by
  induction le with
  | refl => exact refused
  | step _ ih => exact ih.succ

theorem RefusesWithin.suffix {levels : Nat}
    (refused : RefusesWithin tables levels phrase ahead cause stop) : stop <:+ ahead := by
  induction levels generalizing phrase ahead cause stop with
  | zero => exact refused.elim
  | succ levels ih =>
      exact Recipe.Refuses.suffix (fun _ _ _ _ read => read.suffix)
        (fun _ _ _ _ inside => ih inside) refused

theorem Refuses.suffix (refused : Refuses tables phrase ahead cause stop) : stop <:+ ahead := by
  obtain ⟨levels, refused⟩ := refused
  exact refused.suffix

theorem exists_refusesWithin {α : Type} {recipe : Recipe α}
    (refused : recipe.Refuses (Reads tables) (Refuses tables) ahead cause stop) :
    ∃ levels, recipe.Refuses (ReadsWithin tables levels) (RefusesWithin tables levels) ahead cause
      stop := by
  induction recipe generalizing ahead with
  | yield value => exact refused.elim
  | refuse why => exact ⟨0, refused⟩
  | peek next ih =>
      obtain ⟨token, rest, same, refused⟩ := refused
      obtain ⟨levels, refused⟩ := ih _ refused
      exact ⟨levels, token, rest, same, refused⟩
  | readToken fault next ih =>
      obtain ⟨token, rest, same, here | ⟨sound, later⟩⟩ := refused
      · exact ⟨0, token, rest, same, .inl here⟩
      · obtain ⟨levels, later⟩ := ih _ later
        exact ⟨levels, token, rest, same, .inr ⟨sound, later⟩⟩
  | readPhrase phrase fault next ih =>
      rcases refused with ⟨levels, inside⟩ | ⟨value, middle, ⟨inner, read⟩, here | ⟨sound, later⟩⟩
      · exact ⟨levels, .inl inside⟩
      · exact ⟨inner, .inr ⟨value, middle, read, .inl here⟩⟩
      · obtain ⟨behind, later⟩ := ih _ later
        refine ⟨max inner behind, .inr
          ⟨value, middle, read.mono (Nat.le_max_left _ _), .inr ⟨sound, ?_⟩⟩⟩
        exact later.mono (fun _ _ _ _ read => read.mono (Nat.le_max_right _ _))
          fun _ _ _ _ inside => inside.mono (Nat.le_max_right _ _)

/-- A phrase is refused as its recipe refuses. -/
theorem refuses_iff : Refuses tables phrase ahead cause stop ↔
    (phrase.recipe tables).Refuses (Reads tables) (Refuses tables) ahead cause stop := by
  constructor
  · rintro ⟨levels, refused⟩
    cases levels with
    | zero => exact refused.elim
    | succ levels =>
        exact Recipe.Refuses.mono (fun _ _ _ _ read => ⟨levels, read⟩)
          (fun _ _ _ _ inside => ⟨levels, inside⟩) refused
  · intro refused
    obtain ⟨levels, refused⟩ := exists_refusesWithin refused
    exact ⟨levels + 1, refused⟩

/-- What every recipe establishes, given it for the phrases that are refused in it, holds of
every phrase that is refused. -/
theorem Refuses.induct {motive : Refusals}
    (step : ∀ (phrase : Phrase) (ahead : List Token) (cause : Cause) (stop : List Token),
      (phrase.recipe tables).Refuses (Reads tables)
        (fun phrase ahead cause stop =>
          Refuses tables phrase ahead cause stop ∧ motive phrase ahead cause stop)
        ahead cause stop → motive phrase ahead cause stop)
    (refused : Refuses tables phrase ahead cause stop) : motive phrase ahead cause stop := by
  obtain ⟨levels, refused⟩ := refused
  induction levels generalizing phrase ahead cause stop with
  | zero => exact refused.elim
  | succ levels ih =>
      exact step _ _ _ _ (Recipe.Refuses.mono (fun _ _ _ _ read => ⟨levels, read⟩)
        (fun _ _ _ _ inside => ⟨⟨levels, inside⟩, ih inside⟩) refused)

end Phrase

/-! ## Refused answers are refusals -/

section Answers

variable {α : Type} {readings : Readings} {refusals : Refusals}
  {answer : (phrase : Phrase) → Cursor → Outcome phrase.Value}

/-- A careful recipe that is refused has met the tokens ahead, and points at one of them. -/
theorem Recipe.refuses_of_run
    (answers : ∀ phrase cursor value cursor', cursor.Ended → phrase.StartsAt cursor.current →
      answer phrase cursor = .accepted value cursor' →
        cursor.Leads cursor' ∧ readings phrase cursor.ahead value cursor'.ahead)
    (refuses : ∀ phrase cursor diagnostic cursor', cursor.Ended →
      phrase.StartsAt cursor.current → answer phrase cursor = .refused diagnostic cursor' →
        ∃ stop : Cursor, cursor.Leads stop ∧ diagnostic.place = .token stop.index ∧
          refusals phrase cursor.ahead diagnostic.cause stop.ahead)
    {recipe : Recipe α} {cursor cursor' : Cursor} {diagnostic : Diagnostic} (ended : cursor.Ended)
    (careful : recipe.Careful cursor.current)
    (ran : recipe.run answer cursor = .refused diagnostic cursor') :
    ∃ stop : Cursor, cursor.Leads stop ∧ diagnostic.place = .token stop.index ∧
      recipe.Refuses readings refusals cursor.ahead diagnostic.cause stop.ahead := by
  induction recipe generalizing cursor with
  | yield value => cases ran
  | refuse why =>
      cases ran
      exact ⟨_, .refl _, rfl, rfl, rfl⟩
  | peek next ih =>
      obtain ⟨stop, leads, place, refused⟩ := ih _ ended careful ran
      exact ⟨stop, leads, place, _, _, rfl, refused⟩
  | readToken fault next ih =>
      obtain ⟨open', careful⟩ := careful
      obtain ⟨ahead, step, -⟩ := Cursor.next_of_kind_ne ended open'
      simp only [run_readToken] at ran
      cases sound : fault cursor.current with
      | some cause =>
          rw [sound] at ran
          cases ran
          exact ⟨_, .refl _, rfl, _, _, ahead, .inl ⟨sound, rfl⟩⟩
      | none =>
          rw [sound] at ran
          obtain ⟨stop, leads, place, refused⟩ := ih _ (ended.of_leads step) (careful _) ran
          exact ⟨stop, step.trans leads, place, _, _, ahead, .inr ⟨sound, refused⟩⟩
  | readPhrase phrase fault next ih =>
      obtain ⟨starts, careful⟩ := careful
      simp only [run_readPhrase] at ran
      cases inner : answer phrase cursor with
      | exhausted => simp [inner] at ran
      | refused diagnostic' cursor'' =>
          simp only [inner] at ran
          cases ran
          obtain ⟨stop, leads, place, refused⟩ := refuses _ _ _ _ ended starts inner
          exact ⟨stop, leads, place, .inl refused⟩
      | accepted value cursor'' =>
          obtain ⟨step, read⟩ := answers _ _ _ _ ended starts inner
          simp only [inner] at ran
          cases sound : fault value with
          | some cause =>
              rw [sound] at ran
              cases ran
              exact ⟨_, .refl _, rfl, .inr ⟨_, _, read, .inl ⟨sound, rfl, List.cons_ne_nil _ _⟩⟩⟩
          | none =>
              rw [sound] at ran
              obtain ⟨stop, leads, place, refused⟩ := ih _ (ended.of_leads step) (careful _ _) ran
              exact ⟨stop, step.trans leads, place, .inr ⟨_, _, read, .inr ⟨sound, refused⟩⟩⟩

theorem refusesWithin_of_answer {tables : Tables} (grounded : tables.Grounded) {levels : Nat}
    {phrase : Phrase} {cursor cursor' : Cursor} {diagnostic : Diagnostic} (ended : cursor.Ended)
    (starts : phrase.StartsAt cursor.current)
    (answered : ScriptReader.answer tables levels phrase cursor = .refused diagnostic cursor') :
    ∃ stop : Cursor, cursor.Leads stop ∧ diagnostic.place = .token stop.index ∧
      Phrase.RefusesWithin tables levels phrase cursor.ahead diagnostic.cause stop.ahead := by
  induction levels generalizing phrase cursor cursor' diagnostic with
  | zero => cases answered
  | succ levels ih =>
      exact Recipe.refuses_of_run
        (fun _ _ _ _ ended starts inner => readsWithin_of_answer grounded ended starts inner)
        (fun _ _ _ _ ended starts inner => ih ended starts inner) ended
        (phrase.careful grounded starts) answered

/-! ## Refusals are refused answers -/

/-- What a recipe refuses, it refuses from any cursor in front of the tokens, as long as there
is a token to point at. -/
theorem Recipe.run_of_refuses
    (ends : ∀ phrase ahead value left, readings phrase ahead value left → left <:+ ahead)
    (stops : ∀ phrase ahead cause stop, refusals phrase ahead cause stop → stop <:+ ahead)
    (answers : ∀ phrase ahead value left, readings phrase ahead value left → left ≠ [] →
      ∀ index, answer phrase (.facing index ahead) =
        .accepted value (.facing (index + (ahead.length - left.length)) left))
    (refuses : ∀ phrase ahead cause stop, refusals phrase ahead cause stop → stop ≠ [] →
      ∀ index, ∃ cursor', answer phrase (.facing index ahead) =
        .refused ⟨cause, .token (index + (ahead.length - stop.length))⟩ cursor')
    {recipe : Recipe α} {ahead stop : List Token} {cause : Cause}
    (refused : recipe.Refuses readings refusals ahead cause stop) (some : stop ≠ [])
    (index : Nat) :
    ∃ cursor', recipe.run answer (.facing index ahead) =
      .refused ⟨cause, .token (index + (ahead.length - stop.length))⟩ cursor' := by
  induction recipe generalizing ahead index with
  | yield value => exact refused.elim
  | refuse why =>
      obtain ⟨rfl, rfl⟩ := refused
      exact ⟨.facing index stop, by simp [run]⟩
  | peek next ih =>
      obtain ⟨token, rest, rfl, refused⟩ := refused
      exact ih token refused index
  | readToken fault next ih =>
      obtain ⟨token, rest, rfl, ⟨wrong, rfl⟩ | ⟨sound, later⟩⟩ := refused
      · have current : fault (Cursor.facing index (token :: rest)).current =
            Option.some cause := wrong
        refine ⟨(Cursor.facing index (token :: rest)).next, ?_⟩
        simp [run_readToken, current]
      · have short := later.suffix ends stops
        have rest_ne : rest ≠ [] := short.ne_nil some
        have length := short.length_le
        have place : index + 1 + (rest.length - stop.length) =
            index + ((token :: rest).length - stop.length) := by
          simp only [List.length_cons]; omega
        have current : fault (Cursor.facing index (token :: rest)).current = none := sound
        simp only [run_readToken, current, Cursor.next_facing rest_ne, ← place]
        exact ih token later (index + 1)
  | readPhrase phrase fault next ih =>
      rcases refused with inside | ⟨value, middle, read, ⟨wrong, rfl, left⟩ | ⟨sound, later⟩⟩
      · obtain ⟨cursor', inner⟩ := refuses _ _ _ _ inside some index
        refine ⟨cursor', ?_⟩
        simp only [run_readPhrase, inner]
      · refine ⟨.facing (index + (stop.length - middle.length)) middle, ?_⟩
        simp [run_readPhrase, answers _ _ _ _ read left, wrong]
      · have short := later.suffix ends stops
        have middle_ne : middle ≠ [] := short.ne_nil some
        have length := short.length_le
        have length' := (ends _ _ _ _ read).length_le
        have place : index + (ahead.length - middle.length) + (middle.length - stop.length) =
            index + (ahead.length - stop.length) := by omega
        simp only [run_readPhrase, answers _ _ _ _ read middle_ne, sound, ← place]
        exact ih value later _

end Answers

theorem answer_of_refusesWithin {tables : Tables} {levels : Nat} {phrase : Phrase}
    {ahead stop : List Token} {cause : Cause}
    (refused : Phrase.RefusesWithin tables levels phrase ahead cause stop) (some : stop ≠ [])
    (index : Nat) :
    ∃ cursor', answer tables levels phrase (.facing index ahead) =
      .refused ⟨cause, .token (index + (ahead.length - stop.length))⟩ cursor' := by
  induction levels generalizing phrase ahead cause stop index with
  | zero => exact refused.elim
  | succ levels ih =>
      exact Recipe.run_of_refuses (fun _ _ _ _ read => read.suffix)
        (fun _ _ _ _ inside => inside.suffix)
        (fun _ _ _ _ read more index => answer_of_readsWithin read more index)
        (fun _ _ _ _ inside some index => ih inside some index) refused some index

/-! ## Refused programs -/

/-- A row of statements stands ahead, and the statement behind it is refused. -/
def RefusesProgram (tables : Tables) (ahead : List Token) (cause : Cause) (stop : List Token) :
    Prop :=
  ∃ body token rest, ReadsRow tables ahead body (token :: rest) ∧ token.kind ≠ .endOfInput ∧
    Phrase.Refuses tables .statement (token :: rest) cause stop

variable {tables : Tables} {ahead middle stop : List Token} {body : List Statement} {cause : Cause}

theorem ReadsRow.refusesProgram (row : ReadsRow tables ahead body middle)
    (refused : RefusesProgram tables middle cause stop) :
    RefusesProgram tables ahead cause stop := by
  obtain ⟨later, token, rest, further, goesOn, refused⟩ := refused
  exact ⟨body ++ later, token, rest, row.append further, goesOn, refused⟩

theorem refusesProgram_of_readStatements (grounded : tables.Grounded) {levels : Nat}
    {cursor : Cursor} {diagnostic : Diagnostic} (ended : cursor.Ended)
    (refused : (readStatements tables levels cursor).ending = .refused diagnostic) :
    ∃ stop : Cursor, cursor.Leads stop ∧ diagnostic.place = .token stop.index ∧
      RefusesProgram tables cursor.ahead diagnostic.cause stop.ahead := by
  induction levels generalizing cursor with
  | zero => cases refused
  | succ levels ih =>
      rw [readStatements] at refused
      by_cases more : cursor.hasMore
      · have goesOn : cursor.kind ≠ .endOfInput := by simpa [Cursor.hasMore] using more
        simp only [more, if_true] at refused
        have starts : Phrase.statement.StartsAt cursor.current := trivial
        cases first : answer tables levels .statement cursor with
        | exhausted => simp [first] at refused
        | refused diagnostic' cursor' =>
            simp only [first] at refused
            cases refused
            obtain ⟨stop, leads, place, inside⟩ :=
              refusesWithin_of_answer grounded ended starts first
            exact ⟨stop, leads, place, [], _, _, .done _, goesOn, levels, inside⟩
        | accepted statement cursor' =>
            simp only [first] at refused
            obtain ⟨step, read⟩ := readsWithin_of_answer grounded ended starts first
            obtain ⟨stop, leads, place, later⟩ := ih (ended.of_leads step) refused
            have row : ReadsRow tables cursor.ahead [statement] cursor'.ahead :=
              .more goesOn ⟨levels, read⟩ (.done _)
            exact ⟨stop, step.trans leads, place, row.refusesProgram later⟩
      · simp [more] at refused

/-- The reader follows a row to the statement behind it, and keeps the row. -/
theorem exists_readStatements_of_row {token : Token} {rest : List Token}
    (row : ReadsRow tables ahead body (token :: rest)) (goesOn : token.kind ≠ .endOfInput)
    (refused : Phrase.Refuses tables .statement (token :: rest) cause stop) (some : stop ≠ [])
    (index : Nat) :
    ∃ levels, readStatements tables levels (.facing index ahead) =
      ⟨body, .refused ⟨cause, .token (index + (ahead.length - stop.length))⟩⟩ := by
  generalize behind : token :: rest = left at row
  induction row generalizing index with
  | done ahead =>
      subst behind
      obtain ⟨levels, refused⟩ := refused
      obtain ⟨cursor', answered⟩ := answer_of_refusesWithin refused some index
      have more : (Cursor.facing index (token :: rest)).hasMore = true := by
        simp [Cursor.hasMore, Cursor.facing, Cursor.kind, goesOn]
      exact ⟨levels + 1, by simp only [readStatements, more, if_true, answered]⟩
  | @more token' rest' middle left statement body goesOn' read others ih =>
      obtain ⟨levels, read⟩ := read
      have short := refused.suffix.trans (behind ▸ others.suffix)
      have length := short.length_le
      have length' := read.suffix.length_le
      have middle_ne : middle ≠ [] := short.ne_nil some
      obtain ⟨levels', later⟩ := ih (index + ((token' :: rest').length - middle.length)) behind
      have place : index + ((token' :: rest').length - middle.length) +
          (middle.length - stop.length) = index + ((token' :: rest').length - stop.length) := by
        omega
      rw [place] at later
      refine ⟨max levels levels' + 1, ?_⟩
      have more : (Cursor.facing index (token' :: rest')).hasMore = true := by
        simp [Cursor.hasMore, Cursor.facing, Cursor.kind, goesOn']
      have first :=
        answer_of_readsWithin (read.mono (Nat.le_max_left levels levels')) middle_ne index
      have settled := readStatements_of_le (by rw [later]; simp) (Nat.le_max_right levels levels')
      simp only [readStatements, more, if_true, first, settled, later]

/-- A program whose statements are a row in front of a statement that is refused: the row is
what was read of it. -/
theorem readProgram_of_row (grounded : tables.Grounded) {tokens before rest : List Token}
    {token : Token} (stream : Cursor.closeStream tokens = before ++ stop)
    (row : ReadsRow tables (Cursor.closeStream tokens) body (token :: rest))
    (goesOn : token.kind ≠ .endOfInput)
    (refused : Phrase.Refuses tables .statement (token :: rest) cause stop) (some : stop ≠ []) :
    readProgram tables tokens = ⟨body, .refused ⟨cause, .token before.length⟩⟩ := by
  obtain ⟨levels, later⟩ := exists_readStatements_of_row row goesOn refused some 0
  have index : 0 + ((Cursor.closeStream tokens).length - stop.length) = before.length := by
    simp [stream]
  rw [← Cursor.start_eq_facing, index] at later
  rw [← readStatements_eq_readProgram grounded (by rw [later]; simp), later]

/-- What is refused as a program is refused for a statement behind a row of others, and points
at a token of the stream. -/
theorem parseWith_eq_refused_iff (grounded : tables.Grounded) {tokens : List Token}
    {diagnostic : Diagnostic} :
    parseWith tables tokens = .refused diagnostic ↔
      ∃ before stop, Cursor.closeStream tokens = before ++ stop ∧ stop ≠ [] ∧
        diagnostic.place = .token before.length ∧
        RefusesProgram tables (before ++ stop) diagnostic.cause stop := by
  have stream := Cursor.closeStream_ne_nil tokens
  have ended := Cursor.start_ended tokens
  have front : (Cursor.start tokens).ahead = Cursor.closeStream tokens := by
    rw [Cursor.start_eq_facing, Cursor.ahead_facing stream]
  constructor
  · intro refused
    have ending := Progress.verdict_eq_refused_iff.mp refused
    obtain ⟨stop, ⟨⟨before, whole⟩, count⟩, place, inside⟩ :=
      refusesProgram_of_readStatements grounded ended ending
    have index : stop.index = before.length := by
      have start : (Cursor.start tokens).index = 0 := by
        rw [Cursor.start_eq_facing, Cursor.index_facing]
      have lengths := congrArg List.length whole
      simp only [Cursor.ahead, List.length_append, List.length_cons] at lengths
      omega
    rw [front] at whole inside
    refine ⟨before, stop.ahead, whole.symm, List.cons_ne_nil _ _, by rw [place, index], ?_⟩
    rw [whole]
    exact inside
  · rintro ⟨before, stop, whole, some, place, body, token, rest, row, goesOn, refused⟩
    have progress := readProgram_of_row grounded whole (whole ▸ row) goesOn refused some
    refine Progress.verdict_eq_refused_iff.mpr ?_
    rw [progress, ← place]

end ScriptReader
