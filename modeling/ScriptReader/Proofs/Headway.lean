/- # ScriptReader.Proofs.Headway — reading moves on, and it ends

Under grounded tables an answer is a reading (`readsWithin_of_answer`), so the
cursor stays on the stream; a rule that accepts has moved it on
(`Recipe.forward_of_run`). A phrase that is asked for has fewer tokens ahead than
the one that asks for it, or a smaller rank, so three levels for each token ahead
settle every answer (`answer_settles`) and every program
(`readStatements_settles`).
-/
import ScriptReader.Proofs.Opening
import ScriptReader.Proofs.Reading
import ScriptReader.Program

namespace ScriptReader

set_option autoImplicit false

/-! ## Places of a stream that ends -/

namespace Cursor

/-- The last token of the stream is the end of input. -/
def Ended (cursor : Cursor) : Prop :=
  cursor.ahead.getLast?.map Token.kind = some .endOfInput

/-- The second cursor stands on the same stream, not before the first. -/
def Leads (cursor cursor' : Cursor) : Prop :=
  cursor'.ahead <:+ cursor.ahead ∧
    cursor'.index + cursor'.rest.length = cursor.index + cursor.rest.length

theorem Leads.refl (cursor : Cursor) : cursor.Leads cursor := ⟨List.suffix_rfl, rfl⟩

theorem Leads.trans {first second third : Cursor} (near : first.Leads second)
    (far : second.Leads third) : first.Leads third :=
  ⟨far.1.trans near.1, far.2.trans near.2⟩

theorem Leads.rest_length_le {cursor cursor' : Cursor} (leads : cursor.Leads cursor') :
    cursor'.rest.length ≤ cursor.rest.length := by
  have length := leads.1.length_le
  simpa [ahead] using length

theorem Ended.of_leads {cursor cursor' : Cursor} (ended : cursor.Ended)
    (leads : cursor.Leads cursor') : cursor'.Ended := by
  obtain ⟨before, same⟩ := leads.1
  unfold Ended at ended ⊢
  rw [← same, List.getLast?_append] at ended
  simpa [ahead] using ended

theorem closeStream_ended (tokens : List Token) :
    (closeStream tokens).getLast?.map Token.kind = some .endOfInput := by
  unfold closeStream
  split
  · assumption
  · simp [Token.endOfInput]

theorem closeStream_ne_nil (tokens : List Token) : closeStream tokens ≠ [] := by
  intro empty
  have ended := closeStream_ended tokens
  simp [empty] at ended

theorem start_ended (tokens : List Token) : (start tokens).Ended := by
  rw [start_eq_facing, Ended, ahead_facing (closeStream_ne_nil tokens)]
  exact closeStream_ended tokens

/-- In front of any other token than the end of input there is a next one. -/
theorem next_of_kind_ne {cursor : Cursor} (ended : cursor.Ended)
    (open' : cursor.kind ≠ .endOfInput) :
    cursor.ahead = cursor.current :: cursor.next.ahead ∧ cursor.Leads cursor.next ∧
      cursor.next.rest.length + 1 = cursor.rest.length := by
  obtain ⟨index, current, rest⟩ := cursor
  cases rest with
  | nil =>
      have last : current.kind = .endOfInput := by simpa [Ended, ahead] using ended
      exact absurd last open'
  | cons following rest =>
      refine ⟨rfl, ⟨List.suffix_cons _ _, ?_⟩, rfl⟩
      simp only [next, List.length_cons]
      omega

end Cursor

/-! ## Answers are readings -/

/-- What comes of a careful recipe was read from the tokens ahead, and the cursor stands on
what is left of them. -/
theorem Recipe.reads_of_run {α : Type} {readings : Readings}
    {answer : (phrase : Phrase) → Cursor → Outcome phrase.Value}
    (answers : ∀ phrase cursor value cursor', cursor.Ended → phrase.StartsAt cursor.current →
      answer phrase cursor = .accepted value cursor' →
        cursor.Leads cursor' ∧ readings phrase cursor.ahead value cursor'.ahead)
    {recipe : Recipe α} {cursor cursor' : Cursor} {result : α} (ended : cursor.Ended)
    (careful : recipe.Careful cursor.current)
    (ran : recipe.run answer cursor = .accepted result cursor') :
    cursor.Leads cursor' ∧ recipe.Reads readings cursor.ahead result cursor'.ahead := by
  induction recipe generalizing cursor with
  | yield value =>
      cases ran
      exact ⟨.refl _, rfl, rfl⟩
  | refuse cause => cases ran
  | peek next ih =>
      obtain ⟨leads, read⟩ := ih _ ended careful ran
      exact ⟨leads, _, _, rfl, read⟩
  | readToken fault next ih =>
      obtain ⟨open', careful⟩ := careful
      obtain ⟨ahead, step, -⟩ := Cursor.next_of_kind_ne ended open'
      simp only [run_readToken] at ran
      cases sound : fault cursor.current with
      | some cause => simp [sound] at ran
      | none =>
          rw [sound] at ran
          obtain ⟨leads, read⟩ := ih _ (ended.of_leads step) (careful _) ran
          exact ⟨step.trans leads, _, _, ahead, sound, read⟩
  | readPhrase phrase fault next ih =>
      obtain ⟨starts, careful⟩ := careful
      simp only [run_readPhrase] at ran
      cases inner : answer phrase cursor with
      | refused diagnostic cursor'' => simp [inner] at ran
      | exhausted => simp [inner] at ran
      | accepted value cursor'' =>
          obtain ⟨step, first⟩ := answers _ _ _ _ ended starts inner
          simp only [inner] at ran
          cases sound : fault value with
          | some cause => simp [sound] at ran
          | none =>
              rw [sound] at ran
              obtain ⟨leads, read⟩ := ih _ (ended.of_leads step) (careful _ _) ran
              exact ⟨step.trans leads, _, _, first, sound, read⟩

theorem readsWithin_of_answer {tables : Tables} (grounded : tables.Grounded) {levels : Nat}
    {phrase : Phrase} {cursor cursor' : Cursor} {value : phrase.Value} (ended : cursor.Ended)
    (starts : phrase.StartsAt cursor.current)
    (answered : answer tables levels phrase cursor = .accepted value cursor') :
    cursor.Leads cursor' ∧
      Phrase.ReadsWithin tables levels phrase cursor.ahead value cursor'.ahead := by
  induction levels generalizing phrase cursor cursor' with
  | zero => cases answered
  | succ levels ih =>
      exact Recipe.reads_of_run (fun _ _ _ _ ended starts inner => ih ended starts inner) ended
        (phrase.careful grounded starts) answered

/-! ## What has to be read is read -/

theorem Recipe.Reads.length_le {α : Type} {readings : Readings}
    (suffix : ∀ phrase ahead value left, readings phrase ahead value left → left <:+ ahead)
    (advances : ∀ phrase current behind value left, phrase.advances = true →
      readings phrase (current :: behind) value left → left.length ≤ behind.length)
    {recipe : Recipe α} {rank : Nat} {current : Token} {behind left : List Token} {result : α}
    (opens : recipe.Opens false rank current)
    (read : recipe.Reads readings (current :: behind) result left) :
    left.length ≤ behind.length := by
  induction recipe with
  | yield value => cases opens
  | refuse cause => exact read.elim
  | peek next ih => exact ih current opens (reads_peek.mp read)
  | readToken fault next ih =>
      obtain ⟨token, rest, same, -, read⟩ := read
      cases same
      exact (read.suffix suffix).length_le
  | readPhrase phrase fault next ih =>
      obtain ⟨value, middle, inner, -, read⟩ := read
      exact Nat.le_trans (read.suffix suffix).length_le (advances _ _ _ _ _ opens.2 inner)

theorem Phrase.ReadsWithin.length_le {tables : Tables} (grounded : tables.Grounded)
    {levels : Nat} {phrase : Phrase} (advances : phrase.advances = true) {current : Token}
    {behind left : List Token} {value : phrase.Value}
    (read : Phrase.ReadsWithin tables levels phrase (current :: behind) value left) :
    left.length ≤ behind.length := by
  induction levels generalizing phrase current behind left with
  | zero => exact read.elim
  | succ levels ih =>
      have opens := phrase.opens grounded current
      rw [advances] at opens
      exact Recipe.Reads.length_le (fun _ _ _ _ inner => inner.suffix)
        (fun _ _ _ _ _ advances inner => ih advances inner) opens read

/-- A rule that is carried out in front of its token, and accepts, has moved the cursor on. -/
theorem Recipe.forward_of_run {α : Type} {tables : Tables} (grounded : tables.Grounded)
    {levels rank : Nat} {recipe : Recipe α} {cursor cursor' : Cursor} {result : α}
    (ended : cursor.Ended) (careful : recipe.Careful cursor.current)
    (opens : recipe.Opens false rank cursor.current)
    (ran : recipe.run (answer tables levels) cursor = .accepted result cursor') :
    cursor.Leads cursor' ∧ cursor.index < cursor'.index := by
  obtain ⟨leads, read⟩ := Recipe.reads_of_run
    (fun _ _ _ _ ended starts inner => readsWithin_of_answer grounded ended starts inner)
    ended careful ran
  have short := Recipe.Reads.length_le (fun _ _ _ _ inner => inner.suffix)
    (fun _ _ _ _ _ advances inner => Phrase.ReadsWithin.length_le grounded advances inner)
    opens read
  have total := leads.2
  simp only [Cursor.ahead, List.length_cons] at short
  exact ⟨leads, by omega⟩

/-! ## Levels suffice -/

/-- Behind the first token read, every phrase may be asked for. -/
theorem Recipe.run_settles_of_careful {α : Type} {levels : Nat}
    {answer : (phrase : Phrase) → Cursor → Outcome phrase.Value}
    (stays : ∀ phrase cursor value cursor', cursor.Ended → phrase.StartsAt cursor.current →
      answer phrase cursor = .accepted value cursor' → cursor.Leads cursor')
    (settles : ∀ phrase cursor, cursor.Ended → phrase.StartsAt cursor.current →
      3 * cursor.rest.length + phrase.rank < levels → answer phrase cursor ≠ .exhausted)
    {recipe : Recipe α} {cursor : Cursor} (ended : cursor.Ended)
    (careful : recipe.Careful cursor.current) (few : 3 * cursor.rest.length + 2 < levels) :
    recipe.run answer cursor ≠ .exhausted := by
  induction recipe generalizing cursor with
  | yield value => simp [run]
  | refuse cause => simp [run]
  | peek next ih => exact ih _ ended careful few
  | readToken fault next ih =>
      obtain ⟨open', careful⟩ := careful
      obtain ⟨-, step, count⟩ := Cursor.next_of_kind_ne ended open'
      simp only [run_readToken]
      split
      · simp
      · exact ih _ (ended.of_leads step) (careful _) (by omega)
  | readPhrase phrase fault next ih =>
      obtain ⟨starts, careful⟩ := careful
      have rank := phrase.rank_le
      simp only [run_readPhrase]
      cases inner : answer phrase cursor with
      | exhausted => exact absurd inner (settles _ _ ended starts (by omega))
      | refused diagnostic cursor' => simp
      | accepted value cursor' =>
          have step := stays _ _ _ _ ended starts inner
          have count := step.rest_length_le
          dsimp only
          split
          · simp
          · exact ih _ (ended.of_leads step) (careful _ _) (by omega)

/-- Before a token is read, phrases of smaller rank may be asked for. -/
theorem Recipe.run_settles_of_opens {α : Type} {levels rank : Nat} {idle : Bool}
    {answer : (phrase : Phrase) → Cursor → Outcome phrase.Value}
    (stays : ∀ phrase cursor value cursor', cursor.Ended → phrase.StartsAt cursor.current →
      answer phrase cursor = .accepted value cursor' → cursor.Leads cursor')
    (advances : ∀ phrase cursor value cursor', cursor.Ended → phrase.StartsAt cursor.current →
      phrase.advances = true → answer phrase cursor = .accepted value cursor' →
        cursor'.rest.length < cursor.rest.length)
    (settles : ∀ phrase cursor, cursor.Ended → phrase.StartsAt cursor.current →
      3 * cursor.rest.length + phrase.rank < levels → answer phrase cursor ≠ .exhausted)
    {recipe : Recipe α} {cursor : Cursor} (ended : cursor.Ended)
    (careful : recipe.Careful cursor.current) (opens : recipe.Opens idle rank cursor.current)
    (few : 3 * cursor.rest.length + rank ≤ levels) :
    recipe.run answer cursor ≠ .exhausted := by
  induction recipe with
  | yield value => simp [run]
  | refuse cause => simp [run]
  | peek next ih => exact ih _ careful opens
  | readToken fault next ih =>
      obtain ⟨open', careful⟩ := careful
      obtain ⟨-, step, count⟩ := Cursor.next_of_kind_ne ended open'
      simp only [run_readToken]
      split
      · simp
      · exact run_settles_of_careful stays settles (ended.of_leads step) (careful _) (by omega)
  | readPhrase phrase fault next ih =>
      obtain ⟨starts, careful⟩ := careful
      obtain ⟨smaller, reads⟩ := opens
      simp only [run_readPhrase]
      cases inner : answer phrase cursor with
      | exhausted => exact absurd inner (settles _ _ ended starts (by omega))
      | refused diagnostic cursor' => simp
      | accepted value cursor' =>
          have step := stays _ _ _ _ ended starts inner
          have count := advances _ _ _ _ ended starts reads inner
          dsimp only
          split
          · simp
          · exact run_settles_of_careful stays settles (ended.of_leads step) (careful _ _)
              (by omega)

section Grounded

variable {tables : Tables} (grounded : tables.Grounded)
include grounded

theorem rest_length_lt_of_answer {levels : Nat} {phrase : Phrase} {cursor cursor' : Cursor}
    {value : phrase.Value} (ended : cursor.Ended) (starts : phrase.StartsAt cursor.current)
    (advances : phrase.advances = true)
    (answered : answer tables levels phrase cursor = .accepted value cursor') :
    cursor'.rest.length < cursor.rest.length := by
  obtain ⟨-, read⟩ := readsWithin_of_answer grounded ended starts answered
  exact Phrase.ReadsWithin.length_le grounded advances read

/-- Three levels for each token ahead settle the answer to a phrase. -/
theorem answer_settles {levels : Nat} {phrase : Phrase} {cursor : Cursor} (ended : cursor.Ended)
    (starts : phrase.StartsAt cursor.current)
    (enough : 3 * cursor.rest.length + phrase.rank < levels) :
    answer tables levels phrase cursor ≠ .exhausted := by
  induction levels generalizing phrase cursor with
  | zero => omega
  | succ levels ih =>
      exact Recipe.run_settles_of_opens
        (fun _ _ _ _ ended starts inner => (readsWithin_of_answer grounded ended starts inner).1)
        (fun _ _ _ _ ended starts advances inner =>
          rest_length_lt_of_answer grounded ended starts advances inner)
        (fun _ _ ended starts enough => ih ended starts enough) ended
        (phrase.careful grounded starts) (phrase.opens grounded cursor.current) (by omega)

/-- Reading a program, too, takes three levels for each token ahead. -/
theorem readStatements_settles {levels : Nat} {cursor : Cursor} (ended : cursor.Ended)
    (enough : 3 * cursor.rest.length + 2 < levels) :
    (readStatements tables levels cursor).ending ≠ .exhausted := by
  induction levels generalizing cursor with
  | zero => omega
  | succ levels ih =>
      have starts : Phrase.statement.StartsAt cursor.current := trivial
      simp only [readStatements]
      split
      · cases first : answer tables levels .statement cursor with
        | exhausted =>
            exact absurd first (answer_settles grounded ended starts
              (by simp only [Phrase.rank]; omega))
        | refused diagnostic cursor' => simp
        | accepted statement cursor' =>
            obtain ⟨step, -⟩ := readsWithin_of_answer grounded ended starts first
            have count := rest_length_lt_of_answer grounded ended starts rfl first
            exact ih (ended.of_leads step) (by omega)
      · simp

end Grounded

/-- Progress that is not for want of levels stays the same with one more level. -/
theorem readStatements_succ_of_settled {tables : Tables} {levels : Nat} {cursor : Cursor}
    (settled : (readStatements tables levels cursor).ending ≠ .exhausted) :
    readStatements tables (levels + 1) cursor = readStatements tables levels cursor := by
  induction levels generalizing cursor with
  | zero => exact absurd rfl settled
  | succ levels ih =>
      rw [readStatements] at settled ⊢
      rw [readStatements]
      split
      · rename_i more
        simp only [more, if_true] at settled
        cases first : answer tables levels .statement cursor with
        | exhausted => simp [first] at settled
        | refused diagnostic cursor' =>
            rw [answer_succ_of_settled _ _ _ _ (by simp [first]), first]
        | accepted statement cursor' =>
            simp only [first] at settled
            rw [answer_succ_of_settled _ _ _ _ (by simp [first]), first]
            simp only [ih settled]
      · rfl

theorem readStatements_of_le {tables : Tables} {levels levels' : Nat} {cursor : Cursor}
    (settled : (readStatements tables levels cursor).ending ≠ .exhausted)
    (le : levels ≤ levels') :
    readStatements tables levels' cursor = readStatements tables levels cursor := by
  induction le with
  | refl => rfl
  | step _ ih =>
      rw [readStatements_succ_of_settled (by rw [ih]; exact settled), ih]

theorem budget_suffices (tokens : List Token) :
    3 * (Cursor.start tokens).rest.length + 2 < (Cursor.start tokens).budget := by
  unfold Cursor.budget
  omega

/-- The budget of a program settles its progress. -/
theorem readProgram_settles {tables : Tables} (grounded : tables.Grounded) (tokens : List Token) :
    (readProgram tables tokens).ending ≠ .exhausted :=
  readStatements_settles grounded (Cursor.start_ended tokens) (budget_suffices tokens)

/-- Any number of levels that settles a program gives the same progress as its budget. -/
theorem readStatements_eq_readProgram {tables : Tables} (grounded : tables.Grounded)
    {tokens : List Token} {levels : Nat}
    (settled : (readStatements tables levels (.start tokens)).ending ≠ .exhausted) :
    readStatements tables levels (.start tokens) = readProgram tables tokens := by
  have within := readProgram_settles grounded tokens
  have more := readStatements_of_le settled (Nat.le_max_left levels (Cursor.start tokens).budget)
  exact more.symm.trans (readStatements_of_le within (Nat.le_max_right _ _))

/-- Wherever the recipe is carried out and accepts, the cursor has moved on. -/
def Recipe.MovesOn {α : Type} (tables : Tables) (recipe : Recipe α) (cursor : Cursor) : Prop :=
  ∀ levels value cursor', recipe.run (answer tables levels) cursor = .accepted value cursor' →
    cursor.Leads cursor' ∧ cursor.index < cursor'.index

/-- **Reading ends, and every rule moves on.** The tables are those of the language or none,
with any admissible entries. Every program is settled within its budget, and more levels do
not change its progress; every rule that is carried out on a token of its own kind, anywhere
in any stream, and accepts, leaves the cursor further on in the stream. -/
theorem parseWith_settles_and_rules_move_on {base : Tables} {entries : List Entry}
    (start : base = .empty ∨ base = .language)
    (admissible : ∀ entry ∈ entries, entry.Admissible) :
    (∀ tokens, parseWith (base.extend entries) tokens ≠ .exhausted ∧
      ∀ levels, (Cursor.start tokens).budget ≤ levels →
        readStatements (base.extend entries) levels (.start tokens) =
          readProgram (base.extend entries) tokens) ∧
    ∀ tokens cursor, (Cursor.start tokens).Leads cursor →
      (∀ recipe, (base.extend entries).prefixRule cursor.kind = some recipe →
        recipe.MovesOn (base.extend entries) cursor) ∧
      (∀ recipe left power, (base.extend entries).infixRule cursor.kind = some recipe →
        (recipe left power).MovesOn (base.extend entries) cursor) ∧
      (∀ recipe, (base.extend entries).statementRule cursor.kind = some recipe →
        recipe.MovesOn (base.extend entries) cursor) ∧
      (∀ recipe, (base.extend entries).typePrefixRule cursor.kind = some recipe →
        recipe.MovesOn (base.extend entries) cursor) := by
  have grounded : (base.extend entries).Grounded := by
    rcases start with rfl | rfl
    · exact Tables.Grounded.empty.extend admissible
    · exact Tables.Grounded.language.extend admissible
  generalize base.extend entries = tables at grounded ⊢
  constructor
  · intro tokens
    have settled := readStatements_settles grounded (Cursor.start_ended tokens)
      (budget_suffices tokens)
    constructor
    · intro exhausted
      unfold parseWith Progress.verdict readProgram at exhausted
      split at exhausted
      · cases exhausted
      · cases exhausted
      · exact settled ‹_›
    · intro levels enough
      exact readStatements_of_le settled enough
  · intro tokens cursor leads
    have ended := (Cursor.start_ended tokens).of_leads leads
    refine ⟨?_, ?_, ?_, ?_⟩
    · intro recipe found levels value cursor' ran
      obtain ⟨rule, rfl⟩ := grounded.native.prefixRule found
      have open' : cursor.kind ≠ .endOfInput := by
        intro ends
        rw [ends, grounded.prefixRule] at found
        cases found
      exact Recipe.forward_of_run grounded ended (rule.careful open') (rule.opens _) ran
    · intro recipe left power found levels value cursor' ran
      obtain ⟨rule, rfl⟩ := grounded.native.infixRule found
      have open' : cursor.kind ≠ .endOfInput := by
        intro ends
        rw [ends, grounded.infixRule] at found
        cases found
      exact Recipe.forward_of_run grounded ended (rule.careful _ _ open') (rule.opens _ _ _) ran
    · intro recipe found levels value cursor' ran
      obtain ⟨rule, forward, rfl⟩ := grounded.forward found
      have open' : cursor.kind ≠ .endOfInput := by
        intro ends
        rw [ends, grounded.statementRule] at found
        cases found
      exact Recipe.forward_of_run grounded ended (rule.careful open') (rule.opens forward _) ran
    · intro recipe found levels value cursor' ran
      obtain ⟨rule, rfl⟩ := grounded.native.typePrefixRule found
      exact Recipe.forward_of_run grounded ended (rule.careful _) (rule.opens _) ran

/-- The language with a sign in front of terms: `+x;` is settled, and the sign moves on. -/
theorem signed_term_moves_on :
    parseWith (Tables.language.extend [.prefixForm .plus .operation])
        [⟨.plus, "+"⟩, ⟨.identifier, "x"⟩, ⟨.semicolon, ";"⟩] ≠ .exhausted ∧
      Recipe.operation.MovesOn (Tables.language.extend [.prefixForm .plus .operation])
        (.start [⟨.plus, "+"⟩, ⟨.identifier, "x"⟩, ⟨.semicolon, ";"⟩]) := by
  have admissible : ∀ entry ∈ [Entry.prefixForm .plus .operation], entry.Admissible := by decide
  have both := parseWith_settles_and_rules_move_on (.inr rfl) admissible
  exact ⟨(both.1 _).1, (both.2 _ _ (.refl _)).1 _ rfl⟩

end ScriptReader
