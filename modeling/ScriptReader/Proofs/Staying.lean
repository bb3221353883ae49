/- # ScriptReader.Proofs.Staying — the cursor stays on its stream

Whatever is read from a cursor, under any tables, by any recipe and with any number of
levels, the cursor that is left stands on the same stream and not in front of the one
that was given (`leads_of_cursor?`). That is so whether the reading was accepted or
refused, so nothing is asked of what went before.

`Cursor.StandsIn` says where a cursor stands: in front of a part of the stream, at the
index that counts the tokens before it.
-/
import ScriptReader.Proofs.Headway

namespace ScriptReader

set_option autoImplicit false

/-- The cursor that an outcome leaves, where there is an answer. -/
def Outcome.cursor? {α : Type} : Outcome α → Option Cursor
  | .accepted _ cursor | .refused _ cursor => some cursor
  | .exhausted => none

namespace Outcome

variable {α β : Type} {value : α} {diagnostic : Diagnostic} {cursor : Cursor}

@[simp] theorem cursor?_accepted : (accepted value cursor).cursor? = some cursor := rfl

@[simp] theorem cursor?_refused : (refused (α := α) diagnostic cursor).cursor? = some cursor := rfl

@[simp] theorem cursor?_exhausted : (exhausted : Outcome α).cursor? = none := rfl

@[simp] theorem cursor?_map (change : α → β) (outcome : Outcome α) :
    (outcome.map change).cursor? = outcome.cursor? := by
  cases outcome <;> rfl

end Outcome

namespace Cursor

variable {cursor cursor' : Cursor}

theorem leads_next (cursor : Cursor) : cursor.Leads cursor.next := by
  obtain ⟨index, current, rest⟩ := cursor
  cases rest with
  | nil => exact .refl _
  | cons following rest =>
      refine ⟨List.suffix_cons _ _, ?_⟩
      simp only [next, List.length_cons]
      omega

theorem Leads.index_le (leads : cursor.Leads cursor') : cursor.index ≤ cursor'.index := by
  have fewer := leads.rest_length_le
  have total := leads.2
  omega

theorem leads_of_expect {expected : TokenKind} {instead : Option Diagnostic}
    (ran : (cursor.expect expected instead).cursor? = some cursor') : cursor.Leads cursor' := by
  unfold expect at ran
  split at ran
  · cases ran
    exact cursor.leads_next
  · cases ran
    exact .refl _

/-- The cursor stands in the stream, behind the given tokens. -/
structure StandsIn (stream before : List Token) (cursor : Cursor) : Prop where
  stream_eq : stream = before ++ cursor.ahead
  index_eq : cursor.index = before.length

variable {stream before : List Token}

theorem standsIn_start (tokens : List Token) : (start tokens).StandsIn (closeStream tokens) [] := by
  rw [start_eq_facing]
  constructor
  · rw [ahead_facing (closeStream_ne_nil tokens), List.nil_append]
  · cases closeStream tokens <;> rfl

theorem StandsIn.of_leads (stands : cursor.StandsIn stream before) (leads : cursor.Leads cursor') :
    ∃ passed, cursor'.StandsIn stream (before ++ passed) := by
  obtain ⟨⟨passed, whole⟩, count⟩ := leads
  have lengths := congrArg List.length whole
  simp only [List.length_append, ahead, List.length_cons] at lengths
  have place := stands.index_eq
  refine ⟨passed, ?_, ?_⟩
  · rw [stands.stream_eq, ← whole, List.append_assoc]
  · rw [List.length_append]
    omega

theorem StandsIn.drop_index (stands : cursor.StandsIn stream before) :
    stream.drop cursor.index = cursor.ahead := by
  rw [stands.stream_eq, stands.index_eq, List.drop_left]

theorem StandsIn.index_lt (stands : cursor.StandsIn stream before) :
    cursor.index < stream.length := by
  rw [stands.stream_eq, stands.index_eq, List.length_append, ahead, List.length_cons]
  omega

/-- Wherever it is led from the start of a stream, it stands inside the stream, in front of what
the stream has from there on. -/
theorem Leads.inside {tokens : List Token} (leads : (start tokens).Leads cursor) :
    cursor.index < (closeStream tokens).length ∧
      (closeStream tokens).drop cursor.index = cursor.ahead := by
  obtain ⟨passed, stands⟩ := (standsIn_start tokens).of_leads leads
  exact ⟨stands.index_lt, stands.drop_index⟩

end Cursor

/-- Whatever the recipe, the cursor stays on the stream, if that is so for the phrases. -/
theorem Recipe.leads_of_run {α : Type}
    {answer : (phrase : Phrase) → Cursor → Outcome phrase.Value}
    (stays : ∀ phrase cursor cursor', (answer phrase cursor).cursor? = some cursor' →
      cursor.Leads cursor')
    {recipe : Recipe α} {cursor cursor' : Cursor}
    (ran : (recipe.run answer cursor).cursor? = some cursor') : cursor.Leads cursor' := by
  induction recipe generalizing cursor with
  | yield value | refuse cause =>
      cases ran
      exact .refl _
  | peek next ih => exact ih _ ran
  | readToken fault next ih =>
      rw [run_readToken] at ran
      split at ran
      · cases ran
        exact cursor.leads_next
      · exact cursor.leads_next.trans (ih _ ran)
  | readPhrase phrase fault next ih =>
      rw [run_readPhrase] at ran
      split at ran
      · rename_i value middle inner
        have step := stays phrase cursor middle (by rw [inner]; rfl)
        split at ran
        · cases ran
          exact step
        · exact step.trans (ih _ ran)
      · rename_i diagnostic middle inner
        cases ran
        exact stays phrase cursor cursor' (by rw [inner]; rfl)
      · cases ran

section Answers

variable {tables : Tables} {levels : Nat} {cursor cursor' : Cursor}

theorem leads_of_cursor? {phrase : Phrase}
    (answered : (answer tables levels phrase cursor).cursor? = some cursor') :
    cursor.Leads cursor' := by
  induction levels generalizing phrase cursor cursor' with
  | zero => cases answered
  | succ levels ih => exact Recipe.leads_of_run (fun _ _ _ inner => ih inner) answered

theorem leads_of_answer {phrase : Phrase} {value : phrase.Value}
    (answered : answer tables levels phrase cursor = .accepted value cursor') :
    cursor.Leads cursor' :=
  leads_of_cursor? (by rw [answered]; rfl)

end Answers

end ScriptReader
