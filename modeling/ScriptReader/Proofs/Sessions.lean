/- # ScriptReader.Proofs.Sessions — where the cursor of a session stands

Tasks can be carried out in any order, on any token, under any tables, and a refusal may
leave the cursor in the middle of something. Still the cursor never leaves the stream
that the session was started on, and never goes back (`sessions_stay_in_stream`).

`Session.read` gives every task the levels that suffice for the rules of the language,
and an infix task the operand that was read last. Here both are left open
(`Task.outcome`): with tables of one's own a task may need more levels before it
returns, and a rule may be carried out on any operand. `Session.read_eq_outcome` says that
sessions are a case of this, so their cursors stay, too (`Session.afterAll_inside`).
-/
import ScriptReader.Proofs.Staying
import ScriptReader.Session

namespace ScriptReader

set_option autoImplicit false

/-- What comes of a task on a cursor, with so many levels of nesting and the given left side
of infix tasks. -/
def Task.outcome (tables : Tables) (levels : Nat) (left : Expr) (cursor : Cursor) :
    Task → Outcome Reading
  | .take => .accepted (.token cursor.current) cursor.next
  | .expect kind instead => (cursor.expect kind instead).map .token
  | .expression least => (run (.expression least)).map .expression
  | .type least => (run (.type least)).map .type
  | .block => (run .block).map .body
  | .functionRest => (run .functionRest).map fun rest => .function rest.1 rest.2
  | .prefixForm rule => (run rule.recipe).map .expression
  | .infixForm rule power => (run (rule.recipe left power)).map .expression
  | .statement rule => (run rule.recipe).map .statement
  | .typePrefix rule => (run rule.recipe).map .type
where
  /-- Carry a recipe out from the cursor. -/
  run {α : Type} (recipe : Recipe α) : Outcome α := recipe.run (answer tables levels) cursor

/-- Tasks that are carried out one after the other lead from one cursor to another. Each of them
has returned, with however many levels and whatever left side; where it was refused, the next
task begins at the cursor that the refusal left. -/
inductive CarriesOut (tables : Tables) : Cursor → List Task → Cursor → Prop
  | done (cursor : Cursor) : CarriesOut tables cursor [] cursor
  | step {cursor middle last : Cursor} {task : Task} {tasks : List Task} (levels : Nat)
      (left : Expr) (returned : (task.outcome tables levels left cursor).cursor? = some middle)
      (others : CarriesOut tables middle tasks last) :
      CarriesOut tables cursor (task :: tasks) last

/-! ## Sessions carry tasks out -/

theorem Session.read_eq_outcome (session : Session) (task : Task) :
    session.read task =
      task.outcome session.tables session.cursor.budget session.left session.cursor := by
  cases task <;> rfl

theorem Session.cursor?_step {session : Session} {task : Task}
    (returned : (session.step task).1 ≠ .exhausted) :
    (session.step task).1.cursor? = some (session.step task).2.cursor := by
  unfold step after at returned ⊢
  split
  · rename_i left cursor read
    rw [read]
    rfl
  · rename_i reading cursor other read
    rw [read]
    rfl
  · rename_i diagnostic cursor read
    rw [read]
    rfl
  · rename_i read
    exact absurd read returned

/-- A step of a session that returns is a task carried out. -/
theorem Session.carriesOut_step {session : Session} {task : Task}
    (returned : (session.step task).1 ≠ .exhausted) :
    CarriesOut session.tables session.cursor [task] (session.step task).2.cursor := by
  have left := Session.cursor?_step returned
  unfold step at left
  rw [Session.read_eq_outcome] at left
  exact .step _ _ left (.done _)

/-! ## The cursor stays -/

section Stays

variable {tables : Tables} {cursor cursor' : Cursor}

theorem leads_of_outcome {task : Task} {levels : Nat} {left : Expr}
    (returned : (task.outcome tables levels left cursor).cursor? = some cursor') :
    cursor.Leads cursor' := by
  have leads : ∀ {α : Type} {recipe : Recipe α},
      (Task.outcome.run tables levels cursor recipe).cursor? = some cursor' →
        cursor.Leads cursor' :=
    fun ran => Recipe.leads_of_run (fun _ _ _ inner => leads_of_cursor? inner) ran
  cases task with
  | take =>
      cases returned
      exact cursor.leads_next
  | expect kind instead => exact Cursor.leads_of_expect (by simpa [Task.outcome] using returned)
  | expression | type | block | functionRest | prefixForm | infixForm | statement | typePrefix =>
      rw [Task.outcome, Outcome.cursor?_map] at returned
      exact leads returned

theorem CarriesOut.leads {tasks : List Task} (carried : CarriesOut tables cursor tasks cursor') :
    cursor.Leads cursor' := by
  induction carried with
  | done cursor => exact .refl _
  | step levels left returned _ ih => exact (leads_of_outcome returned).trans ih

/-- The session after some tasks, one after the other. -/
def Session.afterAll (session : Session) : List Task → Session
  | [] => session
  | task :: tasks => (session.step task).2.afterAll tasks

/-- A step that has not returned leaves the session as it was. -/
theorem Session.leads_step (session : Session) (task : Task) :
    session.cursor.Leads (session.step task).2.cursor := by
  by_cases returned : (session.step task).1 = .exhausted
  · have same : (session.step task).2 = session := by
      unfold step at returned ⊢
      dsimp only at returned ⊢
      rw [returned]
      rfl
    rw [same]
    exact .refl _
  · exact (carriesOut_step returned).leads

theorem Session.leads_afterAll (session : Session) (tasks : List Task) :
    session.cursor.Leads (session.afterAll tasks).cursor := by
  induction tasks generalizing session with
  | nil => exact .refl _
  | cons task tasks ih => exact (session.leads_step task).trans (ih _)

/-- Whatever a session does, returned or not, its cursor stays inside the stream that it was
started on, and what it does next never leads it back. -/
theorem Session.afterAll_inside (tables : Tables) (tokens : List Token) (earlier later : List Task) :
    let session := (Session.start tables tokens).afterAll earlier
    let session' := session.afterAll later
    session.cursor.index ≤ session'.cursor.index ∧
      session'.cursor.index < (Cursor.closeStream tokens).length ∧
      (Cursor.closeStream tokens).drop session'.cursor.index = session'.cursor.ahead := by
  intro session session'
  have reached : (Cursor.start tokens).Leads session.cursor := Session.leads_afterAll _ earlier
  have onward : session.cursor.Leads session'.cursor := session.leads_afterAll later
  exact ⟨onward.index_le, (reached.trans onward).inside⟩

/-- **In any session the cursor stays in the stream.** The tables are any, and so are the tokens,
none included. The stream that was fixed at the start ends with an end of input. Whatever tasks
were carried out, the cursor stands at an index inside this stream, in front of what the stream
has from there on; whatever tasks are carried out next, the index does not go down; and an
expected token that is refused, for the usual reason or for a given one, leaves the cursor where
it was. -/
theorem sessions_stay_in_stream {tokens : List Token} {earlier later : List Task}
    (reached : CarriesOut tables (.start tokens) earlier cursor)
    (onward : CarriesOut tables cursor later cursor') :
    (Cursor.closeStream tokens).getLast?.map Token.kind = some .endOfInput ∧
      cursor.index ≤ cursor'.index ∧
      cursor'.index < (Cursor.closeStream tokens).length ∧
      (Cursor.closeStream tokens).drop cursor'.index = cursor'.ahead ∧
      ∀ kind instead diagnostic stop,
        cursor'.expect kind instead = .refused diagnostic stop → stop = cursor' := by
  obtain ⟨inside, ahead⟩ := (reached.leads.trans onward.leads).inside
  refine ⟨Cursor.closeStream_ended tokens, onward.leads.index_le, inside, ahead, ?_⟩
  intro kind instead diagnostic stop refused
  unfold Cursor.expect at refused
  split at refused
  · cases refused
  · cases refused
    rfl

/-- A creation that turns out to be no call, and behind its refusal a token that is missing, the
last token taken twice, and a sign carried out at the end of input. -/
theorem refused_creation_stays_in_stream :
    let tokens : List Token := [⟨.newWord, "new"⟩, ⟨.identifier, "x"⟩]
    let last : Cursor := ⟨2, .endOfInput, []⟩
    CarriesOut .language (.start tokens) [.prefixForm .creation, .expect .semicolon none] last ∧
      CarriesOut .language last [.take, .take, .prefixForm .operation] last ∧
      last.index < (Cursor.closeStream tokens).length ∧
      (Cursor.closeStream tokens).drop last.index = last.ahead := by
  intro tokens last
  have reached : CarriesOut .language (.start tokens)
      [.prefixForm .creation, .expect .semicolon none] last :=
    .step 8 (.symbol "x") (by cbv) (.step 0 (.symbol "x") (by cbv) (.done _))
  have onward : CarriesOut .language last [.take, .take, .prefixForm .operation] last :=
    .step 0 (.symbol "x") (by cbv) (.step 0 (.symbol "x") (by cbv)
      (.step 8 (.symbol "x") (by cbv) (.done _)))
  obtain ⟨-, -, inside, ahead, -⟩ := sessions_stay_in_stream reached onward
  exact ⟨reached, onward, inside, ahead⟩

end Stays

end ScriptReader
