/- # ScriptReader.Proofs.Programs — programs as readings of their statements

A program is a row of statements in front of an end of input (`readsProgram_iff`), and
a stream is accepted under grounded tables exactly if it can be read as one
(`parseWith_eq_accepted_iff`). One direction follows the reader; the other finds levels at
which the reader follows the readings, and settled progress does not depend on levels.
-/
import ScriptReader.Proofs.Headway

namespace ScriptReader

set_option autoImplicit false

/-- Statements stand ahead, one behind the other, up to the end of input. -/
inductive ReadsProgram (tables : Tables) : List Token → List Statement → Prop
  | done {token : Token} {rest : List Token} (ends : token.kind = .endOfInput) :
      ReadsProgram tables (token :: rest) []
  | more {token : Token} {rest left : List Token} {statement : Statement}
      {body : List Statement} (goesOn : token.kind ≠ .endOfInput)
      (read : Phrase.Reads tables .statement (token :: rest) statement left)
      (others : ReadsProgram tables left body) :
      ReadsProgram tables (token :: rest) (statement :: body)

variable {tables : Tables}

theorem ReadsProgram.ne_nil {ahead : List Token} {body : List Statement}
    (reads : ReadsProgram tables ahead body) : ahead ≠ [] := by
  cases reads <;> simp

/-! ## Rows of statements -/

/-- Statements stand ahead, one behind the other; what is left of the stream may be anything. -/
inductive ReadsRow (tables : Tables) : List Token → List Statement → List Token → Prop
  | done (ahead : List Token) : ReadsRow tables ahead [] ahead
  | more {token : Token} {rest middle left : List Token} {statement : Statement}
      {body : List Statement} (goesOn : token.kind ≠ .endOfInput)
      (read : Phrase.Reads tables .statement (token :: rest) statement middle)
      (others : ReadsRow tables middle body left) :
      ReadsRow tables (token :: rest) (statement :: body) left

section Rows

variable {ahead middle left : List Token} {body others : List Statement}

theorem ReadsRow.suffix (row : ReadsRow tables ahead body left) : left <:+ ahead := by
  induction row with
  | done ahead => exact List.suffix_rfl
  | more _ read _ ih => exact ih.trans read.suffix

theorem ReadsRow.append (row : ReadsRow tables ahead body middle)
    (others' : ReadsRow tables middle others left) :
    ReadsRow tables ahead (body ++ others) left := by
  induction row with
  | done ahead => exact others'
  | more goesOn read _ ih => exact .more goesOn read (ih others')

theorem ReadsRow.readsProgram (row : ReadsRow tables ahead body middle)
    (reads : ReadsProgram tables middle others) : ReadsProgram tables ahead (body ++ others) := by
  induction row with
  | done ahead => exact reads
  | more goesOn read _ ih => exact .more goesOn read (ih reads)

/-- A program is a row of statements in front of an end of input. -/
theorem readsProgram_iff : ReadsProgram tables ahead body ↔
    ∃ token rest, token.kind = .endOfInput ∧ ReadsRow tables ahead body (token :: rest) := by
  constructor
  · intro reads
    induction reads with
    | @done token rest ends => exact ⟨token, rest, ends, .done _⟩
    | more goesOn read _ ih =>
        obtain ⟨token, rest, ends, row⟩ := ih
        exact ⟨token, rest, ends, .more goesOn read row⟩
  · rintro ⟨token, rest, ends, row⟩
    simpa using row.readsProgram (.done ends)

end Rows

/-! ## Accepted programs -/

theorem readsProgram_of_readStatements (grounded : tables.Grounded) {levels : Nat}
    {cursor : Cursor} (ended : cursor.Ended)
    (complete : (readStatements tables levels cursor).ending = .complete) :
    ReadsProgram tables cursor.ahead (readStatements tables levels cursor).statements := by
  induction levels generalizing cursor with
  | zero => cases complete
  | succ levels ih =>
      rw [readStatements] at complete ⊢
      by_cases more : cursor.hasMore
      · have goesOn : cursor.kind ≠ .endOfInput := by simpa [Cursor.hasMore] using more
        simp only [more, if_true] at complete ⊢
        cases first : answer tables levels .statement cursor with
        | exhausted => simp [first] at complete
        | refused diagnostic cursor' => simp [first] at complete
        | accepted statement cursor' =>
            simp only [first] at complete
            have starts : Phrase.statement.StartsAt cursor.current := trivial
            obtain ⟨leads, read⟩ := readsWithin_of_answer grounded ended starts first
            exact .more goesOn ⟨levels, read⟩ (ih (ended.of_leads leads) complete)
      · have ends : cursor.kind = .endOfInput := by simpa [Cursor.hasMore] using more
        simp only [more, Bool.false_eq_true, if_false]
        exact .done ends

theorem exists_readStatements_of_readsProgram {ahead : List Token} {body : List Statement}
    (reads : ReadsProgram tables ahead body) (index : Nat) :
    ∃ levels, readStatements tables levels (.facing index ahead) = ⟨body, .complete⟩ := by
  induction reads generalizing index with
  | @done token rest ends =>
      refine ⟨1, ?_⟩
      have none : (Cursor.facing index (token :: rest)).hasMore = false := by
        simp [Cursor.hasMore, Cursor.facing, Cursor.kind, ends]
      simp [readStatements, none]
  | @more token rest left statement body goesOn read others ih =>
      obtain ⟨levels, read⟩ := read
      obtain ⟨levels', later⟩ := ih (index + ((token :: rest).length - left.length))
      refine ⟨max levels levels' + 1, ?_⟩
      have some : (Cursor.facing index (token :: rest)).hasMore = true := by
        simp [Cursor.hasMore, Cursor.facing, Cursor.kind, goesOn]
      have first := answer_of_readsWithin (read.mono (Nat.le_max_left levels levels'))
        others.ne_nil index
      have others' : readStatements tables (max levels levels')
          (.facing (index + ((token :: rest).length - left.length)) left) = ⟨body, .complete⟩ := by
        rw [readStatements_of_le (by rw [later]; simp) (Nat.le_max_right levels levels'), later]
      simp only [readStatements, some, if_true, first, others']

/-- What can be read as a program is accepted, and nothing else is. -/
theorem parseWith_eq_accepted_iff (grounded : tables.Grounded) {tokens : List Token}
    {body : List Statement} :
    parseWith tables tokens = .accepted body ↔
      ReadsProgram tables (Cursor.closeStream tokens) body := by
  have stream := Cursor.closeStream_ne_nil tokens
  have ended := Cursor.start_ended tokens
  constructor
  · intro accepted
    have progress := Progress.verdict_eq_accepted_iff.mp accepted
    have complete : (readProgram tables tokens).ending = .complete := by rw [progress]
    have reads := readsProgram_of_readStatements grounded ended complete
    rw [Cursor.start_eq_facing, Cursor.ahead_facing stream, ← Cursor.start_eq_facing] at reads
    rw [readProgram] at progress
    rwa [progress] at reads
  · intro reads
    obtain ⟨levels, later⟩ := exists_readStatements_of_readsProgram reads 0
    rw [← Cursor.start_eq_facing] at later
    have settled := readStatements_eq_readProgram grounded (by rw [later]; simp)
    exact Progress.verdict_eq_accepted_iff.mpr (settled.symm.trans later)

end ScriptReader
