/- # ScriptReader.Proofs.Acceptance — the language is the grammar's

A stream is accepted as a program of the language exactly if the tokens in front of
the first end of input are a program of the grammar (`parse_accepts_iff_derives`).
Soundness and completeness are proved of single phrases; here statements are put
one behind the other.
-/
import Mathlib.Data.List.TakeWhile
import ScriptReader.Proofs.Completeness
import ScriptReader.Proofs.Programs
import ScriptReader.Proofs.Soundness

namespace ScriptReader

set_option autoImplicit false

/-- The tokens in front of the first end of input. -/
def beforeEnd (tokens : List Token) : List Token :=
  tokens.takeWhile fun token => token.kind ≠ .endOfInput

theorem beforeEnd_append {spent rest : List Token} {token : Token}
    (goesOn : ∀ token ∈ spent, token.kind ≠ .endOfInput) (ends : token.kind = .endOfInput) :
    beforeEnd (spent ++ token :: rest) = spent := by
  unfold beforeEnd
  rw [List.takeWhile_append_of_pos (by simpa using goesOn)]
  simp [ends]

theorem closeStream_of_endless {tokens : List Token}
    (goesOn : ∀ token ∈ tokens, token.kind ≠ .endOfInput) :
    Cursor.closeStream tokens = tokens ++ [.endOfInput] := by
  unfold Cursor.closeStream
  rw [if_neg]
  intro last
  obtain ⟨token, found, ends⟩ := Option.map_eq_some_iff.mp last
  exact goesOn token (List.mem_of_getLast? found) ends

/-- The stream that is read has an end of input behind the tokens in front of the first. -/
theorem closeStream_eq_append (tokens : List Token) :
    ∃ token rest, token.kind = .endOfInput ∧
      Cursor.closeStream tokens = beforeEnd tokens ++ token :: rest := by
  have parts : beforeEnd tokens ++ tokens.dropWhile (fun token => token.kind ≠ .endOfInput) = tokens :=
    List.takeWhile_append_dropWhile
  cases behind : tokens.dropWhile (fun token => token.kind ≠ .endOfInput) with
  | cons token rest =>
      have ends : token.kind = .endOfInput := by
        have head := List.head?_dropWhile_not (fun token : Token => token.kind ≠ .endOfInput) tokens
        rw [behind] at head
        simpa using head
      rw [behind] at parts
      unfold Cursor.closeStream
      split
      · exact ⟨token, rest, ends, parts.symm⟩
      · refine ⟨token, rest ++ [.endOfInput], ends, ?_⟩
        calc
          tokens ++ [Token.endOfInput] = (beforeEnd tokens ++ token :: rest) ++ [.endOfInput] := by
            rw [parts]
          _ = beforeEnd tokens ++ token :: (rest ++ [.endOfInput]) := by simp
  | nil =>
      rw [behind, List.append_nil] at parts
      have goesOn : ∀ token ∈ tokens, token.kind ≠ .endOfInput := by
        simpa using List.dropWhile_eq_nil_iff.mp behind
      refine ⟨.endOfInput, [], rfl, ?_⟩
      rw [parts, closeStream_of_endless goesOn]

/-! ## Statements behind one another -/

theorem covers_of_readsRow {ahead left : List Token} {body : List Statement}
    (row : ReadsRow .language ahead body left) : Covers .program ahead left := by
  induction row with
  | done ahead => exact covers_many.mpr .refl
  | more _ read _ ih => exact covers_many.mpr (.head read.derived (covers_many.mp ih))

theorem covers_of_readsProgram {ahead : List Token} {body : List Statement}
    (reads : ReadsProgram .language ahead body) :
    ∃ token rest, token.kind = .endOfInput ∧ Covers .program ahead (token :: rest) := by
  obtain ⟨token, rest, ends, row⟩ := readsProgram_iff.mp reads
  exact ⟨token, rest, ends, covers_of_readsRow row⟩

theorem ReadsProgram.endsStatement {ahead : List Token} {body : List Statement}
    (reads : ReadsProgram .language ahead body) : EndsStatement ahead := by
  cases reads with
  | done ends => exact ⟨_, _, rfl, by simp [ends]⟩
  | more goesOn read others => exact Phrase.endsStatement_of_reads read

theorem ReadsProgram.cons {ahead left : List Token} {statement : Statement} {body : List Statement}
    (read : Phrase.Reads .language .statement ahead statement left)
    (others : ReadsProgram .language left body) :
    ReadsProgram .language ahead (statement :: body) := by
  obtain ⟨first, behind, rfl, other⟩ := Phrase.exists_head_of_reads_statement read
  exact .more (TokenKind.ne_of_not_mem_endings other (by decide)) read others

theorem exists_readsProgram_of_steps {ahead rest : List Token} {token : Token}
    (ends : token.kind = .endOfInput)
    (steps : Relation.ReflTransGen ((Pattern.part .statement).Spells Readable) ahead
      (token :: rest)) :
    ∃ body, ReadsProgram .language ahead body := by
  induction steps using Relation.ReflTransGen.head_induction_on with
  | refl => exact ⟨[], .done ends⟩
  | head step _ ih =>
      obtain ⟨body, others⟩ := ih
      obtain ⟨statement, read⟩ := step others.endsStatement
      exact ⟨statement :: body, .cons read others⟩

/-! ## The theorem -/

/-- **The parser accepts exactly its grammar.** -/
theorem parse_accepts_iff_derives (tokens : List Token) :
    (∃ body, parse tokens = .accepted body) ↔ Derives .program (beforeEnd tokens) := by
  obtain ⟨token, rest, ends, stream⟩ := closeStream_eq_append tokens
  have front : ∀ first ∈ beforeEnd tokens, first.kind ≠ .endOfInput := by
    intro first member
    simpa using List.mem_takeWhile_imp member
  constructor
  · rintro ⟨body, accepted⟩
    have reads := (parseWith_eq_accepted_iff Tables.Grounded.language).mp accepted
    obtain ⟨token', rest', ends', spent, same, derives⟩ := covers_of_readsProgram reads
    have spentFront := derives.endless trivial
    -- Both are what stands in front of the first end of input of one stream.
    have both : beforeEnd tokens = spent := by
      rw [← beforeEnd_append spentFront ends', ← same, stream, beforeEnd_append front ends]
    rw [both]
    exact derives
  · intro derives
    have steps := derives.readable (token :: rest)
    rw [← stream] at steps
    obtain ⟨body, reads⟩ := exists_readsProgram_of_steps ends steps
    exact ⟨body, (parseWith_eq_accepted_iff Tables.Grounded.language).mpr reads⟩

end ScriptReader
