/- # ScriptReader.Proofs.Misspelling — where and why a text is refused

A text is refused at the first place where no step can be made: what stands before
that place is a text that is accepted, and the offset and the line count its bytes
and its line feeds. The cause is told by what is written there. `Misspelt` says
which cause that is: a quote that nothing closes, a numeral that runs into a word,
or else a character that no rule begins with.
-/
import ScriptReader.Proofs.Scanning

namespace ScriptReader

set_option autoImplicit false

namespace Lexeme

open Text (EndsRun endsRun_nil endsRun_cons takeWhile_run exists_run)

variable {text rest lexeme : List Char}

/-! ## What can be misspelt -/

/-- The text begins with a quote that nothing closes. -/
def OpenQuote (text : List Char) : Prop := ∃ rest, text = '"' :: rest ∧ '"' ∉ rest

/-- The text begins with a numeral and a word without anything between them: the longest
numeral, and the whole run of word characters behind it, of which the first is no digit. -/
structure RunsIntoWord (numeral word rest : List Char) : Prop where
  longest : LongestNumeral numeral (word ++ rest)
  isName : IsName word
  ends : EndsRun continuesWord rest

/-- What is wrong at the beginning of a text. -/
inductive Misspelt : List Char → Cause → Prop
  | openQuote {text : List Char} (opens : OpenQuote text) : Misspelt text .unterminatedText
  | runsIntoWord {numeral word rest : List Char} (runs : RunsIntoWord numeral word rest) :
      Misspelt (numeral ++ word ++ rest) (.malformedNumber (String.ofList (numeral ++ word)))
  | unknown {c : Char} {rest : List Char} (noQuote : ¬ OpenQuote (c :: rest))
      (noNumber : ∀ numeral word behind, RunsIntoWord numeral word behind →
        c :: rest ≠ numeral ++ word ++ behind) :
      Misspelt (c :: rest) (.unrecognised (String.ofList [c]))

theorem Misspelt.stage_eq {cause : Cause} (misspelt : Misspelt text cause) :
    cause.stage = .scanning := by
  cases misspelt with
  | openQuote opens => rfl
  | runsIntoWord runs => rfl
  | unknown noQuote noNumber => rfl

/-! ## What is taken there -/

theorem RunsIntoWord.first?_eq {numeral word rest : List Char}
    (runs : RunsIntoWord numeral word rest) :
    first? (numeral ++ word ++ rest) = some (.number, numeral) := by
  have distinct : Rule.number ∈ distinctRules := by decide
  rw [List.append_assoc]
  exact first?_of_fits distinct runs.longest

theorem RunsIntoWord.token?_eq {numeral word rest : List Char}
    (runs : RunsIntoWord numeral word rest) :
    Rule.number.token? numeral (word ++ rest) =
      .error (.malformedNumber (String.ofList (numeral ++ word))) := by
  obtain ⟨first, others, rfl, starts, inside⟩ := runs.isName
  have opens : ((first :: others ++ rest).take 1).any startsWord = true := by simp [starts]
  have all : ∀ c ∈ first :: others, continuesWord c = true := by
    intro c member
    rcases List.mem_cons.mp member with rfl | later
    · exact continuesWord_iff.mpr (.inl starts)
    · exact inside c later
  rw [Rule.token?, if_pos opens, takeWhile_run all runs.ends]

/-- A number that is refused runs into a word. -/
theorem exists_word_of_token? {numeral rest : List Char} {cause : Cause}
    (longest : LongestNumeral numeral rest)
    (refused : Rule.number.token? numeral rest = .error cause) :
    ∃ word behind, rest = word ++ behind ∧ RunsIntoWord numeral word behind ∧
      cause = .malformedNumber (String.ofList (numeral ++ word)) := by
  simp only [Rule.token?] at refused
  split at refused
  · rename_i opens
    cases rest with
    | nil => simp at opens
    | cons first others =>
        have starts : startsWord first = true := by simpa using opens
        have here : continuesWord first = true := continuesWord_iff.mpr (.inl starts)
        obtain ⟨run, behind, rfl, inside, ends⟩ := exists_run continuesWord others
        have taken : (first :: (run ++ behind)).takeWhile continuesWord = first :: run := by
          rw [List.takeWhile_cons_of_pos here, takeWhile_run inside ends]
        rw [taken] at refused
        cases refused
        exact ⟨first :: run, behind, rfl, ⟨longest, ⟨first, run, rfl, starts, inside⟩, ends⟩, rfl⟩
  · cases refused

/-- A quote is taken by itself only if nothing closes it. -/
theorem openQuote_of_first? (taken : first? text = some (.openText, lexeme)) : OpenQuote text := by
  obtain ⟨-, taken, earlier⟩ := first?_eq_some_iff.mp taken
  obtain ⟨rest, rfl, rfl⟩ := Rule.lexeme?_eq_some_iff.mp taken
  have none : closedText? ('"' :: rest) = none := earlier .closedText (by decide)
  refine ⟨rest, rfl, ?_⟩
  intro closes
  simp [closedText?, closes] at none

/-- Only open quotes and numbers are taken and then refused. -/
theorem rule_of_token? {rule : Rule} {cause : Cause}
    (refused : rule.token? lexeme rest = .error cause) : rule = .openText ∨ rule = .number := by
  cases rule with
  | openText => exact .inl rfl
  | number => exact .inr rfl
  | _ => cases refused

end Lexeme

namespace Scan

open Lexeme

/-! ## Refused steps -/

theorem step_of_openQuote {point : Point} (opens : OpenQuote point.rest) :
    step point = .error ⟨.unterminatedText, point.place⟩ := by
  obtain ⟨rest, same, absent⟩ := opens
  refine step_eq_error_iff.mpr ⟨rfl, .inr ⟨.openText, ['"'], rest, same, ?_, rfl⟩⟩
  rw [same]
  exact first?_of_openText absent

theorem step_of_runsIntoWord {point : Point} {numeral word rest : List Char}
    (same : point.rest = numeral ++ word ++ rest) (runs : RunsIntoWord numeral word rest) :
    step point =
      .error ⟨.malformedNumber (String.ofList (numeral ++ word)), point.place⟩ := by
  refine step_eq_error_iff.mpr ⟨rfl, .inr ⟨.number, numeral, word ++ rest, ?_, ?_, ?_⟩⟩
  · rw [same, List.append_assoc]
  · rw [same]
    exact runs.first?_eq
  · exact runs.token?_eq

/-- A refused step tells what is wrong where it was tried. -/
theorem misspelt_of_step {point : Point} {diagnostic : Diagnostic} (some : point.rest ≠ [])
    (refused : step point = .error diagnostic) : Misspelt point.rest diagnostic.cause := by
  obtain ⟨-, ⟨none, why⟩ | ⟨rule, lexeme, rest, same, taken, why⟩⟩ := step_eq_error_iff.mp refused
  · cases same : point.rest with
    | nil => exact absurd same some
    | cons c rest =>
        rw [same] at none why
        rw [why]
        refine .unknown ?_ ?_
        · rintro ⟨rest', same', absent⟩
          rw [same', first?_of_openText absent] at none
          cases none
        · intro numeral word behind runs same'
          rw [same', runs.first?_eq] at none
          cases none
  · rcases rule_of_token? why with rfl | rfl
    · have cause : diagnostic.cause = .unterminatedText := (Except.error.inj why).symm
      rw [cause]
      exact .openQuote (openQuote_of_first? taken)
    · obtain ⟨-, taken', -⟩ := first?_eq_some_iff.mp taken
      obtain ⟨rest', same', fits⟩ := Rule.lexeme?_eq_some_iff.mp taken'
      have behind : rest = rest' := List.append_cancel_left (same.symm.trans same')
      subst behind
      obtain ⟨word, behind, rfl, runs, cause⟩ := exists_word_of_token? fits why
      rw [same, cause, ← List.append_assoc]
      exact .runsIntoWord runs

/-- What is misspelt where a step is refused is the cause of the refusal. -/
theorem cause_of_misspelt {point : Point} {diagnostic : Diagnostic} {cause : Cause}
    (refused : step point = .error diagnostic) (misspelt : Misspelt point.rest cause) :
    diagnostic.cause = cause := by
  have known : ∀ named, step point = .error named → diagnostic.cause = named.cause := by
    intro named refused'
    rw [refused] at refused'
    rw [Except.error.inj refused']
  generalize same : point.rest = text at misspelt
  cases misspelt with
  | openQuote opens =>
      subst same
      exact known _ (step_of_openQuote opens)
  | runsIntoWord runs => exact known _ (step_of_runsIntoWord same runs)
  | @unknown c rest noQuote noNumber =>
      -- That nothing is taken here is known from the refusal only, so its own cause is compared.
      have some : point.rest ≠ [] := by simp [same]
      have found := misspelt_of_step some refused
      rw [same] at found
      generalize same' : c :: rest = text at found
      generalize diagnostic.cause = cause at found
      cases found with
      | openQuote opens =>
          subst same'
          exact absurd opens noQuote
      | runsIntoWord runs => exact absurd same' (noNumber _ _ _ runs)
      | unknown =>
          cases same'
          rfl

end Scan

end ScriptReader
