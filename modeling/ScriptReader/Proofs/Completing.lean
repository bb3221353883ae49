/- # ScriptReader.Proofs.Completing — what was read so far can be completed

Where a program is refused, the tokens in front of the refused one are the beginning
of a program. What the recipe that refuses still owes can be supplied; from there it
goes up through the phrases in which the refusal was raised
(`Phrase.Refuses.exists_completion`) to the row of statements and to the program
(`parse_completes_of_refused`).
-/
import ScriptReader.Proofs.Composition
import ScriptReader.Proofs.Supplying

namespace ScriptReader

set_option autoImplicit false

/-! ## From a refusal to a completion -/

section Completion

variable {spent stop left : List Token} {cause : Cause}

/-- Where a completable recipe is refused behind some tokens, it reads these tokens and others
instead of the rest, if that is so for the phrases. -/
theorem Recipe.Refuses.exists_completion {α : Type} {refusals : Refusals}
    {behind : List Token → Prop} {recipe : Recipe α} (completable : recipe.Completable behind)
    (stops : ∀ phrase ahead cause stop, refusals phrase ahead cause stop → stop <:+ ahead)
    (inside : ∀ phrase spent, refusals phrase (spent ++ stop) cause stop → spent ≠ [] →
      (∀ token ∈ spent, token.kind ≠ .newWord) → ∀ left, phrase.Follows left →
        ∃ added value, Phrase.Reads .language phrase (spent ++ (added ++ left)) value left)
    (refused : recipe.Refuses (Phrase.Reads .language) refusals (spent ++ stop) cause stop)
    (begun : spent ≠ []) (noCreation : ∀ token ∈ spent, token.kind ≠ .newWord)
    (allowed : behind left) :
    ∃ added value, recipe.Reads (Phrase.Reads .language) (spent ++ (added ++ left)) value left := by
  induction recipe generalizing spent with
  | yield value => exact refused.elim
  | refuse why => exact absurd (List.append_left_eq_self.mp refused.2.symm) begun
  | peek next ih =>
      obtain ⟨first, spent, rfl⟩ := List.exists_cons_of_ne_nil begun
      obtain ⟨token, rest, whole, refused⟩ := refused
      cases whole
      have other := noCreation first List.mem_cons_self
      obtain ⟨added, value, read⟩ := ih first (completable first other) refused begun noCreation
      exact ⟨added, value, first, _, rfl, read⟩
  | readToken fault next ih =>
      obtain ⟨first, spent, rfl⟩ := List.exists_cons_of_ne_nil begun
      obtain ⟨token, rest, whole, ⟨-, point⟩ | ⟨sound, later⟩⟩ := refused
      · exact absurd (List.append_left_eq_self.mp point.symm) begun
      · cases whole
        obtain ⟨fills, later'⟩ := completable first sound
        have completed : ∃ added value, (next first).Reads (Phrase.Reads .language)
            (spent ++ (added ++ left)) value left := by
          by_cases last : spent = []
          · obtain ⟨added, -, read⟩ := fills left allowed
            exact ⟨added, last ▸ read ()⟩
          · exact ih first later' later last fun token member =>
              noCreation token (List.mem_cons_of_mem first member)
        obtain ⟨added, value, read⟩ := completed
        exact ⟨added, value, first, _, rfl, sound, read⟩
  | readPhrase phrase fault next ih =>
      obtain ⟨faultless, fills, later'⟩ := completable
      obtain ⟨added, follows, reads⟩ := fills left allowed
      rcases refused with refused | ⟨value, middle, read, ⟨wrong, -⟩ | ⟨sound, later⟩⟩
      · -- The phrase is completed in front of what is supplied behind it.
        obtain ⟨sooner, value, read⟩ := inside phrase spent refused begun noCreation _ follows
        obtain ⟨result, read'⟩ := reads value
        refine ⟨sooner ++ added, result, value, added ++ left, ?_, faultless value, read'⟩
        rwa [List.append_assoc]
      · rw [faultless value] at wrong
        cases wrong
      · obtain ⟨before, rest, rfl, rfl⟩ := exists_split read.suffix
          (later.suffix (fun _ _ _ _ read => read.suffix) stops)
        rw [List.append_assoc] at read
        cases rest with
        | nil =>
            obtain ⟨result, read'⟩ := reads value
            refine ⟨added, result, value, added ++ left, ?_, sound, read'⟩
            rw [List.append_nil]
            exact read.in_front_of follows
        | cons token rest =>
            obtain ⟨added, result, read'⟩ := ih value (later' value) later (List.cons_ne_nil _ _)
              fun token member => noCreation token (List.mem_append_right before member)
            refine ⟨added, result, value, _, ?_, sound, read'⟩
            rw [List.append_assoc]
            exact read.alike (alike_cons token _ _)

/-- **A phrase that is refused behind some tokens can be read with these tokens in front**, up to
whatever may follow the phrase. -/
theorem Phrase.Refuses.exists_completion {phrase : Phrase}
    (refused : Phrase.Refuses .language phrase (spent ++ stop) cause stop) (begun : spent ≠ [])
    (noCreation : ∀ token ∈ spent, token.kind ≠ .newWord) (follows : phrase.Follows left) :
    ∃ added value, Phrase.Reads .language phrase (spent ++ (added ++ left)) value left := by
  refine Phrase.Refuses.induct (motive := fun phrase ahead _ stop => ∀ spent left,
    ahead = spent ++ stop → spent ≠ [] → (∀ token ∈ spent, token.kind ≠ .newWord) →
      phrase.Follows left → ∃ added value,
        Phrase.Reads .language phrase (spent ++ (added ++ left)) value left)
    ?_ refused spent left rfl begun noCreation follows
  rintro phrase ahead cause stop refused spent left rfl begun noCreation follows
  obtain ⟨added, value, read⟩ := Recipe.Refuses.exists_completion phrase.completable
    (fun _ _ _ _ inner => inner.1.suffix)
    (fun phrase spent inner begun noCreation left follows =>
      inner.2 spent left rfl begun noCreation follows)
    refused begun noCreation follows
  exact ⟨added, value, Phrase.reads_iff.mpr read⟩

/-- What stands in front of the refused token is the beginning of a row of statements. -/
theorem RefusesProgram.exists_completion
    (refused : RefusesProgram .language (spent ++ stop) cause stop)
    (noCreation : ∀ token ∈ spent, token.kind ≠ .newWord) (ends : EndsStatement left) :
    ∃ added body, ReadsRow .language (spent ++ (added ++ left)) body left := by
  obtain ⟨body, token, rest, row, goesOn, refused⟩ := refused
  obtain ⟨before, inside, rfl, whole⟩ := exists_split row.suffix refused.suffix
  rw [whole, List.append_assoc] at row
  rw [whole] at refused
  cases inside with
  | nil =>
      rw [List.append_nil]
      exact ⟨[], body, row.exchange .language fun _ _ read => read.in_front_of ends⟩
  | cons first inside =>
      cases whole
      obtain ⟨added, statement, read⟩ := refused.exists_completion (List.cons_ne_nil _ _)
        (fun token member => noCreation token (List.mem_append_right before member)) ends
      have row' := row.exchange .language fun _ _ read =>
        read.alike (alike_cons token _ (inside ++ (added ++ left)))
      refine ⟨added, body ++ [statement], ?_⟩
      rw [List.append_assoc]
      exact row'.append (.more goesOn read (.done left))

end Completion

/-! ## Programs -/

/-- What stands in front of some of the stream is the beginning of what was given. -/
theorem eq_take_of_closeStream_eq {tokens before stop : List Token}
    (whole : Cursor.closeStream tokens = before ++ stop) (some : stop ≠ []) :
    before.length ≤ tokens.length ∧ before = tokens.take before.length := by
  have front := prefix_of_closeStream_eq whole some
  exact ⟨front.length_le, List.prefix_iff_eq_take.mp front⟩

/-- **The refused token is the first one that makes the program wrong.** As long as nothing is
created with `new`, the tokens in front of the one that the refusal points at are the beginning
of a program: others can be put behind them so that they are accepted together. -/
theorem parse_completes_of_refused {tokens : List Token} {diagnostic : Diagnostic}
    (noCreation : ∀ token ∈ tokens, token.kind ≠ .newWord)
    (refused : parse tokens = .refused diagnostic) :
    ∃ index ≤ tokens.length, diagnostic.place = .token index ∧
      ∃ added, (∀ token ∈ added, token.kind ≠ .endOfInput) ∧
        ∃ body, parse (tokens.take index ++ added) = .accepted body := by
  obtain ⟨before, stop, whole, some, place, inside⟩ :=
    (parseWith_eq_refused_iff .language).mp refused
  obtain ⟨short, given⟩ := eq_take_of_closeStream_eq whole some
  have noCreation' : ∀ token ∈ before, token.kind ≠ .newWord := by
    rw [given]
    exact fun token member => noCreation token (List.mem_of_mem_take member)
  have ends : EndsStatement [.endOfInput] := ⟨_, [], rfl, by decide⟩
  obtain ⟨added, body, row⟩ := inside.exists_completion noCreation' ends
  -- What a row takes has no end of input in it, so the one behind it is the one that is added.
  obtain ⟨spent, same, derives⟩ := covers_of_readsRow row
  rw [← List.append_assoc] at same row
  have endless : ∀ token ∈ before ++ added, token.kind ≠ .endOfInput := by
    rw [List.append_cancel_right same]
    exact derives.endless trivial
  refine ⟨before.length, short, place, added, ?_, body, ?_⟩
  · exact fun token member => endless token (List.mem_append_right before member)
  · rw [← given]
    refine (parseWith_eq_accepted_iff .language).mpr ?_
    rw [closeStream_of_endless endless]
    exact readsProgram_iff.mpr ⟨_, [], rfl, row⟩

/-- A block that breaks off inside a call, where a semicolon stands in place of an argument. -/
theorem unfinished_call_completed :
    let tokens : List Token :=
      [⟨.whileWord, "while"⟩, ⟨.identifier, "a"⟩, ⟨.openCurly, "\x7b"⟩, ⟨.identifier, "f"⟩,
        ⟨.openParen, "("⟩, ⟨.dash, "-"⟩, ⟨.semicolon, ";"⟩, ⟨.closeCurly, "\x7d"⟩]
    (∀ token ∈ tokens, token.kind ≠ .newWord) ∧
      parse tokens = .refused ⟨.expectedExpression .semicolon, .token 6⟩ ∧
      ∃ index ≤ tokens.length, Place.token 6 = .token index ∧
        ∃ added, (∀ token ∈ added, token.kind ≠ .endOfInput) ∧
          ∃ body, parse (tokens.take index ++ added) = .accepted body := by
  intro tokens
  have noCreation : ∀ token ∈ tokens, token.kind ≠ .newWord := by decide
  have refused : parse tokens = .refused ⟨.expectedExpression .semicolon, .token 6⟩ := by cbv
  exact ⟨noCreation, refused, parse_completes_of_refused noCreation refused⟩

end ScriptReader
