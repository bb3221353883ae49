/- # ScriptReader.Proofs.Composition — programs behind one another

Two programs make a program, whose statements are those of the one and then those of
the other; what is wrong with the second one is wrong with both, so many tokens
further on (`parse_append`). The first one has to be a program with no end of input
in it. The second one may be anything that does not begin with `else`: only a
condition looks past its own end, and it looks for that.

The statements of the first program are a row in front of an end of input, and a row
does not depend on what stands behind it as long as it may follow a statement.
-/
import ScriptReader.Proofs.Acceptance
import ScriptReader.Proofs.Bordering

namespace ScriptReader

set_option autoImplicit false

variable {first second : List Token} {body : List Statement}

theorem closeStream_append (endless : ∀ token ∈ first, token.kind ≠ .endOfInput) :
    Cursor.closeStream (first ++ second) = first ++ Cursor.closeStream second := by
  cases second with
  | nil => rw [List.append_nil, closeStream_of_endless endless]; rfl
  | cons token rest =>
      have last : (first ++ token :: rest).getLast? = (token :: rest).getLast? := by
        rw [List.getLast?_append, List.getLast?_cons]
        rfl
      unfold Cursor.closeStream
      rw [last]
      split
      · rfl
      · rw [List.append_assoc]

/-- What stands in front of some of the stream was given. -/
theorem prefix_of_closeStream_eq {tokens before stop : List Token}
    (whole : Cursor.closeStream tokens = before ++ stop) (some : stop ≠ []) :
    before <+: tokens := by
  unfold Cursor.closeStream at whole
  split at whole
  · exact ⟨stop, whole.symm⟩
  · obtain ⟨inner, last, rfl⟩ := (List.eq_nil_or_concat stop).resolve_left some
    have whole : tokens ++ [Token.endOfInput] = (before ++ inner) ++ [last] := by
      simpa using whole
    exact ⟨inner, (List.append_inj' whole rfl).1.symm⟩

theorem endsStatement_closeStream
    (opening : ∀ token, second.head? = some token → token.kind ≠ .elseWord) :
    EndsStatement (Cursor.closeStream second) := by
  cases second with
  | nil => exact ⟨.endOfInput, [], rfl, by decide⟩
  | cons token rest =>
      have other := opening token rfl
      unfold Cursor.closeStream
      split
      · exact ⟨token, rest, rfl, other⟩
      · exact ⟨token, rest ++ [.endOfInput], rfl, other⟩

/-- Behind the statements of a program without an end of input stands the one that is added. -/
theorem readsRow_of_accepted (endless : ∀ token ∈ first, token.kind ≠ .endOfInput)
    (accepted : parse first = .accepted body) :
    ReadsRow .language (first ++ [.endOfInput]) body [.endOfInput] := by
  have reads := (parseWith_eq_accepted_iff .language).mp accepted
  rw [closeStream_of_endless endless] at reads
  obtain ⟨token, rest, ends, row⟩ := readsProgram_iff.mp reads
  obtain ⟨before, whole⟩ := row.suffix
  rcases List.eq_nil_or_concat rest with rfl | ⟨inner, last, rfl⟩
  · obtain ⟨rfl, same⟩ := List.append_inj' whole rfl
    rwa [same] at row
  · have inside : before ++ token :: inner = first := by
      have whole : (before ++ token :: inner) ++ [last] = first ++ [.endOfInput] := by
        simpa using whole
      exact (List.append_inj' whole rfl).1
    exact absurd ends (endless token (by simp [← inside]))

/-- The statements of a program are read in front of any stream that may follow a statement. -/
theorem readsRow_append (endless : ∀ token ∈ first, token.kind ≠ .endOfInput)
    (accepted : parse first = .accepted body) {behind : List Token}
    (ends : EndsStatement behind) : ReadsRow .language (first ++ behind) body behind :=
  (readsRow_of_accepted endless accepted).exchange .language
    fun _ _ read => read.in_front_of ends

/-- No end of input is read in a row of statements. -/
theorem endless_of_readsRow {behind : List Token}
    (row : ReadsRow .language (first ++ behind) body behind) :
    ∀ token ∈ first, token.kind ≠ .endOfInput := by
  obtain ⟨spent, same, derives⟩ := covers_of_readsRow row
  rw [List.append_cancel_right same]
  exact derives.endless trivial

/-- A row of statements is a program by itself, whatever stands behind it. -/
theorem accepted_of_readsRow {behind : List Token}
    (row : ReadsRow .language (first ++ behind) body behind) : parse first = .accepted body := by
  have ends : EndsStatement [.endOfInput] := ⟨_, [], rfl, by decide⟩
  have alone : ReadsRow .language (first ++ [.endOfInput]) body [.endOfInput] :=
    row.exchange .language fun _ _ read => read.in_front_of ends
  refine (parseWith_eq_accepted_iff .language).mpr ?_
  rw [closeStream_of_endless (endless_of_readsRow row)]
  exact readsProgram_iff.mpr ⟨_, [], rfl, alone⟩

/-- **Programs compose.** Behind a program without an end of input, a stream that does not begin
with `else` is read as it is alone: its statements stand behind those of the program, and what
it is refused for is found so many tokens further on. -/
theorem parse_append (endless : ∀ token ∈ first, token.kind ≠ .endOfInput)
    (accepted : parse first = .accepted body)
    (opening : ∀ token, second.head? = some token → token.kind ≠ .elseWord) :
    (∀ others, parse second = .accepted others →
      parse (first ++ second) = .accepted (body ++ others)) ∧
    ∀ diagnostic, parse second = .refused diagnostic →
      ∃ index, diagnostic.place = .token index ∧
        parse (first ++ second) = .refused ⟨diagnostic.cause, .token (first.length + index)⟩ := by
  have row := readsRow_append endless accepted (endsStatement_closeStream opening)
  constructor
  · intro others accepted'
    have reads := (parseWith_eq_accepted_iff .language).mp accepted'
    refine (parseWith_eq_accepted_iff .language).mpr ?_
    rw [closeStream_append endless]
    exact row.readsProgram reads
  · intro diagnostic refused
    obtain ⟨before, stop, whole, some, place, inside⟩ :=
      (parseWith_eq_refused_iff .language).mp refused
    refine ⟨before.length, place, ?_⟩
    refine (parseWith_eq_refused_iff .language).mpr ⟨first ++ before, stop, ?_, some, ?_, ?_⟩
    · rw [closeStream_append endless, whole, List.append_assoc]
    · rw [List.length_append]
    · rw [whole] at row
      rw [List.append_assoc]
      exact row.refusesProgram inside

/-- A condition without `else`, in front of a program that begins with a block, and in front of
a stream that stops short. -/
theorem condition_composed :
    let condition : List Token :=
      [⟨.ifWord, "if"⟩, ⟨.identifier, "a"⟩, ⟨.openCurly, "\x7b"⟩, ⟨.closeCurly, "\x7d"⟩]
    let block : List Token := [⟨.openCurly, "\x7b"⟩, ⟨.closeCurly, "\x7d"⟩]
    let short : List Token := [⟨.returnWord, "return"⟩, ⟨.plus, "+"⟩]
    parse (condition ++ block) =
        .accepted ([.conditional (.symbol "a") [] none] ++ [.block []]) ∧
      ∃ index, Place.token 1 = .token index ∧
        parse (condition ++ short) =
          .refused ⟨.expectedExpression .plus, .token (condition.length + index)⟩ := by
  intro condition block short
  have endless : ∀ token ∈ condition, token.kind ≠ .endOfInput := by decide
  have accepted : parse condition = .accepted [.conditional (.symbol "a") [] none] := by cbv
  have accepted' : parse block = .accepted [.block []] := by cbv
  have refused : parse short = .refused ⟨.expectedExpression .plus, .token 1⟩ := by cbv
  have opening : ∀ token, block.head? = some token → token.kind ≠ .elseWord := by decide
  have opening' : ∀ token, short.head? = some token → token.kind ≠ .elseWord := by decide
  have composed := (parse_append endless accepted opening).1 _ accepted'
  have stopped := (parse_append endless accepted opening').2 _ refused
  exact ⟨composed, stopped⟩

end ScriptReader
