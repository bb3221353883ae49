/- # ScriptReader.Proofs.Carets — where the caret of a report stands

A text is refused at a character that is no white space (`isBlank_of_refused`), so
nothing that is trimmed from the shown line reaches it: in front of it the line
loses its leading spaces, behind it the white space at its end (`shownLine_append`).
The report of a refused text is therefore known in full (`RefusedAt.report_eq`).

The caret stands behind one dash for each byte of the shown line in front of that
character. Below the character itself it stands exactly if all of these are
characters of one byte.
-/
import ScriptReader.Proofs.Lines
import ScriptReader.Proofs.Misspelling
import ScriptReader.Source.Report

namespace ScriptReader

set_option autoImplicit false

namespace Source

open Text (byteSize lineFeeds trimEnd isBlank EndsRun)

variable {before rest : List Char} {offending : Char}

/-! ## The shown line -/

/-- What the shown line has in front of a place, given the text in front of the place. -/
def inFront (before : List Char) : List Char := (lastLine before).dropWhile (· = ' ')

theorem isBlank_of_isLineEnd {c : Char} (ends : isLineEnd c = true) : isBlank c = true := by
  have either : c = '\n' ∨ c = '\r' := by simpa [isLineEnd] using ends
  rcases either with rfl | rfl
  · decide
  · decide

/-- A line is shown with its leading spaces removed in front of a visible character, and with
the white space at its end removed behind it. -/
theorem shownLine_append (visible : isBlank offending = false) (line rest : List Char) :
    shownLine (line ++ offending :: rest) =
      (line.dropWhile (· = ' ') ++ offending :: trimEnd isBlank rest,
        (line.takeWhile (· = ' ')).length) := by
  have other : offending ≠ ' ' := by
    rintro rfl
    exact absurd visible (by decide)
  obtain ⟨spaces, text, rfl, all, ends⟩ := Text.exists_run (· = ' ') line
  have ends' : EndsRun (· = ' ') (text ++ offending :: rest) :=
    ends.append (Text.endsRun_cons.mpr (decide_eq_false other))
  rw [shownLine, List.append_assoc, Text.dropWhile_run all ends', Text.takeWhile_run all ends',
    Text.dropWhile_run all ends, Text.takeWhile_run all ends,
    Text.trimEnd_append_cons visible]

/-- Each of the removed spaces is one byte of the line. -/
theorem byteSize_inFront (before : List Char) :
    byteSize (lastLine before) - ((lastLine before).takeWhile (· = ' ')).length =
      byteSize (inFront before) := by
  obtain ⟨spaces, text, same, all, ends⟩ := Text.exists_run (· = ' ') (lastLine before)
  have single : byteSize spaces = spaces.length := by
    refine Text.byteSize_eq_length_iff.mpr ?_
    intro c member
    rw [of_decide_eq_true (all c member)]
    rfl
  rw [inFront, same, Text.takeWhile_run all ends, Text.dropWhile_run all ends,
    Text.byteSize_append, single, Nat.add_sub_cancel_left]

/-! ## The drawing below the header -/

/-- What stands below and above the number of a line, up to the bar. -/
def margin (line : Nat) : List Char :=
  List.replicate ((toString line).toList.length + 1) ' ' ++ ['|']

/-- The last line of a report: dashes in front of a caret. -/
def caretLine (line dashes : Nat) : List Char :=
  margin line ++ [' '] ++ List.replicate dashes '-' ++ ['^']

/-- A margin, a line with its number, and the line of the caret. -/
def drawing (line : Nat) (shown : List Char) (dashes : Nat) : List Char :=
  '\n' :: margin line ++ '\n' :: (toString line).toList ++ [' ', '|', ' '] ++ shown ++
    '\n' :: caretLine line dashes

theorem excerpt_eq_drawing (spot : Spot) :
    excerpt spot =
      drawing spot.line (shownLine spot.text).1 (spot.column - (shownLine spot.text).2) := by
  simp [excerpt, drawing, caretLine, margin]

/-- The dashes in front of the caret on the last line of a report. -/
def caretDashes (report : List Char) : Nat :=
  ((lastLine report).takeWhile (· ≠ '^')).count '-'

theorem caretDashes_drawing (header : List Char) (line : Nat) (shown : List Char)
    (dashes : Nat) : caretDashes (header ++ drawing line shown dashes) = dashes := by
  have oneLine : '\n' ∉ caretLine line dashes := by simp [caretLine, margin]
  have caret : (caretLine line dashes).takeWhile (· ≠ '^') =
      margin line ++ [' '] ++ List.replicate dashes '-' := by
    refine Text.takeWhile_run ?_ (Text.endsRun_cons.mpr (by simp))
    intro c member
    have known : c = ' ' ∨ c = '|' ∨ c = '-' := by
      simp [margin] at member
      tauto
    rcases known with rfl | rfl | rfl <;> decide
  rw [caretDashes, drawing, ← List.append_assoc, lastLine_feed, lastLine_of_not_mem oneLine, caret]
  simp [margin, List.count_replicate]

/-- The excerpt of an offset where a visible character begins. -/
theorem excerpt_of_visible (visible : isBlank offending = false) (before rest : List Char) :
    (lineAt? (before ++ offending :: rest) (byteSize before)).map excerpt =
      some (drawing (1 + lineFeeds before)
        (inFront before ++ offending :: trimEnd isBlank (rest.takeWhile (· ≠ '\n')))
        (byteSize (inFront before))) := by
  have inLine : (offending :: rest).takeWhile (· ≠ '\n') =
      offending :: rest.takeWhile (· ≠ '\n') := by
    refine List.takeWhile_cons_of_pos (decide_eq_true ?_)
    rintro rfl
    exact absurd visible (by decide)
  have kept : isLineEnd offending = false := by
    cases ends : isLineEnd offending with
    | false => rfl
    | true => rw [isBlank_of_isLineEnd ends] at visible; cases visible
  have spot := lineAt?_eq (Char.utf8Size_pos offending) before rest
  rw [Nat.add_zero, Nat.add_zero, inLine, Text.trimEnd_append_cons kept] at spot
  rw [spot, Option.map_some, excerpt_eq_drawing, shownLine_append visible,
    Text.trimEnd_trimEnd fun _ => isBlank_of_isLineEnd]
  dsimp only
  rw [byteSize_inFront]
  rfl

end Source

/-! ## Reports of refused texts -/

namespace Scan

open Lexeme (Rule first?_of_fits)

/-- White space is never refused. -/
theorem isBlank_of_refused {point : Point} {c : Char} {rest : List Char}
    {diagnostic : Diagnostic} (same : point.rest = c :: rest)
    (refused : step point = .error diagnostic) : Text.isBlank c = false := by
  cases white : Text.isBlank c with
  | false => rfl
  | true =>
      obtain ⟨run, behind, rfl, inside, ends⟩ := Text.exists_run Text.isBlank rest
      have fits : Rule.blank.Fits (c :: run) behind :=
        ⟨by simp, List.forall_mem_cons.mpr ⟨white, inside⟩, ends⟩
      have taken := first?_of_fits (by decide) fits
      have stepped := step_eq_ok_iff.mpr
        ⟨.blank, c :: run, behind, same, by rw [same]; exact taken, rfl, rfl⟩
      rw [stepped] at refused
      cases refused

end Scan

open Source (inFront drawing caretDashes)

/-- A text is refused at one of its characters, with the text in front of it and behind it. -/
structure RefusedAt (source : String) (diagnostic : Diagnostic) (before : List Char)
    (offending : Char) (behind : List Char) : Prop where
  refused : tokenize source = .error diagnostic
  whole : source.toList = before ++ offending :: behind
  place : diagnostic.place = .source (Text.byteSize before) ((1 + Text.lineFeeds before) % 2 ^ 32)
  visible : Text.isBlank offending = false

variable {source : String} {diagnostic : Diagnostic} {before behind : List Char}
  {offending : Char}

theorem exists_refusedAt (refused : tokenize source = .error diagnostic) :
    ∃ before offending behind, RefusedAt source diagnostic before offending behind := by
  obtain ⟨found, last, reaches, some, stuck⟩ := tokenize_eq_error_iff.mp refused
  obtain ⟨before, whole, place⟩ := reaches.exists_place
  obtain ⟨offending, behind, same⟩ := List.exists_cons_of_ne_nil some
  rw [← (Scan.step_eq_error_iff.mp stuck).1] at place
  exact ⟨before, offending, behind, refused, same ▸ whole, place,
    Scan.isBlank_of_refused same stuck⟩

/-- The report of a refused text. -/
theorem RefusedAt.report_eq (refusedAt : RefusedAt source diagnostic before offending behind)
    (file : String) :
    diagnostic.report source file =
      diagnostic.header file ++ String.ofList
        (drawing (1 + Text.lineFeeds before)
          (inFront before ++
            offending :: Text.trimEnd Text.isBlank (behind.takeWhile (· ≠ '\n')))
          (Text.byteSize (inFront before))) := by
  have excerpt := Source.excerpt_of_visible refusedAt.visible before behind
  obtain ⟨spot, found, drawn⟩ := Option.map_eq_some_iff.mp excerpt
  rw [Diagnostic.report, refusedAt.place, refusedAt.whole]
  simp only [found, drawn]

/-- **The caret stands behind one dash for each byte in front of it.** A text is refused at one
of its characters, and the report shows the line of that character. The dashes in front of the
caret are as many as the bytes that the shown line has in front of the character; the caret stands
below the character exactly if these are the bytes of as many characters. -/
theorem caret_behind_bytes (refused : tokenize source = .error diagnostic) (file : String) :
    ∃ before offending behind, RefusedAt source diagnostic before offending behind ∧
      (∃ after, (diagnostic.report source file).toList =
        (diagnostic.header file).toList ++
          drawing (1 + Text.lineFeeds before) (inFront before ++ offending :: after)
            (Text.byteSize (inFront before))) ∧
      caretDashes (diagnostic.report source file).toList = Text.byteSize (inFront before) ∧
      (caretDashes (diagnostic.report source file).toList = (inFront before).length ↔
        ∀ c ∈ inFront before, c.utf8Size = 1) := by
  obtain ⟨before, offending, behind, refusedAt⟩ := exists_refusedAt refused
  have report : (diagnostic.report source file).toList = _ :=
    (congrArg String.toList (refusedAt.report_eq file)).trans String.toList_append
  rw [String.toList_ofList] at report
  have dashes : caretDashes (diagnostic.report source file).toList =
      Text.byteSize (inFront before) := by
    rw [report, Source.caretDashes_drawing]
  refine ⟨before, offending, behind, refusedAt, ⟨_, report⟩, dashes, ?_⟩
  rw [dashes]
  exact Text.byteSize_eq_length_iff

/-- On a line that is indented, behind a line with a character of two bytes. -/
theorem caret_behind_indented_bytes :
    let diagnostic : Diagnostic := ⟨.unrecognised "#", .source 16 2⟩
    let source := "\"é\";\n  let b = #;\n"
    tokenize source = .error diagnostic ∧
      caretDashes (diagnostic.report source "main.lang").toList = 8 ∧
      ∃ before offending behind, RefusedAt source diagnostic before offending behind ∧
        Text.byteSize (inFront before) = 8 := by
  intro diagnostic source
  have refused : tokenize source = .error diagnostic := by decide +kernel
  have eight : caretDashes (diagnostic.report source "main.lang").toList = 8 := by decide +kernel
  obtain ⟨before, offending, behind, refusedAt, -, dashes, -⟩ :=
    caret_behind_bytes refused "main.lang"
  exact ⟨refused, eight, before, offending, behind, refusedAt, dashes.symm.trans eight⟩

/-- Behind a text of one character with two bytes, the caret stands one place too far right. -/
theorem caret_right_of_character :
    let diagnostic : Diagnostic := ⟨.unrecognised "#", .source 5 1⟩
    let before := ['"', 'é', '"', ' ']
    RefusedAt "\"é\" #" diagnostic before '#' [] ∧
      diagnostic.report "\"é\" #" "main.lang" =
        "Error: UnrecognisedToken (unrecognised token: \"#\")\n-> main.lang\n" ++
          "  |\n1 | \"é\" #\n  | -----^" ∧
      caretDashes (diagnostic.report "\"é\" #" "main.lang").toList = 5 ∧
      (inFront before).length = 4 := by
  refine ⟨⟨?_, ?_, ?_, ?_⟩, ?_, ?_, ?_⟩ <;> decide +kernel

end ScriptReader
