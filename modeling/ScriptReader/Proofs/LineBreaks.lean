/- # ScriptReader.Proofs.LineBreaks — texts joined at a line break

A text that is accepted may be put in front of another one, on lines of its own.
The tokens of the two follow one another, and what is wrong with the second one is
still wrong, at a place further down (`tokenize_append_line`).

A step takes the same piece when a line break is put behind the text
(`step_append_line`). Only a piece that reaches to the end of the text may take the
line feed in, a run of white space or an open comment; that piece and the line feed
are a separator, so nothing is found in them either way. From there to the end of
the text, a run is the one that was there before (`Reaches.scanFrom_append_line`).
Behind the line break the scanner does what it would do at the start of a text,
with offset and line moved (`Reaches.moved`).
-/
import ScriptReader.Proofs.Respelling

namespace ScriptReader

set_option autoImplicit false

open Lexeme (Rule first? first?_of_fits first?_eq_some_iff IsComment LongestNumeral OpensBlank)
open Text (EndsRun)

/-! ## Pieces in front of a line break -/

namespace Lexeme

variable {lexeme rest more : List Char}

theorem opensBlank_lineFeed : OpensBlank ('\n' :: more) := opensBlank_cons (by decide)

/-- A numeral that is not cut short by the text goes no further in what white space follows. -/
theorem LongestNumeral.append (longest : LongestNumeral lexeme rest) (gap : OpensBlank more) :
    LongestNumeral lexeme (rest ++ more) := by
  refine ⟨longest.isNumeral, ?_⟩
  intro further start longer
  have visible : ∀ c ∈ further, Text.isBlank c = false :=
    fun c member => longer.visible c (List.mem_append_right _ member)
  exact longest.longest further (prefix_of_prefix_append visible gap start) longer

/-- A sign that is taken is taken where white space follows the text, too. -/
theorem first?_sign_append {sign : Sign}
    (taken : first? (lexeme ++ rest) = some (.fixed sign, lexeme)) (gap : OpensBlank more) :
    first? (lexeme ++ (rest ++ more)) = some (.fixed sign, lexeme) := by
  obtain ⟨listed, taken, earlier⟩ := first?_eq_some_iff.mp taken
  obtain ⟨behind, same, fits⟩ := Rule.lexeme?_eq_some_iff.mp taken
  obtain ⟨c, others, rfl, -⟩ := id fits.exists_cons
  have written : c :: others = sign.pattern.toList := fits
  have unquoted : c ≠ '"' :=
    (visible_of_spelling? sign.spelling_eq c (written ▸ List.mem_cons_self)).2
  refine first?_eq_some_iff.mpr ⟨listed, ?_, ?_⟩
  · exact Rule.lexeme?_eq_some_iff.mpr ⟨rest ++ more, rfl, written⟩
  · intro other before
    cases found : other.lexeme? (c :: others ++ (rest ++ more)) with
    | none => rfl
    | some piece =>
        rw [← List.append_assoc, List.cons_append] at found
        exact absurd (earlier other before)
          (Rule.lexeme?_ne_none_of_append unquoted gap found)

/-- A number that does not run into a word does not run into white space either. -/
theorem token?_append {rule : Rule} {token : Option Token} (gap : OpensBlank more)
    (sound : rule.token? lexeme rest = .ok token) :
    rule.token? lexeme (rest ++ more) = .ok token := by
  cases rule with
  | number =>
      cases rest with
      | nil =>
          have plain : (more.take 1).any startsWord = false := by
            have ends : EndsRun startsWord more := gap.endsRun fun c => isBlank_of_startsWord
            cases more with
            | nil => rfl
            | cons c more => simpa using Text.endsRun_cons.mp ends
          rw [List.nil_append, Rule.token?, if_neg (by simp [plain])]
          exact sound
      | cons c rest =>
          cases runs : startsWord c with
          | true => simp [Rule.token?, runs] at sound
          | false => simpa [Rule.token?, runs] using sound
  | _ => exact sound

end Lexeme

theorem Separator.of_blanks {run : List Char} (all : ∀ c ∈ run, Text.isBlank c = true) :
    Separator run := by
  induction run with
  | nil => exact .nothing
  | cons c run ih =>
      exact .blank (all c List.mem_cons_self)
        (ih fun d member => all d (List.mem_cons_of_mem c member))

namespace Scan

open Lexeme (opensBlank_lineFeed first?_sign_append token?_append isBlank_of_continuesWord)

variable {offset : Nat} {line : UInt32} {text more : List Char}

/-! ## Steps -/

/-- A piece is taken in front of a line break as it was taken before. Otherwise it reached to
the end of the text, stands for no token, and is a separator together with the line feed. -/
theorem first?_append_line {rule : Rule} {lexeme rest : List Char} {token : Option Token}
    (taken : first? (lexeme ++ rest) = some (rule, lexeme))
    (sound : rule.token? lexeme rest = .ok token) :
    first? (lexeme ++ (rest ++ '\n' :: more)) = some (rule, lexeme) ∨
      rest = [] ∧ token = none ∧ Separator (lexeme ++ ['\n']) := by
  have feed : OpensBlank ('\n' :: more) := opensBlank_lineFeed
  obtain ⟨-, piece, -⟩ := first?_eq_some_iff.mp taken
  obtain ⟨behind, same, fits⟩ := Rule.lexeme?_eq_some_iff.mp piece
  obtain rfl := List.append_cancel_left same
  cases rule with
  | blank =>
      obtain ⟨nonempty, all, ends⟩ := fits
      cases rest with
      | nil =>
          cases sound
          have white : ∀ c ∈ lexeme ++ ['\n'], Text.isBlank c = true := by
            intro c member
            rcases List.mem_append.mp member with inside | last
            · exact all c inside
            · rw [List.mem_singleton.mp last]
              decide
          exact .inr ⟨rfl, rfl, .of_blanks white⟩
      | cons c rest =>
          have ends' : EndsRun Text.isBlank (c :: rest ++ '\n' :: more) :=
            Text.endsRun_cons.mpr (Text.endsRun_cons.mp ends)
          exact .inl (first?_of_fits (by decide) ⟨nonempty, all, ends'⟩)
  | comment =>
      cases sound
      obtain ⟨body, absent, whole | ⟨rfl, rfl⟩⟩ := fits
      · exact .inl (first?_of_fits (by decide) ⟨body, absent, .inl whole⟩)
      · exact .inr ⟨rfl, rfl, .comment absent .nothing⟩
  | closedText => exact .inl (first?_of_fits (by decide) fits)
  | openText => cases sound
  | number => exact .inl (first?_of_fits (by decide) (fits.append feed))
  | word =>
      have ends := fits.2.append (feed.endsRun fun c => isBlank_of_continuesWord)
      exact .inl (first?_of_fits (by decide) ⟨fits.1, ends⟩)
  | fixed sign => exact .inl (first?_sign_append taken feed)

/-- A step is taken in front of a line break as it was taken before. Otherwise it was the last
one and found nothing, and what it passed is a separator together with the line feed. -/
theorem step_append_line {next : Point} {token : Option Token}
    (stepped : step ⟨offset, line, text⟩ = .ok (token, next)) :
    step ⟨offset, line, text ++ '\n' :: more⟩ =
        .ok (token, ⟨next.offset, next.line, next.rest ++ '\n' :: more⟩) ∨
      next = ⟨offset + Text.byteSize text, line + Text.lineCount text, []⟩ ∧ token = none ∧
        Separator (text ++ ['\n']) := by
  obtain ⟨rule, lexeme, rest, rfl, taken, sound, rfl⟩ := step_eq_ok_iff.mp stepped
  rcases first?_append_line taken sound with again | ⟨rfl, rfl, separator⟩
  · left
    rw [List.append_assoc]
    exact step_eq_ok_iff.mpr
      ⟨rule, lexeme, rest ++ '\n' :: more, rfl, again, token?_append opensBlank_lineFeed sound, rfl⟩
  · right
    rw [List.append_nil]
    exact ⟨rfl, rfl, separator⟩

/-! ## Runs -/

/-- A run to the end of the text finds the same when a line break is put behind the text; the
rest is scanned from the start of the next line. -/
theorem Reaches.scanFrom_append_line {point last : Point} {tokens : List Token}
    (reaches : Reaches point tokens last) (ends : last.rest = []) :
    scanFrom ⟨point.offset, point.line, point.rest ++ '\n' :: more⟩ =
      (scanFrom ⟨last.offset + 1, last.line + 1, more⟩).map fun scanned =>
        ⟨tokens ++ scanned.tokens, scanned.lines⟩ := by
  induction reaches with
  | here point =>
      have white : Text.isBlank '\n' = true := by decide
      have passed : Text.byteSize ['\n'] = 1 ∧ Text.lineCount ['\n'] = 1 := by decide
      rw [ends, List.nil_append, scanFrom_blank_cons white, passed.1, passed.2]
      cases scanFrom _ <;> rfl
  | @further point next last token tokens stepped onward ih =>
      rcases step_append_line stepped with again | ⟨rfl, rfl, separator⟩
      · rw [scanFrom_of_step again, ih ends]
        cases scanFrom _ with
        | error diagnostic => rfl
        | ok scanned => simp [Except.map]
      · -- The step was the last one: nothing is left to step over.
        cases onward with
        | further stepped' _ => exact absurd rfl (step_rest_ne_nil stepped')
        | here =>
            have whole : point.rest ++ '\n' :: more = point.rest ++ ['\n'] ++ more := by simp
            have bytes := Text.byteSize_append point.rest ['\n']
            have feeds := Text.lineCount_append point.rest ['\n']
            have passed : Text.byteSize ['\n'] = 1 ∧ Text.lineCount ['\n'] = 1 := by decide
            rw [whole, scanFrom_separator separator, bytes, feeds, passed.1, passed.2,
              ← Nat.add_assoc, ← UInt32.add_assoc]
            cases scanFrom _ <;> rfl

/-! ## Further down in a text -/

/-- The point, so many bytes and lines further down. -/
def Point.moved (bytes : Nat) (lines : UInt32) (point : Point) : Point :=
  ⟨point.offset + bytes, point.line + lines, point.rest⟩

variable {point next last : Point} {tokens : List Token}

theorem step_moved {token : Option Token} (bytes : Nat) (lines : UInt32)
    (stepped : step point = .ok (token, next)) :
    step (point.moved bytes lines) = .ok (token, next.moved bytes lines) := by
  obtain ⟨rule, lexeme, rest, whole, taken, sound, rfl⟩ := step_eq_ok_iff.mp stepped
  refine step_eq_ok_iff.mpr ⟨rule, lexeme, rest, whole, taken, sound, ?_⟩
  simp only [Point.moved, Nat.add_right_comm]
  rw [UInt32.add_assoc, UInt32.add_comm (Text.lineCount lexeme), ← UInt32.add_assoc]

theorem Reaches.moved (bytes : Nat) (lines : UInt32) (reaches : Reaches point tokens last) :
    Reaches (point.moved bytes lines) tokens (last.moved bytes lines) := by
  induction reaches with
  | here point => exact .here _
  | further stepped _ ih => exact .further (step_moved bytes lines stepped) ih

theorem scanFrom_moved_of_ok {scanned : Scanned} (bytes : Nat) (lines : UInt32)
    (accepted : scanFrom point = .ok scanned) :
    scanFrom (point.moved bytes lines) = .ok ⟨scanned.tokens, scanned.lines + lines⟩ := by
  obtain ⟨tokens, last, reaches, ends, rfl⟩ := scanFrom_eq_ok_iff.mp accepted
  exact scanFrom_eq_ok_iff.mpr ⟨tokens, _, reaches.moved bytes lines, ends, rfl⟩

/-- A refusal has the same cause further down. -/
theorem scanFrom_moved_of_error {diagnostic : Diagnostic} (bytes : Nat) (lines : UInt32)
    (refused : scanFrom point = .error diagnostic) :
    ∃ offset line, diagnostic.place = .source offset (UInt32.toNat line) ∧
      scanFrom (point.moved bytes lines) =
        .error ⟨diagnostic.cause, .source (offset + bytes) (line + lines).toNat⟩ := by
  obtain ⟨tokens, last, reaches, some, refused⟩ := scanFrom_eq_error_iff.mp refused
  obtain ⟨here, why⟩ := step_eq_error_iff.mp refused
  refine ⟨last.offset, last.line, here, ?_⟩
  refine scanFrom_eq_error_iff.mpr ⟨tokens, _, reaches.moved bytes lines, some, ?_⟩
  exact step_eq_error_iff.mpr ⟨rfl, why⟩

end Scan

/-! ## Texts -/

/-- Behind a text that is accepted and a line break, scanning goes on as at the start of a text,
further down. -/
theorem scan_append_line {first : String} {found : List Token}
    (accepted : tokenize first = .ok (found ++ [.endOfInput])) (second : String) :
    scan (first ++ "\n" ++ second) =
      (Scan.scanFrom ((Scan.Point.start second.toList).moved (Text.byteSize first.toList + 1)
        (Text.lineCount first.toList + 1))).map fun scanned =>
          ⟨found ++ scanned.tokens, scanned.lines⟩ := by
  obtain ⟨found', last, reaches, ends, same⟩ := tokenize_eq_ok_iff.mp accepted
  obtain rfl := List.append_cancel_right same
  obtain ⟨passed, whole, offset, line⟩ := reaches.exists_passed
  rw [ends, List.append_nil] at whole
  obtain rfl : first.toList = passed := whole
  have joined : (first ++ "\n" ++ second).toList = first.toList ++ '\n' :: second.toList := by simp
  have behind : (⟨last.offset + 1, last.line + 1, second.toList⟩ : Scan.Point) =
      (Scan.Point.start second.toList).moved (Text.byteSize first.toList + 1)
        (Text.lineCount first.toList + 1) := by
    rw [offset, line]
    simp only [Scan.Point.moved, Scan.Point.start, Nat.add_assoc, UInt32.add_assoc]
  rw [scan, joined, ← behind]
  exact reaches.scanFrom_append_line ends

/-- The line break behind a text counts as one more line feed. -/
theorem toNat_line_below (line : UInt32) (text : List Char) :
    (line + (Text.lineCount text + 1)).toNat = (line.toNat + Text.lineFeeds text + 1) % 2 ^ 32 := by
  have feed : Text.lineCount (text ++ ['\n']) = Text.lineCount text + 1 := Text.lineCount_append _ _
  rw [← feed, Text.toNat_add_lineCount, Text.lineFeeds_append]
  rfl

/-- The line of a refused text is at most one more than its line feeds. -/
theorem line_le_of_error {source : String} {diagnostic : Diagnostic} {offset line : Nat}
    (refused : tokenize source = .error diagnostic) (place : diagnostic.place = .source offset line) :
    line ≤ 1 + Text.lineFeeds source.toList := by
  obtain ⟨found, last, reaches, -, stuck⟩ := tokenize_eq_error_iff.mp refused
  obtain ⟨passed, whole, here⟩ := reaches.exists_place
  rw [← (Scan.step_eq_error_iff.mp stuck).1, place] at here
  cases here
  rw [whole, Text.lineFeeds_append]
  exact (Nat.mod_le _ _).trans (Nat.add_le_add_left (Nat.le_add_right _ _) 1)

end ScriptReader
