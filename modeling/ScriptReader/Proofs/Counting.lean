/- # ScriptReader.Proofs.Counting — how far a rule moves the scanner

Each rule counts lines in its own way: it searches its piece for line feeds, looks at the
last character of it, or leaves the line as it is. All of them count the line feeds of the
pieces that they take (`Rule.lines_eq`), so the scanner moves on by the bytes and by the line
feeds of a piece, whichever rule took it (`Point.past_eq`).

The counter has 32 bits. `Text.toNat_add_lineCount` says which number it shows behind a text.
-/
import ScriptReader.Proofs.Taking
import ScriptReader.Scan

namespace ScriptReader

set_option autoImplicit false

namespace Text

variable {text : List Char}

theorem lineCount_of_not_mem (absent : '\n' ∉ text) : lineCount text = 0 := by
  rw [lineCount, lineFeeds_of_not_mem absent]
  rfl

theorem lineCount_of_visible (visible : ∀ c ∈ text, isBlank c = false) : lineCount text = 0 := by
  refine lineCount_of_not_mem fun member => ?_
  exact absurd (visible _ member) (by decide)

/-- The number of the line behind a text that begins on a line, as far as 32 bits go. -/
theorem toNat_add_lineCount (line : UInt32) (text : List Char) :
    (line + lineCount text).toNat = (line.toNat + lineFeeds text) % 2 ^ 32 := by
  rw [lineCount, UInt32.toNat_add, UInt32.toNat_ofNat', Nat.add_mod_mod]

end Text

namespace Lexeme

/-- Each rule moves down by the line feeds of its piece. -/
theorem Rule.lines_eq {rule : Rule} {input lexeme : List Char}
    (taken : rule.lexeme? input = some lexeme) : rule.lines lexeme = Text.lineCount lexeme := by
  obtain ⟨rest, -, fits⟩ := Rule.lexeme?_eq_some_iff.mp taken
  cases rule with
  | blank | closedText => rfl
  | comment =>
      -- The line feed of a comment, if it has one, is its last character.
      obtain ⟨body, absent, rfl | ⟨rfl, -⟩⟩ := fits
      · have front : '\n' ∉ '/' :: '/' :: body := by simpa using absent
        rw [lines, List.getLast?_concat, if_pos rfl, Text.lineCount_append,
          Text.lineCount_of_not_mem front]
        rfl
      · have whole : '\n' ∉ '/' :: '/' :: body := by simpa using absent
        have other : ('/' :: '/' :: body).getLast? ≠ some '\n' :=
          fun last => whole (List.mem_of_getLast? last)
        rw [lines, if_neg other, Text.lineCount_of_not_mem whole]
  | openText =>
      subst fits
      rfl
  | number => exact (Text.lineCount_of_visible fits.isNumeral.visible).symm
  | word => exact (Text.lineCount_of_visible fits.1.visible).symm
  | fixed sign =>
      have visible : ∀ c ∈ lexeme, Text.isBlank c = false := by
        rw [show lexeme = sign.pattern.toList from fits]
        exact fun c member => (visible_of_spelling? sign.spelling_eq c member).1
      exact (Text.lineCount_of_visible visible).symm

end Lexeme

/-- Whichever rule took the piece, the scanner goes behind it, by its bytes and line feeds. -/
theorem Scan.Point.past_eq {point : Point} {rule : Lexeme.Rule} {lexeme rest : List Char}
    (taken : rule.lexeme? point.rest = some lexeme) (whole : point.rest = lexeme ++ rest) :
    point.past rule lexeme =
      ⟨point.offset + Text.byteSize lexeme, point.line + Text.lineCount lexeme, rest⟩ := by
  change Point.mk (point.offset + rule.bytes lexeme) (point.line + rule.lines lexeme)
    (point.past rule lexeme).rest = _
  rw [Point.past_rest taken whole, Lexeme.Rule.bytes_eq taken, Lexeme.Rule.lines_eq taken]

end ScriptReader
