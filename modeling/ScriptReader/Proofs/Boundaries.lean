/- # ScriptReader.Proofs.Boundaries — the scanner moves by whole characters

Offsets count bytes, and a text can only be cut where a character begins or the text ends.
`Text.IsSlice` says what stands between two offsets; there is something exactly if both are
such boundaries, in order (`exists_isSlice_iff`).

Wherever the scanner stands, it stands on a boundary (`Scan.Point.OnBoundary`): it begins on
one, and a step that is not refused takes a piece that is not empty and goes to the next one
(`Scan.Point.OnBoundary.step`). So a free cursor at the same offset always has a text ahead,
what is cut out of a piece or behind it is there (`Scan.Point.Sliced`), and no run has more
steps than the text has bytes (`Scan.count_le_offset`).
-/
import ScriptReader.Proofs.LineIndex
import ScriptReader.Source.Cursor

namespace ScriptReader

set_option autoImplicit false

/-! ## Slices -/

namespace Text

variable {text before part behind rest : List Char} {offset first last : Nat}

/-- Every character takes a byte, so only the empty text takes none. -/
theorem byteSize_eq_zero_iff : byteSize text = 0 ↔ text = [] := by
  cases text with
  | nil => simp [byteSize_nil]
  | cons c text =>
      have positive := Char.utf8Size_pos c
      simp only [byteSize_cons, reduceCtorEq, iff_false]
      omega

/-- An offset leads to the text behind exactly as many bytes. -/
theorem afterBytes?_eq_some_iff : afterBytes? offset text = some rest ↔
    ∃ before, text = before ++ rest ∧ byteSize before = offset := by
  constructor
  · intro found
    induction text generalizing offset with
    | nil =>
        cases offset with
        | zero =>
            cases found
            exact ⟨[], rfl, rfl⟩
        | succ offset => cases found
    | cons c text ih =>
        cases offset with
        | zero =>
            cases found
            exact ⟨[], rfl, rfl⟩
        | succ offset =>
            rw [afterBytes?] at found
            split at found
            · obtain ⟨before, rfl, size⟩ := ih found
              refine ⟨c :: before, rfl, ?_⟩
              rw [byteSize_cons]
              omega
            · cases found
  · rintro ⟨before, rfl, rfl⟩
    exact afterBytes?_append before rest

/-- What stands in a text between two byte offsets. -/
def IsSlice (text : List Char) (first last : Nat) (part : List Char) : Prop :=
  ∃ before behind, text = before ++ part ++ behind ∧ byteSize before = first ∧
    byteSize (before ++ part) = last

/-- The offset of the first character of a class. -/
def offsetOf? (inside : Char → Bool) : List Char → Option Nat
  | [] => none
  | c :: rest => if inside c then some 0 else (offsetOf? inside rest).map (c.utf8Size + ·)

/-- The first character of a class, or the end of the text, stands behind the characters that
are not of the class. -/
theorem getD_offsetOf? (inside : Char → Bool) (text : List Char) :
    (offsetOf? inside text).getD (byteSize text) = byteSize (text.takeWhile (!inside ·)) := by
  induction text with
  | nil => rfl
  | cons c text ih =>
      rw [offsetOf?, List.takeWhile_cons]
      cases here : inside c with
      | true => rfl
      | false =>
          simp only [Bool.false_eq_true, if_false, Bool.not_false, if_true, byteSize_cons, ← ih]
          cases offsetOf? inside text <;> rfl

/-- Of two beginnings of a text, the one of fewer bytes begins the other. -/
theorem exists_append_of_byteSize_le {before' behind' : List Char}
    (same : before ++ behind = before' ++ behind') (le : byteSize before ≤ byteSize before') :
    ∃ part, before' = before ++ part ∧ behind = part ++ behind' := by
  rcases List.append_eq_append_iff.mp same with ⟨part, longer, shorter⟩ | ⟨part, longer, shorter⟩
  · exact ⟨part, longer, shorter⟩
  · rw [longer, byteSize_append] at le
    obtain rfl : part = [] := byteSize_eq_zero_iff.mp (by omega)
    exact ⟨[], by simpa using longer.symm, by simpa using shorter.symm⟩

end Text

open Text (IsSlice byteSize)

section Boundaries

variable {source : String} {offset first last : Nat}

/-- An offset is a boundary if so many bytes of the text are characters of it. -/
theorem isValid_iff_exists_append : String.Pos.Raw.IsValid source ⟨offset⟩ ↔
    ∃ before behind, source.toList = before ++ behind ∧ byteSize before = offset := by
  rw [String.Pos.Raw.isValid_iff_exists_append]
  constructor
  · rintro ⟨before, behind, rfl, same⟩
    refine ⟨before.toList, behind.toList, String.toList_append, ?_⟩
    rw [byteSize_toList]
    exact (congrArg String.Pos.Raw.byteIdx same).symm
  · rintro ⟨before, behind, whole, rfl⟩
    refine ⟨String.ofList before, String.ofList behind, ?_, ?_⟩
    · rw [← String.ofList_append, ← whole, String.ofList_toList]
    · rw [String.Pos.Raw.ext_iff, String.byteIdx_rawEndPos, ← byteSize_toList, String.toList_ofList]

/-- Something stands between two offsets exactly if both are boundaries, in order. -/
theorem exists_isSlice_iff : (∃ part, IsSlice source.toList first last part) ↔
    first ≤ last ∧ String.Pos.Raw.IsValid source ⟨first⟩ ∧
      String.Pos.Raw.IsValid source ⟨last⟩ := by
  simp only [isValid_iff_exists_append]
  constructor
  · rintro ⟨part, before, behind, whole, rfl, rfl⟩
    refine ⟨?_, ⟨before, part ++ behind, by rw [whole, List.append_assoc], rfl⟩,
      ⟨before ++ part, behind, whole, rfl⟩⟩
    rw [Text.byteSize_append]
    exact Nat.le_add_right _ _
  · rintro ⟨le, ⟨before, _, whole, rfl⟩, ⟨before', behind, whole', rfl⟩⟩
    obtain ⟨part, rfl, -⟩ := Text.exists_append_of_byteSize_le (whole.symm.trans whole') le
    exact ⟨part, before, behind, whole', rfl, rfl⟩

end Boundaries

/-! ## Points and steps -/

namespace Scan

open Lexeme (Rule first? first?_isPrefix startsWord continuesWord)

/-- The point stands between two characters of the source, or at one of its ends, in front of
the text from there on. -/
structure Point.OnBoundary (source : String) (point : Point) : Prop where
  isValid : String.Pos.Raw.IsValid source ⟨point.offset⟩
  le_size : point.offset ≤ source.utf8ByteSize
  remainder : IsSlice source.toList point.offset source.utf8ByteSize point.rest

variable {source : String} {point next last : Point} {found : List Token}

theorem Point.onBoundary_iff : point.OnBoundary source ↔
    ∃ before, source.toList = before ++ point.rest ∧ byteSize before = point.offset := by
  constructor
  · rintro ⟨-, -, before, behind, whole, offset, size⟩
    rw [← byteSize_toList, whole, Text.byteSize_append (before ++ point.rest)] at size
    obtain rfl : behind = [] := Text.byteSize_eq_zero_iff.mp (by omega)
    exact ⟨before, by simpa using whole, offset⟩
  · rintro ⟨before, whole, offset⟩
    have slice : IsSlice source.toList point.offset source.utf8ByteSize point.rest :=
      ⟨before, [], by simpa using whole, offset, by rw [← whole, byteSize_toList]⟩
    obtain ⟨le, isValid, -⟩ := exists_isSlice_iff.mp ⟨_, slice⟩
    exact ⟨isValid, le, slice⟩

theorem Point.onBoundary_start (source : String) : (Point.start source.toList).OnBoundary source :=
  Point.onBoundary_iff.mpr ⟨[], rfl, rfl⟩

/-- A step that is not refused goes on to another boundary. -/
theorem Point.OnBoundary.step {token : Option Token} (boundary : point.OnBoundary source)
    (stepped : Scan.step point = .ok (token, next)) :
    next.OnBoundary source ∧ point.offset < next.offset := by
  obtain ⟨before, whole, offset⟩ := Point.onBoundary_iff.mp boundary
  obtain ⟨rule, lexeme, rest, same, taken, -, rfl⟩ := step_eq_ok_iff.mp stepped
  constructor
  · refine Point.onBoundary_iff.mpr ⟨before ++ lexeme, ?_, ?_⟩
    · rw [whole, same, List.append_assoc]
    · rw [Text.byteSize_append, offset]
  · have nonempty : byteSize lexeme ≠ 0 := mt Text.byteSize_eq_zero_iff.mp (first?_isPrefix taken).2
    exact Nat.lt_add_of_pos_right (Nat.pos_of_ne_zero nonempty)

/-- Wherever steps lead, there is a boundary. -/
theorem Reaches.onBoundary {point : Point} (reaches : Reaches point found last)
    (boundary : point.OnBoundary source) : last.OnBoundary source := by
  induction reaches with
  | here point => exact boundary
  | further stepped more ih => exact ih (boundary.step stepped).1

/-- A run has no more steps than the bytes that it passes. -/
theorem count_le_offset {points : Nat → Point} {count : Nat}
    (boundary : (points 0).OnBoundary source)
    (steps : ∀ i < count, ∃ token, step (points i) = .ok (token, points (i + 1))) :
    (points count).OnBoundary source ∧ count ≤ (points count).offset := by
  induction count with
  | zero => exact ⟨boundary, Nat.zero_le _⟩
  | succ count ih =>
      obtain ⟨here, le⟩ := ih fun i less => steps i (Nat.lt_succ_of_lt less)
      obtain ⟨token, stepped⟩ := steps count (Nat.lt_succ_self count)
      obtain ⟨there, less⟩ := here.step stepped
      exact ⟨there, by omega⟩

end Scan

/-! ## Pieces that are taken apart -/

namespace Scan

open Lexeme (Rule first? startsWord continuesWord)

/-- The word that a number runs into ends in front of the first character that goes on with no
word, or at the end of the text. -/
def wordEnd (text : List Char) : Nat :=
  (Text.offsetOf? (!continuesWord ·) text).getD (byteSize text)

/-- What the piece at the point and the text behind it are cut into is there. A text literal
is cut behind its first quote and in front of its last one; behind a number the rest of the text
is cut off, and of that the word that the number runs into. -/
structure Point.Sliced (point : Point) : Prop where
  text : ∀ lexeme, first? point.rest = some (.closedText, lexeme) →
    ∃ content, IsSlice lexeme 1 (byteSize lexeme - 1) content ∧
      step point = .ok (some ⟨.text, String.ofList content⟩, point.past .closedText lexeme)
  number : ∀ lexeme, first? point.rest = some (.number, lexeme) →
    ∃ behind word, IsSlice point.rest (byteSize lexeme) (byteSize point.rest) behind ∧
      IsSlice behind 0 (wordEnd behind) word ∧
      step point =
        if (behind.take 1).any startsWord then
          .error ⟨.malformedNumber (String.ofList (lexeme ++ word)), point.place⟩
        else .ok (some ⟨.number, String.ofList lexeme⟩, point.past .number lexeme)

theorem Point.sliced (point : Point) : point.Sliced where
  text := by
    intro lexeme taken
    obtain ⟨-, matched, -⟩ := Lexeme.first?_eq_some_iff.mp taken
    obtain ⟨rest, whole, content, -, rfl⟩ := Lexeme.Rule.lexeme?_eq_some_iff.mp matched
    have quote : '"'.utf8Size = 1 := by decide
    refine ⟨content, ⟨['"'], ['"'], rfl, quote, ?_⟩, ?_⟩
    · simp only [List.cons_append, Text.byteSize_cons, Text.byteSize_append, quote,
        Text.byteSize_nil, List.nil_append]
      omega
    · simp only [step, taken, Rule.token?]
      simp
  number := by
    intro lexeme taken
    obtain ⟨-, matched, -⟩ := Lexeme.first?_eq_some_iff.mp taken
    obtain ⟨behind, whole, -⟩ := Lexeme.Rule.lexeme?_eq_some_iff.mp matched
    have next : (point.past .number lexeme).rest = behind := Point.past_rest matched whole
    refine ⟨behind, behind.takeWhile continuesWord, ⟨lexeme, [], by simp [whole], rfl, by rw [whole]⟩,
      ⟨[], behind.dropWhile continuesWord, ?_, rfl, ?_⟩, ?_⟩
    · simp [List.takeWhile_append_dropWhile]
    · rw [wordEnd, Text.getD_offsetOf?]
      simp
    · simp only [step, taken, Rule.token?, next]
      cases (behind.take 1).any startsWord <;> rfl

end Scan

/-! ## Free cursors -/

/-- The free cursor stands in the source where the scanner does. -/
structure Source.Cursor.StandsAt (cursor : Source.Cursor) (source : String) (point : Scan.Point) :
    Prop where
  source_eq : cursor.source = source.toList
  offset_eq : cursor.offset.toNat = point.offset

namespace Source.Cursor.StandsAt

variable {source : String} {point next : Scan.Point} {cursor : Source.Cursor}

/-- It has the text ahead that the scanner has, and is at the end where the scanner is. -/
theorem remainder? (stands : cursor.StandsAt source point) (boundary : point.OnBoundary source) :
    cursor.remainder? = some point.rest ∧ (cursor.atEnd = true ↔ point.rest = []) := by
  obtain ⟨before, whole, offset⟩ := Scan.Point.onBoundary_iff.mp boundary
  rw [Cursor.remainder?, Cursor.atEnd, stands.source_eq, stands.offset_eq]
  refine ⟨Text.afterBytes?_eq_some_iff.mpr ⟨before, whole, offset⟩, ?_⟩
  rw [whole, Text.byteSize_append, offset, decide_eq_true_iff, ← Text.byteSize_eq_zero_iff]
  omega

/-- Moved by the bytes of the step, it stands where the scanner stands after it, in a text whose
offsets fit into a word. -/
theorem advance (stands : cursor.StandsAt source point) (next_le : point.offset ≤ next.offset)
    (boundary : next.OnBoundary source) (fits : source.utf8ByteSize < 2 ^ 64) :
    (cursor.advance (.ofNat (next.offset - point.offset))).StandsAt source next := by
  have le := boundary.le_size
  refine ⟨stands.source_eq, ?_⟩
  rw [Cursor.advance, UInt64.toNat_add, UInt64.toNat_ofNat', stands.offset_eq,
    Nat.mod_eq_of_lt (show next.offset - point.offset < 2 ^ 64 by omega)]
  omega

end Source.Cursor.StandsAt

/-! ## Main statement -/

/-- **The scanner moves by whole characters, and it ends.** Wherever it comes to, it stands on a
boundary, and a free cursor that stands there has its text ahead. Unless it is at the end, the
next step is refused or goes on to another boundary, and the free cursor goes there by as many
bytes; what is cut out of the text on the way is there. No run has more steps than the text has
bytes, and one leads to the end of the text or to the step that is refused. -/
theorem scanner_moves_by_whole_characters (source : String) :
    (∀ found point, Scan.Reaches (.start source.toList) found point →
      point.OnBoundary source ∧ point.Sliced ∧
      (∀ cursor : Source.Cursor, cursor.StandsAt source point →
        cursor.remainder? = some point.rest ∧ (cursor.atEnd = true ↔ point.rest = [])) ∧
      (point.rest ≠ [] →
        (∃ diagnostic, Scan.step point = .error diagnostic) ∨
        ∃ token next, Scan.step point = .ok (token, next) ∧ next.OnBoundary source ∧
          point.offset < next.offset ∧
          (source.utf8ByteSize < 2 ^ 64 → ∀ cursor : Source.Cursor, cursor.StandsAt source point →
            (cursor.advance (.ofNat (next.offset - point.offset))).StandsAt source next))) ∧
    (∀ (points : Nat → Scan.Point) (count : Nat), points 0 = .start source.toList →
      (∀ i < count, ∃ token, Scan.step (points i) = .ok (token, points (i + 1))) →
        count ≤ source.utf8ByteSize) ∧
    ∃ found last, Scan.Reaches (.start source.toList) found last ∧
      (last.rest = [] ∧ tokenize source = .ok (found ++ [.endOfInput]) ∨
        last.rest ≠ [] ∧ ∃ diagnostic, Scan.step last = .error diagnostic ∧
          tokenize source = .error diagnostic) := by
  have start := Scan.Point.onBoundary_start source
  refine ⟨?_, ?_, ?_⟩
  · intro found point reaches
    have boundary := reaches.onBoundary start
    refine ⟨boundary, point.sliced, fun cursor stands => stands.remainder? boundary, ?_⟩
    intro _
    cases stepped : Scan.step point with
    | error diagnostic => exact .inl ⟨diagnostic, rfl⟩
    | ok pair =>
        obtain ⟨token, next⟩ := pair
        obtain ⟨boundary', less⟩ := boundary.step stepped
        refine .inr ⟨token, next, rfl, boundary', less, ?_⟩
        intro fits cursor stands
        exact stands.advance (Nat.le_of_lt less) boundary' fits
  · intro points count begins steps
    obtain ⟨there, le⟩ := Scan.count_le_offset (begins ▸ start) steps
    exact Nat.le_trans le there.le_size
  · obtain ⟨found, last, reaches, stops⟩ := Scan.exists_reaches_stop (.start source.toList)
    refine ⟨found, last, reaches, ?_⟩
    by_cases none : last.rest = []
    · exact .inl ⟨none, tokenize_eq_ok_iff.mpr ⟨found, last, reaches, none, rfl⟩⟩
    · obtain ⟨diagnostic, refused⟩ := stops.resolve_left none
      exact .inr ⟨none, diagnostic, refused,
        tokenize_eq_error_iff.mpr ⟨found, last, reaches, none, refused⟩⟩

/-- In `"é" 1x` a letter of two bytes is cut out of its quotes, the free cursor goes behind them
by four bytes, and the word that the number runs into is cut off behind it. -/
theorem letter_and_word_cut_out :
    let source := "\"é\" 1x"
    let blank : Scan.Point := ⟨4, 1, [' ', '1', 'x']⟩
    let number : Scan.Point := ⟨5, 1, ['1', 'x']⟩
    (∃ content, IsSlice ['"', 'é', '"'] 1 3 content ∧
      Scan.step (.start source.toList) = .ok (some ⟨.text, String.ofList content⟩, blank)) ∧
    blank.OnBoundary source ∧ ((Source.Cursor.start source).advance 4).StandsAt source blank ∧
    ∃ behind word, IsSlice number.rest 1 2 behind ∧ IsSlice behind 0 (Scan.wordEnd behind) word := by
  intro source blank number
  have first : Scan.step (.start source.toList) = .ok (some ⟨.text, "é"⟩, blank) := by
    decide +kernel
  have second : Scan.step blank = .ok (none, number) := by decide +kernel
  have quoted : Lexeme.first? source.toList = some (.closedText, ['"', 'é', '"']) := by
    decide +kernel
  have numeral : Lexeme.first? number.rest = some (.number, ['1']) := by decide +kernel
  have past : (Scan.Point.start source.toList).past .closedText ['"', 'é', '"'] = blank := by
    decide +kernel
  have some : (Scan.Point.start source.toList).rest ≠ [] := by decide +kernel
  obtain ⟨run, -, -⟩ := scanner_moves_by_whole_characters source
  obtain ⟨-, sliced, -, moves⟩ := run _ _ (.here _)
  obtain ⟨-, sliced', -, -⟩ := run _ number (.further first (.further second (.here number)))
  obtain ⟨content, slice, stepped⟩ := sliced.text _ quoted
  obtain ⟨behind, word, rest, inside, -⟩ := sliced'.number _ numeral
  rw [past] at stepped
  rcases moves some with ⟨_, refused⟩ | ⟨token, next, stepped', boundary, -, advances⟩
  · rw [first] at refused
    cases refused
  · rw [first] at stepped'
    cases stepped'
    have stands := advances (by decide +kernel) (Source.Cursor.start source) ⟨rfl, rfl⟩
    exact ⟨⟨content, slice, stepped⟩, boundary, stands, behind, word, rest, inside⟩

end ScriptReader
