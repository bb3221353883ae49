/- # ScriptReader.Proofs.LineIndex — the line of any offset

Offsets count bytes, and any offset has a line, inside a character and on a line feed as
well. A cut of the text above and below a line (`IsLine`) says which line that is without
saying how it is found; the line feeds above a line tell it from all others
(`IsLine.unique`).

The search goes through the lines with their line feeds and stops at the first one that
reaches behind the offset; only at the end of the text it falls back on the last line.
Both ways give the line of one cut (`exists_spot_inside`, `exists_spot_end`), so one theorem
about the bytes of the text covers them (`line_of_every_offset`).

They differ in what they trim. The search takes the carriage returns from the end of the
line, the fallback leaves them there. So a text that ends in a carriage return shows its last
line with two texts (`texts_of_one_line`, `two_texts_of_one_line`).
-/
import ScriptReader.Proofs.Excerpts

namespace ScriptReader

set_option autoImplicit false

/-! ## The bytes of a text -/

namespace Text

/-- The bytes of the UTF-8 form of a text. -/
def bytes (text : List Char) : List UInt8 := text.flatMap String.utf8EncodeChar

/-- The byte of a line feed. -/
def lineFeed : UInt8 := 0x0a

/-- The byte of a carriage return. -/
def carriageReturn : UInt8 := 0x0d

theorem bytes_toList (source : String) : bytes source.toList = source.toUTF8.data.toList := by
  rw [String.toUTF8_eq_toByteArray, ← String.utf8Encode_toList, List.utf8Encode,
    List.data_toByteArray, bytes]

theorem bytes_cons (c : Char) (text : List Char) :
    bytes (c :: text) = String.utf8EncodeChar c ++ bytes text := List.flatMap_cons

theorem bytes_append (left right : List Char) :
    bytes (left ++ right) = bytes left ++ bytes right := List.flatMap_append

theorem length_bytes (text : List Char) : (bytes text).length = byteSize text := by
  induction text with
  | nil => rfl
  | cons c text ih =>
      rw [bytes_cons, List.length_append, String.length_utf8EncodeChar, ih, byteSize_cons]

/-- Only the line feed is written with the byte of a line feed. -/
theorem lineFeed_not_mem {c : Char} (other : c ≠ '\n') : lineFeed ∉ String.utf8EncodeChar c := by
  have code : c.val.toNat ≠ 10 := by
    intro same
    exact other (Char.ext (UInt32.toNat_inj.mp same))
  have ten : lineFeed.toNat = 10 := rfl
  intro member
  -- A character of one byte is written with its code, the bytes of the others are 128 and more.
  simp only [String.utf8EncodeChar] at member
  split_ifs at member <;>
    simp only [List.mem_cons, List.not_mem_nil, or_false, ← UInt8.toNat_inj,
      UInt8.toNat_ofNat', ten] at member <;>
    omega

theorem lineFeed_not_mem_bytes {text : List Char} (absent : '\n' ∉ text) :
    lineFeed ∉ bytes text := by
  intro member
  obtain ⟨c, inside, written⟩ := List.mem_flatMap.mp member
  exact lineFeed_not_mem (fun same => absent (same ▸ inside)) written

theorem count_lineFeed_bytes (text : List Char) : (bytes text).count lineFeed = lineFeeds text := by
  induction text with
  | nil => rfl
  | cons c text ih =>
      rw [bytes_cons, List.count_append, ih, lineFeeds, lineFeeds]
      by_cases feed : c = '\n'
      · subst feed
        rw [List.count_cons_self, Nat.add_comm]
        rfl
      · rw [List.count_eq_zero.mpr (lineFeed_not_mem feed), List.count_cons_of_ne feed,
          Nat.zero_add]

theorem bytes_replicate_return (count : Nat) :
    bytes (List.replicate count '\r') = List.replicate count carriageReturn := by
  induction count with
  | zero => rfl
  | succ count ih =>
      rw [List.replicate_succ, bytes_cons, ih]
      rfl

end Text

namespace Source

open Text (byteSize lineFeeds trimEnd EndsRun bytes lineFeed carriageReturn)

variable {source above line below above' line' below' : List Char} {number offset : Nat}

/-! ## Lines as cuts -/

namespace IsLine

/-- Of a line and what follows it, the line is what comes in front of the next line feed. -/
theorem takeWhile_eq (isLine : IsLine source above line below) :
    (line ++ below).takeWhile (· ≠ '\n') = line := by
  have ends : EndsRun (· ≠ '\n') below := by
    intro c more begins
    have feed : c = '\n' := isLine.ends c (by rw [begins]; rfl)
    exact decide_eq_false (not_not.mpr feed)
  exact Text.takeWhile_run (Lexeme.run_of_not_mem isLine.oneLine) ends

/-- Between two places where lines begin there is a line feed, unless they are the same. -/
theorem between_eq_nil {between : List Char} (starts : ∀ c ∈ (above ++ between).getLast?, c = '\n')
    (sameNumber : lineFeeds (above ++ between) = lineFeeds above) : between = [] := by
  cases last : between.getLast? with
  | none => exact List.getLast?_eq_none_iff.mp last
  | some c =>
      have feed : c = '\n' := starts c (by rw [List.getLast?_append, last]; rfl)
      have member : '\n' ∈ between := feed ▸ List.mem_of_getLast? last
      have counted : 0 < lineFeeds between := List.count_pos_iff.mpr member
      rw [Text.lineFeeds_append] at sameNumber
      omega

/-- A line has a number of its own: no other line has as many line feeds above it. -/
theorem unique (isLine : IsLine source above line below)
    (isLine' : IsLine source above' line' below')
    (sameNumber : lineFeeds above = lineFeeds above') : line = line' := by
  have whole : above ++ (line ++ below) = above' ++ (line' ++ below') := by
    rw [← List.append_assoc, ← List.append_assoc, ← isLine.whole, isLine'.whole]
  have rest : line ++ below = line' ++ below' := by
    rcases List.append_eq_append_iff.mp whole with ⟨between, rfl, same⟩ | ⟨between, rfl, same⟩
    · rw [same, between_eq_nil isLine'.starts sameNumber.symm, List.nil_append]
    · rw [same, between_eq_nil isLine.starts sameNumber, List.nil_append]
  rw [← isLine.takeWhile_eq, rest, isLine'.takeWhile_eq]

/-- A text ends in a carriage return if its last line does. -/
theorem getLast?_return_iff (isLine : IsLine source above line []) :
    source.getLast? = some '\r' ↔ line.getLast? = some '\r' := by
  rw [isLine.whole, List.append_nil, List.getLast?_append]
  cases last : line.getLast? with
  | some c => rfl
  | none =>
      refine iff_of_false ?_ (by simp)
      intro ends
      exact absurd (isLine.starts '\r' ends) (by decide)

/-- A line is what is left of it and the carriage returns that are trimmed from its end. -/
theorem exists_returns (isLine : IsLine source above line below) :
    ∃ count, line = trimEnd isLineEnd line ++ List.replicate count '\r' ∧
      (trimEnd isLineEnd line).getLast? ≠ some '\r' := by
  obtain ⟨trimmed, split, dropped, kept⟩ := Text.exists_trimmed isLineEnd line
  have returns : ∀ c ∈ trimmed, c = '\r' := by
    intro c member
    have inLine : c ∈ line := by
      rw [split]
      exact List.mem_append_right _ member
    have isEnd : c = '\n' ∨ c = '\r' := by simpa [isLineEnd] using dropped c member
    exact isEnd.resolve_left fun feed => isLine.oneLine (feed ▸ inLine)
  refine ⟨trimmed.length, ?_, fun last => absurd (kept '\r' last) (by decide)⟩
  rw [← List.eq_replicate_of_mem returns]
  exact split

end IsLine

/-! ## The line of an offset -/

/-- An offset in front of the end of a text lies in one of its characters. -/
theorem exists_character (short : offset < byteSize source) :
    ∃ before c rest within, source = before ++ c :: rest ∧ within < c.utf8Size ∧
      offset = byteSize before + within := by
  induction source generalizing offset with
  | nil => exact absurd short (Nat.not_lt_zero offset)
  | cons c rest ih =>
      by_cases here : offset < c.utf8Size
      · exact ⟨[], c, rest, offset, rfl, here, (Nat.zero_add offset).symm⟩
      · obtain ⟨further, rfl⟩ := Nat.exists_eq_add_of_le (Nat.not_lt.mp here)
        rw [Text.byteSize_cons] at short
        have short : further < byteSize rest := by omega
        obtain ⟨before, d, rest, within, rfl, inside, rfl⟩ := ih short
        exact ⟨c :: before, d, rest, within, rfl, inside, by rw [Text.byteSize_cons, Nat.add_assoc]⟩

/-- The search finds nothing at the end of the text. -/
theorem spotIn?_byteSize (source : List Char) (number : Nat) :
    spotIn? number (byteSize source) (lines source) = none := by
  induction source using lines_induction generalizing number with
  | last head absent =>
      cases head with
      | nil => rfl
      | cons c head =>
          rw [lines_last (by simp) absent]
          exact spotIn?_next number 0 (c :: head) []
  | above head rest absent ih =>
      have size : byteSize (head ++ '\n' :: rest) = byteSize (head ++ ['\n']) + byteSize rest := by
        rw [← Text.byteSize_append, List.append_assoc, List.singleton_append]
      rw [lines_feed absent, size, spotIn?_next, ih]

/-- A spot tells the line of an offset: the line by its number, the offset within it, and the
text of the line, trimmed unless the offset is the end of the text. -/
structure IsSpotOf (source : List Char) (offset : Nat) (spot : Spot)
    (above line below : List Char) : Prop extends IsLine source above line below where
  behindStart : byteSize above ≤ offset
  beforeEnd : offset ≤ byteSize (above ++ line)
  number : spot.line = 1 + lineFeeds above
  column : spot.column = offset - byteSize above
  trimmed : offset < byteSize source → spot.text = trimEnd isLineEnd line
  untrimmed : offset = byteSize source → spot.text = line

/-- The spot of an offset in front of the end is the one of the character there. -/
theorem exists_spot_inside (short : offset < byteSize source) :
    ∃ spot above line below, lineAt? source offset = some spot ∧
      IsSpotOf source offset spot above line below := by
  obtain ⟨before, c, rest, within, rfl, inside, rfl⟩ := exists_character short
  obtain ⟨above, below, front, absent, isLine⟩ := exists_isLine before c rest
  obtain ⟨size, feeds⟩ := measures_above front absent
  have inLine : within ≤ byteSize ((c :: rest).takeWhile (· ≠ '\n')) := by
    by_cases feed : c = '\n'
    · subst feed
      exact Nat.le_trans (Nat.le_of_lt_succ inside) (Nat.zero_le _)
    · have visible : decide (c ≠ '\n') = true := decide_eq_true feed
      rw [List.takeWhile_cons, if_pos visible, Text.byteSize_cons]
      omega
  have start : byteSize before + within - byteSize above =
      byteSize (lastLine before) + within := by
    omega
  refine ⟨_, above, _, below, lineAt?_eq inside before rest, isLine, by omega, ?_, by rw [feeds],
    start.symm, fun _ => rfl, fun atEnd => absurd atEnd short.ne⟩
  rw [Text.byteSize_append, Text.byteSize_append]
  omega

/-- The spot of the end is on the last line, wherever that begins. -/
theorem exists_spot_end (source : List Char) :
    ∃ spot above line below, lineAt? source (byteSize source) = some spot ∧
      IsSpotOf source (byteSize source) spot above line below := by
  obtain ⟨above, front, starts, absent⟩ := exists_above source
  obtain ⟨size, feeds⟩ := measures_above front absent
  have isLine : IsLine source above (lastLine source) [] :=
    ⟨by rw [List.append_nil]; exact front, starts, absent, by simp⟩
  refine ⟨endSpot source, above, lastLine source, [], ?_, isLine, by omega, ?_, ?_, ?_,
    fun short => absurd short (Nat.lt_irrefl _), fun _ => rfl⟩
  · rw [lineAt?, if_neg (Nat.lt_irrefl _), spotIn?_byteSize]
    rfl
  · rw [Text.byteSize_append, size]
  · rw [endSpot, feeds, Nat.add_comm]
  · rw [endSpot, size, Nat.add_sub_cancel_left]

theorem lineAt?_eq_none_iff : lineAt? source offset = none ↔ byteSize source < offset := by
  rw [lineAt?]
  split <;> simp_all

/-- The spot that is found for an offset. -/
theorem isSpotOf_of_lineAt? {spot : Spot} (found : lineAt? source offset = some spot) :
    offset ≤ byteSize source ∧
      ∃ above line below, IsSpotOf source offset spot above line below := by
  have within : offset ≤ byteSize source := by
    by_contra behind
    rw [lineAt?_eq_none_iff.mpr (Nat.not_le.mp behind)] at found
    cases found
  have exists_spot : ∃ spot above line below, lineAt? source offset = some spot ∧
      IsSpotOf source offset spot above line below := by
    rcases within.lt_or_eq with short | rfl
    · exact exists_spot_inside short
    · exact exists_spot_end source
  obtain ⟨spot', above, line, below, found', isSpot⟩ := exists_spot
  obtain rfl : spot' = spot := Option.some.inj (found'.symm.trans found)
  exact ⟨within, above, line, below, isSpot⟩

/-! ## Bytes around an offset -/

/-- Bytes are cut at an offset, at the line feed in front of it and at the one behind it. -/
structure BytesAround (bytes : List UInt8) (offset : Nat)
    (above inFront behind below : List UInt8) : Prop where
  whole : bytes = above ++ inFront ++ behind ++ below
  place : offset = (above ++ inFront).length
  starts : ∀ b ∈ above.getLast?, b = lineFeed
  oneLine : lineFeed ∉ inFront ++ behind
  ends : ∀ b ∈ below.head?, b = lineFeed

namespace IsSpotOf

variable {spot spot' : Spot}

theorem offset_eq (isSpot : IsSpotOf source offset spot above line below) :
    offset = byteSize above + spot.column := by
  have column := isSpot.column
  have behindStart := isSpot.behindStart
  omega

/-- The bytes around an offset are those of the line and of what stands above and below it. -/
theorem bytesAround (isSpot : IsSpotOf source offset spot above line below) :
    BytesAround (bytes source) offset (bytes above) ((bytes line).take spot.column)
      ((bytes line).drop spot.column) (bytes below) := by
  have place := isSpot.offset_eq
  have beforeEnd := isSpot.beforeEnd
  rw [Text.byteSize_append] at beforeEnd
  refine ⟨?_, ?_, ?_, ?_, ?_⟩
  · rw [List.append_assoc (bytes above), List.take_append_drop, ← Text.bytes_append,
      ← Text.bytes_append, ← isSpot.whole]
  · rw [List.length_append, List.length_take, Text.length_bytes, Text.length_bytes]
    omega
  · intro b last
    rcases above.eq_nil_or_concat with rfl | ⟨front, c, rfl⟩
    · cases last
    · obtain rfl : c = '\n' := isSpot.starts c (by simp)
      have feed : bytes ['\n'] = [lineFeed] := rfl
      rw [List.concat_eq_append, Text.bytes_append, feed, List.getLast?_concat] at last
      exact (Option.some.inj last).symm
  · rw [List.take_append_drop]
    exact Text.lineFeed_not_mem_bytes isSpot.oneLine
  · intro b first
    cases below with
    | nil => cases first
    | cons c below =>
        obtain rfl : c = '\n' := isSpot.ends c rfl
        exact (Option.some.inj first).symm

/-- At the end of the text the line is the last one. -/
theorem below_eq_nil (isSpot : IsSpotOf source (byteSize source) spot above line below) :
    below = [] := by
  have beforeEnd := isSpot.beforeEnd
  conv at beforeEnd => lhs; rw [isSpot.whole, Text.byteSize_append]
  have nothing : byteSize below = 0 := by omega
  have short := Text.length_le_byteSize below
  exact List.eq_nil_of_length_eq_zero (by omega)

/-- The text of a spot is part of one line. -/
theorem lineFeed_not_mem_text (isSpot : IsSpotOf source offset spot above line below)
    (within : offset ≤ byteSize source) : '\n' ∉ spot.text := by
  rcases within.lt_or_eq with short | atEnd
  · obtain ⟨count, split, -⟩ := isSpot.exists_returns
    rw [isSpot.trimmed short]
    intro member
    refine isSpot.oneLine ?_
    rw [split]
    exact List.mem_append_left _ member
  · rw [isSpot.untrimmed atEnd]
    exact isSpot.oneLine

/-- The text of a spot is the line, but for the carriage returns at its end. -/
theorem trimEnd_text (isSpot : IsSpotOf source offset spot above line below)
    (within : offset ≤ byteSize source) :
    trimEnd isLineEnd spot.text = trimEnd isLineEnd line := by
  rcases within.lt_or_eq with short | atEnd
  · rw [isSpot.trimmed short, Text.trimEnd_trimEnd (fun _ => id)]
  · rw [isSpot.untrimmed atEnd]

/-- The text of a spot ends in a carriage return exactly at the end of a source that ends in one. -/
theorem text_ends_in_return_iff (isSpot : IsSpotOf source offset spot above line below)
    (within : offset ≤ byteSize source) :
    spot.text.getLast? = some '\r' ↔ offset = byteSize source ∧ source.getLast? = some '\r' := by
  rcases within.lt_or_eq with short | rfl
  · obtain ⟨count, -, kept⟩ := isSpot.exists_returns
    rw [isSpot.trimmed short]
    exact iff_of_false kept fun ⟨atEnd, _⟩ => short.ne atEnd
  · obtain rfl := isSpot.below_eq_nil
    rw [isSpot.untrimmed rfl, isSpot.getLast?_return_iff]
    simp

/-- The text of a spot is the line without the carriage returns at its end, unless there are some
and the offset is the end of the text. -/
theorem text_eq (isSpot : IsSpotOf source offset spot above line below)
    (within : offset ≤ byteSize source)
    (noReturn : source.getLast? = some '\r' → offset ≠ byteSize source) :
    spot.text = trimEnd isLineEnd line := by
  rcases within.lt_or_eq with short | rfl
  · exact isSpot.trimmed short
  · obtain rfl := isSpot.below_eq_nil
    obtain ⟨count, split, kept⟩ := isSpot.exists_returns
    have zero : count = 0 := by
      by_contra more
      refine noReturn (isSpot.getLast?_return_iff.mpr ?_) rfl
      rw [split, List.getLast?_append, List.getLast?_replicate, if_neg more]
      rfl
    rw [isSpot.untrimmed rfl]
    conv => lhs; rw [split, zero]
    exact List.append_nil _

end IsSpotOf

end Source

open Source (lineAt? Spot BytesAround isLineEnd)
open Text (bytes lineFeed carriageReturn trimEnd)

theorem byteSize_toList (source : String) : Text.byteSize source.toList = source.utf8ByteSize := by
  rw [← Text.length_bytes, Text.bytes_toList]
  rfl

/-- **Every offset of a text is found on its line.** Only an offset behind the end has no spot. The
number counts the line feeds among the bytes in front of the offset, the column leads back to the
last of them, and the text is the line of the offset up to the next line feed: without the
carriage returns at its end where the offset is not the end of the text. -/
theorem line_of_every_offset (source : String) (offset : Nat) :
    (lineAt? source.toList offset = none ↔ source.utf8ByteSize < offset) ∧
      ∀ spot, lineAt? source.toList offset = some spot →
        ∃ above inFront behind below,
          BytesAround source.toUTF8.data.toList offset above inFront behind below ∧
          spot.line = 1 + (source.toUTF8.data.toList.take offset).count lineFeed ∧
          spot.column = inFront.length ∧ offset - spot.column = above.length ∧
          (offset < source.utf8ByteSize →
            ∃ count, inFront ++ behind = bytes spot.text ++ List.replicate count carriageReturn ∧
              spot.text.getLast? ≠ some '\r') ∧
          (offset = source.utf8ByteSize → inFront ++ behind = bytes spot.text) := by
  rw [← Text.bytes_toList, ← byteSize_toList]
  refine ⟨Source.lineAt?_eq_none_iff, ?_⟩
  intro spot found
  obtain ⟨-, above, line, below, isSpot⟩ := Source.isSpotOf_of_lineAt? found
  have around := isSpot.bytesAround
  have place := isSpot.offset_eq
  have inLine := isSpot.beforeEnd
  rw [Text.byteSize_append] at inLine
  have column : ((bytes line).take spot.column).length = spot.column := by
    rw [List.length_take, Text.length_bytes]
    omega
  have number : ((bytes source.toList).take offset).count lineFeed = Text.lineFeeds above := by
    have absent : lineFeed ∉ (bytes line).take spot.column := fun member =>
      around.oneLine (List.mem_append_left _ member)
    conv => lhs; rw [around.whole, List.append_assoc, List.take_left' around.place.symm]
    rw [List.count_append, List.count_eq_zero.mpr absent, Text.count_lineFeed_bytes, Nat.add_zero]
  refine ⟨_, _, _, _, around, ?_, column.symm, ?_, ?_, ?_⟩
  · rw [isSpot.number, number]
  · rw [Text.length_bytes]
    omega
  · intro short
    obtain ⟨count, split, kept⟩ := isSpot.exists_returns
    rw [List.take_append_drop, isSpot.trimmed short]
    refine ⟨count, ?_, kept⟩
    conv => lhs; rw [split, Text.bytes_append, Text.bytes_replicate_return]
  · intro atEnd
    rw [List.take_append_drop, isSpot.untrimmed atEnd]

/-- Inside the letter of two bytes on the second line, which ends in two carriage returns. -/
theorem line_of_offset_inside_letter :
    let bytes := "a\nbé\r\r\nc".toUTF8.data.toList
    lineAt? "a\nbé\r\r\nc".toList 4 = some ⟨2, ['b', 'é'], 2⟩ ∧
      ∃ above inFront behind below count, BytesAround bytes 4 above inFront behind below ∧
        2 = 1 + (bytes.take 4).count lineFeed ∧ 2 = inFront.length ∧ 4 - 2 = above.length ∧
        inFront ++ behind = Text.bytes ['b', 'é'] ++ List.replicate count carriageReturn := by
  intro bytes
  have found : lineAt? "a\nbé\r\r\nc".toList 4 = some ⟨2, ['b', 'é'], 2⟩ := by decide +kernel
  obtain ⟨above, inFront, behind, below, around, number, column, start, shown, -⟩ :=
    (line_of_every_offset "a\nbé\r\r\nc" 4).2 _ found
  obtain ⟨count, line, -⟩ := shown (by decide +kernel)
  exact ⟨found, above, inFront, behind, below, count, around, number, column, start, line⟩

/-- **A line has one text, but for carriage returns at the end of the input.** The text of a line
has no line feed, and two spots with the same line number have the same text but for carriage
returns at its end. These are left only at the end of a text that ends in one: the two texts
differ if and only if just one of the offsets is there. -/
theorem texts_of_one_line {source : String} {offset offset' : Nat} {spot spot' : Spot}
    (found : lineAt? source.toList offset = some spot)
    (found' : lineAt? source.toList offset' = some spot') (sameLine : spot.line = spot'.line) :
    '\n' ∉ spot.text ∧
      (spot.text.getLast? = some '\r' ↔
        offset = source.utf8ByteSize ∧ source.toList.getLast? = some '\r') ∧
      trimEnd isLineEnd spot.text = trimEnd isLineEnd spot'.text ∧
      (spot.text = spot'.text ↔ (source.toList.getLast? = some '\r' →
        (offset = source.utf8ByteSize ↔ offset' = source.utf8ByteSize))) := by
  rw [← byteSize_toList]
  obtain ⟨within, above, line, below, isSpot⟩ := Source.isSpotOf_of_lineAt? found
  obtain ⟨within', above', line', below', isSpot'⟩ := Source.isSpotOf_of_lineAt? found'
  have number := isSpot.number
  have number' := isSpot'.number
  obtain rfl : line = line' := isSpot.unique isSpot'.toIsLine (by omega)
  have ends := isSpot.text_ends_in_return_iff within
  have ends' := isSpot'.text_ends_in_return_iff within'
  refine ⟨isSpot.lineFeed_not_mem_text within, ends, ?_, ?_, ?_⟩
  · rw [isSpot.trimEnd_text within, isSpot'.trimEnd_text within']
  · intro sameText inReturn
    rw [sameText, ends'] at ends
    simpa [inReturn] using ends.symm
  · intro together
    by_cases left : source.toList.getLast? = some '\r' ∧ offset = Text.byteSize source.toList
    · rw [isSpot.untrimmed left.2, isSpot'.untrimmed ((together left.1).mp left.2)]
    · have kept : source.toList.getLast? = some '\r' → offset ≠ Text.byteSize source.toList :=
        not_and.mp left
      rw [isSpot.text_eq within kept, isSpot'.text_eq within' fun inReturn =>
        mt (together inReturn).mpr (kept inReturn)]

/-- The two ways to look up the last line of a text that ends in a carriage return. -/
theorem texts_of_last_line :
    let source := "a\nbc\r"
    lineAt? source.toList 2 = some ⟨2, ['b', 'c'], 0⟩ ∧
      lineAt? source.toList 5 = some ⟨2, ['b', 'c', '\r'], 3⟩ ∧
      trimEnd isLineEnd ['b', 'c'] = trimEnd isLineEnd ['b', 'c', '\r'] ∧
      ¬ (source.toList.getLast? = some '\r' →
        (2 = source.utf8ByteSize ↔ 5 = source.utf8ByteSize)) := by
  intro source
  have found : lineAt? source.toList 2 = some ⟨2, ['b', 'c'], 0⟩ := by decide +kernel
  have found' : lineAt? source.toList 5 = some ⟨2, ['b', 'c', '\r'], 3⟩ := by decide +kernel
  obtain ⟨-, -, trimmed, equal⟩ := texts_of_one_line found found' rfl
  exact ⟨found, found', trimmed, fun together => absurd (equal.mpr together) (by decide)⟩

/-- A line has two texts: at the end of the text its carriage return is not taken from it. -/
theorem two_texts_of_one_line :
    ¬ ∀ (source : String) (offset offset' : Nat) (spot spot' : Spot),
      offset ≤ source.utf8ByteSize → offset' ≤ source.utf8ByteSize →
      lineAt? source.toList offset = some spot → lineAt? source.toList offset' = some spot' →
      spot.line = spot'.line → spot.text = spot'.text ∧
        spot.text.getLast? ≠ some '\n' ∧ spot.text.getLast? ≠ some '\r' := by
  intro oneText
  have texts := oneText "abc\r" 0 4 ⟨1, ['a', 'b', 'c'], 0⟩ ⟨1, ['a', 'b', 'c', '\r'], 4⟩
    (by decide +kernel) (by decide +kernel) (by decide +kernel) (by decide +kernel) rfl
  exact absurd texts.1 (by decide)

end ScriptReader
