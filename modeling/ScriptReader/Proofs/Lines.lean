/- # ScriptReader.Proofs.Lines — the lines of a text, and the spot of an offset

A text is a line without a line feed, or such a line, its line feed, and the text
below it. What is computed line by line is proved by induction along that division
(`lines_induction`).

An offset inside a character is found on the line of that character: its number
counts the line feeds in front, its text reaches from the last of them to the next
one, and the column is the distance from the last of them (`spotIn?_lines`).
-/
import ScriptReader.Proofs.Taking
import ScriptReader.Source.Line

namespace ScriptReader

set_option autoImplicit false

namespace Text

variable {drop more : Char → Bool} {text rest : List Char} {c : Char}

/-! ## Trimming -/

/-- What is trimmed is taken from behind the last character that is kept. -/
theorem trimEnd_append_cons (kept : drop c = false) :
    trimEnd drop (text ++ c :: rest) = text ++ c :: trimEnd drop rest := by
  obtain ⟨run, behind, same, all, ends⟩ := exists_run drop rest.reverse
  have whole : (text ++ c :: rest).reverse = run ++ (behind ++ c :: text.reverse) := by
    simp [same]
  rw [trimEnd, trimEnd, whole, same, dropWhile_run all (ends.append (endsRun_cons.mpr kept)),
    dropWhile_run all ends]
  simp

theorem trimEnd_concat (dropped : drop c = true) :
    trimEnd drop (text ++ [c]) = trimEnd drop text :=
  List.rdropWhile_concat_pos drop text c dropped

/-- Trimming less first makes no difference. -/
theorem trimEnd_trimEnd (also : ∀ c, drop c = true → more c = true) (text : List Char) :
    trimEnd more (trimEnd drop text) = trimEnd more text := by
  induction text using List.reverseRecOn with
  | nil => rfl
  | append_singleton text last ih =>
      cases dropped : drop last with
      | true => rw [trimEnd_concat dropped, trimEnd_concat (also last dropped), ih]
      | false =>
          have kept : trimEnd drop (text ++ [last]) = text ++ [last] :=
            trimEnd_append_cons dropped
          rw [kept]

/-! ## Bytes and line feeds -/

theorem length_le_byteSize (text : List Char) : text.length ≤ byteSize text := by
  induction text with
  | nil => exact Nat.le_refl 0
  | cons c text ih =>
      have positive := Char.utf8Size_pos c
      rw [List.length_cons, byteSize_cons]
      omega

/-- A text has as many bytes as characters exactly if each character has one byte. -/
theorem byteSize_eq_length_iff {text : List Char} :
    byteSize text = text.length ↔ ∀ c ∈ text, c.utf8Size = 1 := by
  induction text with
  | nil => simp [byteSize]
  | cons c text ih =>
      have positive := Char.utf8Size_pos c
      have least := length_le_byteSize text
      rw [byteSize_cons, List.length_cons, List.forall_mem_cons, ← ih]
      omega

end Text

namespace Source

open Text (byteSize lineFeeds trimEnd EndsRun)

variable {head rest : List Char}

/-! ## Lines -/

/-- Induction along the lines of a text, from the last one up. -/
theorem lines_induction {motive : List Char → Prop} (last : ∀ head, '\n' ∉ head → motive head)
    (above : ∀ head rest, '\n' ∉ head → motive rest → motive (head ++ '\n' :: rest))
    (text : List Char) : motive text := by
  by_cases present : '\n' ∈ text
  · obtain ⟨head, rest, rfl, absent⟩ := List.eq_append_cons_of_mem present
    exact above head rest absent (lines_induction last above rest)
  · exact last text present
termination_by text.length

/-- The characters of one line are no line feeds. -/
theorem endsRun_line (rest : List Char) : EndsRun (· ≠ '\n') ('\n' :: rest) :=
  Text.endsRun_cons.mpr (by simp)

theorem lines_feed (absent : '\n' ∉ head) (rest : List Char) :
    lines (head ++ '\n' :: rest) = (head ++ ['\n']) :: lines rest := by
  induction head with
  | nil => simp [lines]
  | cons c head ih =>
      obtain ⟨other, absent⟩ := List.ne_and_not_mem_of_not_mem_cons absent
      rw [List.cons_append, lines, if_neg (Ne.symm other), ih absent]
      rfl

theorem lines_last (some : head ≠ []) (absent : '\n' ∉ head) : lines head = [head] := by
  induction head with
  | nil => exact absurd rfl some
  | cons c head ih =>
      obtain ⟨other, absent⟩ := List.ne_and_not_mem_of_not_mem_cons absent
      rw [lines, if_neg (Ne.symm other)]
      cases head with
      | nil => rfl
      | cons d more => rw [ih (by simp) absent]

theorem lastLine_of_not_mem (absent : '\n' ∉ head) : lastLine head = head := by
  have all : ∀ c ∈ head.reverse, (decide (c ≠ '\n')) = true := by
    intro c member
    have inside : c ∈ head := List.mem_reverse.mp member
    exact decide_eq_true fun same => absent (same ▸ inside)
  rw [lastLine, List.takeWhile_eq_self_iff.mpr all, List.reverse_reverse]

theorem lastLine_feed (head rest : List Char) :
    lastLine (head ++ '\n' :: rest) = lastLine rest := by
  have split : (head ++ '\n' :: rest).reverse = rest.reverse ++ '\n' :: head.reverse := by simp
  obtain ⟨run, behind, same, inside, ends⟩ := Text.exists_run (· ≠ '\n') rest.reverse
  rw [lastLine, lastLine, split, same, List.append_assoc,
    Text.takeWhile_run inside (ends.append (endsRun_line head.reverse)),
    Text.takeWhile_run inside ends]

/-! ## The spot of an offset -/

variable {c : Char} {within : Nat}

/-- The first of the lines holds the offsets in front of its end. -/
theorem spotIn?_first (line : Nat) {offset : Nat} {text : List Char} (more : List (List Char))
    (short : offset < byteSize text) :
    spotIn? line offset (text :: more) = some ⟨line, trimEnd isLineEnd text, offset⟩ :=
  if_pos short

/-- Offsets behind the first line are counted from its end. -/
theorem spotIn?_next (line offset : Nat) (text : List Char) (more : List (List Char)) :
    spotIn? line (byteSize text + offset) (text :: more) = spotIn? (line + 1) offset more := by
  rw [spotIn?, if_neg (Nat.not_lt.mpr (Nat.le_add_right _ _)), Nat.add_sub_cancel_left]

theorem byteSize_line_lt {c : Char} {within : Nat} (inside : within < c.utf8Size)
    (head behind : List Char) : byteSize head + within < byteSize (head ++ c :: behind) := by
  rw [Text.byteSize_append, Text.byteSize_cons]
  omega

/-- The spot of an offset on the first line of a text. -/
theorem spotIn?_line (inside : within < c.utf8Size) (line : Nat) (absent : '\n' ∉ head)
    (rest : List Char) :
    spotIn? line (byteSize head + within) (lines (head ++ c :: rest)) =
      some ⟨line, trimEnd isLineEnd (head ++ (c :: rest).takeWhile (· ≠ '\n')),
        byteSize head + within⟩ := by
  obtain ⟨run, behind, same, visible, ends⟩ := Text.exists_run (· ≠ '\n') (c :: rest)
  have taken : (c :: rest).takeWhile (· ≠ '\n') = run := by
    rw [same, Text.takeWhile_run visible ends]
  have absent' : '\n' ∉ head ++ run := by
    intro member
    rcases List.mem_append.mp member with early | late
    · exact absent early
    · simpa using visible '\n' late
  have short : byteSize head + within < byteSize (head ++ c :: rest) :=
    byteSize_line_lt inside head rest
  rw [taken]
  cases behind with
  | nil =>
      rw [List.append_nil] at same
      rw [same] at short ⊢
      have some : head ++ run ≠ [] := by simp [← same]
      rw [lines_last some absent', spotIn?_first line [] short]
  | cons feed below =>
      have isFeed : feed = '\n' := by simpa using Text.endsRun_cons.mp ends
      subst isFeed
      -- The character is the first one of the run, or the line feed itself.
      obtain ⟨more, begins⟩ : ∃ more, run ++ ['\n'] = c :: more := by
        cases run with
        | nil => exact ⟨[], by rw [(List.cons.inj same).1]; rfl⟩
        | cons d run => exact ⟨run ++ ['\n'], by rw [(List.cons.inj same).1]; rfl⟩
      have short : byteSize head + within < byteSize (head ++ run ++ ['\n']) := by
        rw [List.append_assoc, begins]
        exact byteSize_line_lt inside head more
      rw [same, ← List.append_assoc, lines_feed absent', spotIn?_first line _ short,
        Text.trimEnd_concat rfl]

/-- An offset inside a character is found on the line of that character. -/
theorem spotIn?_lines (inside : within < c.utf8Size) (line : Nat) (before rest : List Char) :
    spotIn? line (byteSize before + within) (lines (before ++ c :: rest)) =
      some ⟨line + lineFeeds before,
        trimEnd isLineEnd (lastLine before ++ (c :: rest).takeWhile (· ≠ '\n')),
        byteSize (lastLine before) + within⟩ := by
  induction before using lines_induction generalizing line with
  | last head absent =>
      rw [spotIn?_line inside line absent, Text.lineFeeds_of_not_mem absent,
        lastLine_of_not_mem absent, Nat.add_zero]
  | above head below absent ih =>
      have size : byteSize (head ++ '\n' :: below) + within =
          byteSize (head ++ ['\n']) + (byteSize below + within) := by
        simp only [Text.byteSize_append, byteSize]
        omega
      have number : line + lineFeeds (head ++ '\n' :: below) = line + 1 + lineFeeds below := by
        have here := Text.lineFeeds_of_not_mem absent
        have feed : lineFeeds ('\n' :: below) = lineFeeds below + 1 := List.count_cons_self
        rw [Text.lineFeeds_append, here, feed]
        omega
      rw [List.append_assoc, List.cons_append, lines_feed absent, size, spotIn?_next, ih,
        number, lastLine_feed]

/-- The spot of an offset inside a character of the text. -/
theorem lineAt?_eq (inside : within < c.utf8Size) (before rest : List Char) :
    lineAt? (before ++ c :: rest) (byteSize before + within) =
      some ⟨1 + lineFeeds before,
        trimEnd isLineEnd (lastLine before ++ (c :: rest).takeWhile (· ≠ '\n')),
        byteSize (lastLine before) + within⟩ := by
  have short := byteSize_line_lt inside before rest
  rw [lineAt?, if_neg (by omega), spotIn?_lines inside]
  rfl

end Source

end ScriptReader
