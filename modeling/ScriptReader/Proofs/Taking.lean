/- # ScriptReader.Proofs.Taking — which piece is taken where

`Rule.Fits` says which pieces a rule fits, given what follows them, without saying
how they are found: runs that end where they have to, comments that reach to their
line feed, numerals that do not go on. A rule takes the piece that it fits
(`Rule.lexeme?_eq_some_iff`).

Rules are tried in order. Most of them begin with characters that no earlier rule
begins with, so the piece that they fit is the one that is taken (`first?_of_fits`);
a sign is taken where white space follows it (`first?_of_sign`). What is
taken stays the same when text is cut off behind it (`first?_of_append`).
-/
import Mathlib
import ScriptReader.Lexeme

namespace ScriptReader

set_option autoImplicit false

namespace Text

/-- A run of the class ends in front of the text: the text is empty or begins outside. -/
def EndsRun (inside : Char → Bool) (text : List Char) : Prop :=
  ∀ c rest, text = c :: rest → inside c = false

variable {inside : Char → Bool} {run text rest : List Char}

theorem endsRun_nil : EndsRun inside [] := by
  intro c rest same
  cases same

theorem endsRun_cons {c : Char} : EndsRun inside (c :: rest) ↔ inside c = false := by
  constructor
  · intro ends
    exact ends c rest rfl
  · intro outside d more same
    cases same
    exact outside

/-- Less of the text ends a run where more of it does. -/
theorem EndsRun.of_append (ends : EndsRun inside (text ++ rest)) : EndsRun inside text := by
  intro c more same
  exact ends c (more ++ rest) (by rw [same, List.cons_append])

/-- What stands behind a text ends a run only if the text is empty. -/
theorem EndsRun.append (ends : EndsRun inside text) (behind : EndsRun inside rest) :
    EndsRun inside (text ++ rest) := by
  cases text with
  | nil => exact behind
  | cons c more => exact endsRun_cons.mpr (endsRun_cons.mp ends)

theorem endsRun_dropWhile (inside : Char → Bool) (text : List Char) :
    EndsRun inside (text.dropWhile inside) := by
  intro c rest same
  have head := List.head?_dropWhile_not inside text
  rw [same] at head
  exact head

theorem takeWhile_run (all : ∀ c ∈ run, inside c = true) (ends : EndsRun inside rest) :
    (run ++ rest).takeWhile inside = run := by
  rw [List.takeWhile_append_of_pos all]
  cases rest with
  | nil => simp
  | cons c more => simp [endsRun_cons.mp ends]

theorem dropWhile_run (all : ∀ c ∈ run, inside c = true) (ends : EndsRun inside rest) :
    (run ++ rest).dropWhile inside = rest := by
  rw [List.dropWhile_append_of_pos all]
  cases rest with
  | nil => simp
  | cons c more => simp [endsRun_cons.mp ends]

/-- Every text is a run of the class and what ends the run. -/
theorem exists_run (inside : Char → Bool) (text : List Char) :
    ∃ run rest, text = run ++ rest ∧ (∀ c ∈ run, inside c = true) ∧ EndsRun inside rest := by
  refine ⟨text.takeWhile inside, text.dropWhile inside, ?_, ?_, endsRun_dropWhile inside text⟩
  · exact List.takeWhile_append_dropWhile.symm
  · have all := List.all_takeWhile (p := inside) (l := text)
    rwa [List.all_eq_true] at all

/-- Visible characters of the ASCII range are no white space. -/
theorem isBlank_of_visible {c : Char} (low : 0x20 < c.toNat) (high : c.toNat < 0x7f) :
    isBlank c = false := by
  simp [isBlank, within, blankRuns]
  omega

end Text

namespace Lexeme

open Text (EndsRun endsRun_nil endsRun_cons takeWhile_run dropWhile_run exists_run)

variable {input lexeme rest : List Char}

/-! ## Classes of characters -/

theorem isDigit_iff {c : Char} : c.isDigit = true ↔ 48 ≤ c.toNat ∧ c.toNat ≤ 57 := by
  simp [Char.isDigit, UInt32.le_iff_toNat_le]

theorem startsWord_iff {c : Char} : startsWord c = true ↔
    (65 ≤ c.toNat ∧ c.toNat ≤ 90) ∨ (97 ≤ c.toNat ∧ c.toNat ≤ 122) ∨ c.toNat = 95 := by
  simp [startsWord, Char.isAlpha, Char.isUpper, Char.isLower, UInt32.le_iff_toNat_le,
    ← Char.toNat_inj, or_assoc]

theorem continuesWord_iff {c : Char} :
    continuesWord c = true ↔ startsWord c = true ∨ c.isDigit = true := by
  simp only [continuesWord, startsWord, Char.isAlphanum, Bool.or_eq_true]
  exact or_right_comm

theorem isBlank_of_isDigit {c : Char} (digit : c.isDigit = true) : Text.isBlank c = false := by
  obtain ⟨low, high⟩ := isDigit_iff.mp digit
  exact Text.isBlank_of_visible (by omega) (by omega)

theorem isBlank_of_startsWord {c : Char} (starts : startsWord c = true) :
    Text.isBlank c = false := by
  have range := startsWord_iff.mp starts
  exact Text.isBlank_of_visible (by omega) (by omega)

theorem isDigit_of_startsWord {c : Char} (starts : startsWord c = true) : c.isDigit = false := by
  have range := startsWord_iff.mp starts
  rw [Bool.eq_false_iff, ne_eq, isDigit_iff]
  omega

/-! ## Shapes -/

/-- One or more digits. -/
def IsDigits (text : List Char) : Prop := text ≠ [] ∧ ∀ c ∈ text, c.isDigit = true

/-- A numeral: digits, and perhaps a point with digits behind it. -/
inductive IsNumeral : List Char → Prop
  | whole {digits : List Char} (some : IsDigits digits) : IsNumeral digits
  | decimal {digits decimals : List Char} (some : IsDigits digits) (more : IsDigits decimals) :
      IsNumeral (digits ++ '.' :: decimals)

/-- A numeral that does not go on in what follows it. -/
structure LongestNumeral (numeral rest : List Char) : Prop where
  isNumeral : IsNumeral numeral
  longest : ∀ more, more <+: rest → IsNumeral (numeral ++ more) → more = []

/-- The form of names and reserved words. -/
def IsName (text : List Char) : Prop :=
  ∃ first others, text = first :: others ∧ startsWord first = true ∧
    ∀ c ∈ others, continuesWord c = true

/-- A comment with its line feed, or one that reaches to the end of the text. -/
def IsComment (text rest : List Char) : Prop :=
  ∃ body, '\n' ∉ body ∧
    (text = '/' :: '/' :: body ++ ['\n'] ∨ text = '/' :: '/' :: body ∧ rest = [])

/-- A text without quotes, between quotes. -/
def IsClosedText (text : List Char) : Prop :=
  ∃ content, '"' ∉ content ∧ text = '"' :: content ++ ['"']

/-! ## What each rule takes -/

theorem run_of_not_mem {mark : Char} {run : List Char} (absent : mark ∉ run) :
    ∀ c ∈ run, decide (c ≠ mark) = true := by
  intro c member
  simp only [ne_eq, decide_not, Bool.not_eq_eq_eq_not, Bool.not_true, decide_eq_false_iff_not]
  rintro rfl
  exact absent member

theorem not_mem_of_run {mark : Char} {run : List Char}
    (all : ∀ c ∈ run, decide (c ≠ mark) = true) : mark ∉ run := by
  intro member
  simpa using all mark member

theorem comment?_eq_some_iff : comment? input = some lexeme ↔
    ∃ rest, input = lexeme ++ rest ∧ IsComment lexeme rest := by
  constructor
  · intro taken
    unfold comment? at taken
    split at taken
    · rename_i line
      obtain ⟨body, rest, rfl, inside, ends⟩ := exists_run (· ≠ '\n') line
      rw [takeWhile_run inside ends, dropWhile_run inside ends] at taken
      have absent := not_mem_of_run inside
      cases rest with
      | nil =>
          cases taken
          exact ⟨[], by simp, body, absent, .inr ⟨by simp, rfl⟩⟩
      | cons c rest =>
          have feed : c = '\n' := by simpa using endsRun_cons.mp ends
          cases taken
          exact ⟨rest, by simp [feed], body, absent, .inl (by simp [feed])⟩
    · cases taken
  · rintro ⟨rest, rfl, body, absent, rfl | ⟨rfl, rfl⟩⟩
    · have feed : EndsRun (· ≠ '\n') ('\n' :: rest) := endsRun_cons.mpr (by decide)
      have same : '/' :: '/' :: body ++ ['\n'] ++ rest = '/' :: '/' :: (body ++ '\n' :: rest) := by
        simp
      rw [same, comment?, takeWhile_run (run_of_not_mem absent) feed,
        dropWhile_run (run_of_not_mem absent) feed]
      simp
    · have none : EndsRun (· ≠ '\n') [] := endsRun_nil
      have same : '/' :: '/' :: body ++ [] = '/' :: '/' :: (body ++ []) := rfl
      rw [same, comment?, takeWhile_run (run_of_not_mem absent) none,
        dropWhile_run (run_of_not_mem absent) none]
      simp

theorem closedText?_eq_some_iff : closedText? input = some lexeme ↔
    ∃ rest, input = lexeme ++ rest ∧ IsClosedText lexeme := by
  constructor
  · intro taken
    unfold closedText? at taken
    split at taken
    · rename_i quoted
      split at taken
      · rename_i closes
        obtain ⟨content, rest, rfl, absent⟩ :=
          List.eq_append_cons_of_mem (List.contains_iff_mem.mp closes)
        rw [takeWhile_run (run_of_not_mem absent) (endsRun_cons.mpr (by decide))] at taken
        cases taken
        exact ⟨rest, by simp, content, absent, rfl⟩
      · cases taken
    · cases taken
  · rintro ⟨rest, rfl, content, absent, rfl⟩
    have same : '"' :: content ++ ['"'] ++ rest = '"' :: (content ++ '"' :: rest) := by simp
    have closes : (content ++ '"' :: rest).contains '"' = true := by simp
    rw [same, closedText?, if_pos closes,
      takeWhile_run (run_of_not_mem absent) (endsRun_cons.mpr (by decide))]

theorem number?_isNumeral (taken : number? input = some lexeme) : IsNumeral lexeme := by
  unfold number? at taken
  obtain ⟨digits, rest, rfl, inside, ends⟩ := exists_run Char.isDigit input
  simp only [takeWhile_run inside ends, dropWhile_run inside ends] at taken
  split at taken
  · cases taken
  · rename_i nonempty
    cases taken
    unfold fraction
    split
    · rename_i more
      obtain ⟨decimals, rest, rfl, inside', ends'⟩ := exists_run Char.isDigit more
      simp only [takeWhile_run inside' ends']
      split
      · simpa using IsNumeral.whole ⟨nonempty, inside⟩
      · rename_i some
        exact .decimal ⟨nonempty, inside⟩ ⟨some, inside'⟩
    · simpa using IsNumeral.whole ⟨nonempty, inside⟩

/-- Whatever follows a numeral, all of the numeral is taken. -/
theorem exists_number?_of_isNumeral {numeral : List Char} (numeral' : IsNumeral numeral)
    (rest : List Char) :
    ∃ more, more <+: rest ∧ number? (numeral ++ rest) = some (numeral ++ more) := by
  obtain ⟨run, behind, rfl, inside, ends⟩ := exists_run Char.isDigit rest
  cases numeral' with
  | @whole digits some =>
      obtain ⟨nonempty, all⟩ := some
      have both : ∀ c ∈ numeral ++ run, c.isDigit = true := by
        intro c member
        rcases List.mem_append.mp member with here | later
        · exact all c here
        · exact inside c later
      refine ⟨run ++ fraction behind, ?_, ?_⟩
      · exact (List.prefix_append_right_inj _).mpr (fraction_isPrefix _)
      · rw [← List.append_assoc, number?]
        simp only [takeWhile_run both ends, dropWhile_run both ends]
        simp [nonempty]
  | @decimal digits decimals some more =>
      obtain ⟨nonempty, all⟩ := some
      obtain ⟨nonempty', all'⟩ := more
      have both : ∀ c ∈ decimals ++ run, c.isDigit = true := by
        intro c member
        rcases List.mem_append.mp member with here | later
        · exact all' c here
        · exact inside c later
      have point : EndsRun Char.isDigit ('.' :: (decimals ++ run ++ behind)) :=
        endsRun_cons.mpr (by decide)
      refine ⟨run, List.prefix_append _ _, ?_⟩
      have same : digits ++ '.' :: decimals ++ (run ++ behind) =
          digits ++ '.' :: (decimals ++ run ++ behind) := by simp
      rw [same, number?]
      simp only [takeWhile_run all point, dropWhile_run all point, fraction,
        takeWhile_run both ends]
      simp [nonempty, nonempty']

theorem number?_eq_some_iff : number? input = some lexeme ↔
    ∃ rest, input = lexeme ++ rest ∧ LongestNumeral lexeme rest := by
  constructor
  · intro taken
    obtain ⟨rest, rfl⟩ := (number?_isPrefix taken).1
    refine ⟨rest, rfl, number?_isNumeral taken, ?_⟩
    intro more start longer
    obtain ⟨behind, rfl⟩ := start
    obtain ⟨further, -, taken'⟩ := exists_number?_of_isNumeral longer behind
    rw [List.append_assoc, taken] at taken'
    have lengths := congrArg List.length (Option.some.inj taken')
    simp only [List.length_append] at lengths
    exact List.eq_nil_of_length_eq_zero (by omega)
  · rintro ⟨rest, rfl, numeral, longest⟩
    obtain ⟨more, start, taken⟩ := exists_number?_of_isNumeral numeral rest
    have none := longest more start (number?_isNumeral taken)
    rw [taken, none, List.append_nil]

theorem word?_eq_some_iff : word? input = some lexeme ↔
    ∃ rest, input = lexeme ++ rest ∧ IsName lexeme ∧ EndsRun continuesWord rest := by
  constructor
  · intro taken
    unfold word? at taken
    split at taken
    · rename_i first others
      split at taken
      · rename_i starts
        obtain ⟨run, rest, rfl, inside, ends⟩ := exists_run continuesWord others
        rw [takeWhile_run inside ends] at taken
        cases taken
        exact ⟨rest, rfl, ⟨first, run, rfl, starts, inside⟩, ends⟩
      · cases taken
    · cases taken
  · rintro ⟨rest, rfl, ⟨first, others, rfl, starts, inside⟩, ends⟩
    rw [List.cons_append, word?, if_pos starts, takeWhile_run inside ends]

/-- The rule fits the piece, with the text that follows it. -/
def Rule.Fits (lexeme rest : List Char) : Rule → Prop
  | .blank => lexeme ≠ [] ∧ (∀ c ∈ lexeme, Text.isBlank c = true) ∧ EndsRun Text.isBlank rest
  | .comment => IsComment lexeme rest
  | .closedText => IsClosedText lexeme
  | .openText => lexeme = ['"']
  | .number => LongestNumeral lexeme rest
  | .word => IsName lexeme ∧ EndsRun continuesWord rest
  | .fixed sign => lexeme = sign.pattern.toList

/-- A literal is taken where the text begins with it. -/
theorem literal_eq_some_iff {literal : List Char} :
    (if literal.isPrefixOf input then some literal else none) = some lexeme ↔
      ∃ rest, input = lexeme ++ rest ∧ lexeme = literal := by
  constructor
  · intro taken
    split at taken
    · rename_i start
      obtain ⟨rest, rfl⟩ := List.isPrefixOf_iff_prefix.mp start
      cases taken
      exact ⟨rest, rfl, rfl⟩
    · cases taken
  · rintro ⟨rest, rfl, rfl⟩
    rw [if_pos (List.isPrefixOf_iff_prefix.mpr (List.prefix_append _ _))]

/-- A rule takes the piece that it fits. -/
theorem Rule.lexeme?_eq_some_iff {rule : Rule} : rule.lexeme? input = some lexeme ↔
    ∃ rest, input = lexeme ++ rest ∧ rule.Fits lexeme rest := by
  cases rule with
  | blank =>
      obtain ⟨run, behind, rfl, inside, ends⟩ := exists_run Text.isBlank input
      simp only [Rule.lexeme?, takeWhile_run inside ends]
      constructor
      · intro taken
        split at taken
        · cases taken
        · rename_i nonempty
          cases taken
          exact ⟨behind, rfl, nonempty, inside, ends⟩
      · rintro ⟨rest, same, nonempty, all, ends'⟩
        have runs := congrArg (List.takeWhile Text.isBlank) same
        rw [takeWhile_run inside ends, takeWhile_run all ends'] at runs
        rw [runs, if_neg nonempty]
  | comment => exact comment?_eq_some_iff
  | closedText => exact closedText?_eq_some_iff
  | openText => exact literal_eq_some_iff
  | number => exact number?_eq_some_iff
  | word => exact word?_eq_some_iff
  | fixed sign => exact literal_eq_some_iff

/-! ## Which rule comes first -/

/-- The rules that are tried before a rule. -/
def Rule.earlier (rule : Rule) : List Rule := rules.takeWhile (· ≠ rule)

theorem earlier_eq {rule : Rule} {before behind : List Rule}
    (same : rules = before ++ rule :: behind) (absent : rule ∉ before) : rule.earlier = before := by
  have differs : ∀ other ∈ before, decide (other ≠ rule) = true := by
    intro other member
    rw [decide_eq_true_iff]
    rintro rfl
    exact absent member
  rw [Rule.earlier, same, List.takeWhile_append_of_pos differs]
  simp

theorem first?_eq_some_iff {rule : Rule} : first? input = some (rule, lexeme) ↔
    rule ∈ rules ∧ rule.lexeme? input = some lexeme ∧
      ∀ other ∈ rule.earlier, other.lexeme? input = none := by
  rw [first?, List.findSome?_eq_some_iff]
  constructor
  · rintro ⟨before, rule', behind, same, found, none⟩
    obtain ⟨lexeme', taken, pair⟩ := Option.map_eq_some_iff.mp found
    cases pair
    have absent : rule ∉ before := by
      intro member
      have missed := none rule member
      rw [taken] at missed
      cases missed
    refine ⟨same ▸ List.mem_append_right _ List.mem_cons_self, taken, ?_⟩
    rw [earlier_eq same absent]
    intro other member
    exact Option.map_eq_none_iff.mp (none other member)
  · rintro ⟨listed, taken, none⟩
    obtain ⟨before, behind, same, absent⟩ := List.eq_append_cons_of_mem listed
    rw [earlier_eq same absent] at none
    refine ⟨before, rule, behind, same, by rw [taken]; rfl, ?_⟩
    intro other member
    rw [none other member]
    rfl

/-- A rule that takes something takes something, too, where more text follows. -/
theorem Rule.lexeme?_append_ne_none {rule : Rule} (taken : rule.lexeme? input ≠ none)
    (more : List Char) : rule.lexeme? (input ++ more) ≠ none := by
  obtain ⟨lexeme, taken⟩ := Option.ne_none_iff_exists'.mp taken
  obtain ⟨rest, rfl, fits⟩ := Rule.lexeme?_eq_some_iff.mp taken
  cases rule with
  | blank =>
      obtain ⟨nonempty, all, -⟩ := fits
      cases lexeme with
      | nil => exact absurd rfl nonempty
      | cons c others =>
        have here : Text.isBlank c = true := all c List.mem_cons_self
        simp [Rule.lexeme?, here]
  | comment =>
      obtain ⟨body, -, rfl | ⟨rfl, -⟩⟩ := fits
      · simp [Rule.lexeme?, comment?]
      · simp [Rule.lexeme?, comment?]
  | closedText =>
      rw [List.append_assoc, Rule.lexeme?_eq_some_iff.mpr ⟨rest ++ more, rfl, fits⟩]
      simp
  | openText =>
      rw [List.append_assoc, Rule.lexeme?_eq_some_iff.mpr ⟨rest ++ more, rfl, fits⟩]
      simp
  | number =>
      obtain ⟨further, -, taken'⟩ := exists_number?_of_isNumeral fits.isNumeral (rest ++ more)
      rw [List.append_assoc, Rule.lexeme?, taken']
      simp
  | word =>
      obtain ⟨⟨first, others, rfl, starts, -⟩, -⟩ := fits
      simp [Rule.lexeme?, word?, starts]
  | fixed sign =>
      rw [List.append_assoc, Rule.lexeme?_eq_some_iff.mpr ⟨rest ++ more, rfl, fits⟩]
      simp

/-- What fits in front of a text fits in front of less of it. -/
theorem Rule.Fits.of_append {rule : Rule} {more : List Char}
    (fits : rule.Fits lexeme (rest ++ more)) : rule.Fits lexeme rest := by
  cases rule with
  | blank => exact ⟨fits.1, fits.2.1, fits.2.2.of_append⟩
  | comment =>
      obtain ⟨body, absent, whole | ⟨whole, none⟩⟩ := fits
      · exact ⟨body, absent, .inl whole⟩
      · exact ⟨body, absent, .inr ⟨whole, (List.append_eq_nil_iff.mp none).1⟩⟩
  | closedText => exact fits
  | openText => exact fits
  | number =>
      refine ⟨fits.isNumeral, ?_⟩
      intro further start
      exact fits.longest further (start.trans (List.prefix_append _ _))
  | word => exact ⟨fits.1, fits.2.of_append⟩
  | fixed sign => exact fits

/-- What is taken in front of a text is taken in front of less of it. -/
theorem first?_of_append {rule : Rule} {more : List Char}
    (taken : first? (lexeme ++ (rest ++ more)) = some (rule, lexeme)) :
    first? (lexeme ++ rest) = some (rule, lexeme) := by
  obtain ⟨listed, taken, earlier⟩ := first?_eq_some_iff.mp taken
  obtain ⟨behind, same, fits⟩ := Rule.lexeme?_eq_some_iff.mp taken
  have same := List.append_cancel_left same
  subst same
  refine first?_eq_some_iff.mpr ⟨listed, ?_, ?_⟩
  · exact Rule.lexeme?_eq_some_iff.mpr ⟨rest, rfl, fits.of_append⟩
  · intro other before
    have none := earlier other before
    rw [← List.append_assoc] at none
    cases some : other.lexeme? (lexeme ++ rest) with
    | none => rfl
    | some piece => exact absurd none (Rule.lexeme?_append_ne_none (by simp [some]) more)

/-! ## Opening characters -/

/-- Whether a piece of the rule can begin with the character. -/
def Rule.opens (c : Char) : Rule → Bool
  | .blank => Text.isBlank c
  | .comment => c = '/'
  | .closedText | .openText => c = '"'
  | .number => c.isDigit
  | .word => startsWord c
  | .fixed sign => sign.pattern.toList.head? = some c

theorem IsNumeral.exists_cons {numeral : List Char} (numeral' : IsNumeral numeral) :
    ∃ first others, numeral = first :: others ∧ first.isDigit = true := by
  have opening : ∀ {digits : List Char} (behind : List Char), IsDigits digits →
      ∃ first others, digits ++ behind = first :: others ∧ first.isDigit = true := by
    intro digits behind some
    obtain ⟨nonempty, all⟩ := some
    cases digits with
    | nil => exact absurd rfl nonempty
    | cons first others => exact ⟨first, others ++ behind, rfl, all first List.mem_cons_self⟩
  cases numeral' with
  | whole some => simpa using opening [] some
  | decimal some more => exact opening _ some

/-- A piece begins with one of its rule's opening characters. -/
theorem Rule.Fits.exists_cons {rule : Rule} (fits : rule.Fits lexeme rest) :
    ∃ c others, lexeme = c :: others ∧ rule.opens c = true := by
  cases rule with
  | blank =>
      obtain ⟨nonempty, all, -⟩ := fits
      cases lexeme with
      | nil => exact absurd rfl nonempty
      | cons c others => exact ⟨c, others, rfl, all c List.mem_cons_self⟩
  | comment =>
      obtain ⟨body, -, rfl | ⟨rfl, -⟩⟩ := fits
      · exact ⟨_, _, rfl, rfl⟩
      · exact ⟨_, _, rfl, rfl⟩
  | closedText =>
      obtain ⟨content, -, rfl⟩ := fits
      exact ⟨_, _, rfl, rfl⟩
  | openText =>
      subst fits
      exact ⟨_, _, rfl, rfl⟩
  | number => exact fits.isNumeral.exists_cons
  | word =>
      obtain ⟨⟨first, others, rfl, starts, -⟩, -⟩ := fits
      exact ⟨first, others, rfl, starts⟩
  | fixed sign =>
      cases same : sign.pattern.toList with
      | nil => exact absurd same (spelling?_ne_empty sign.spelling_eq)
      | cons c others => exact ⟨c, others, fits.trans same, by simp [Rule.opens, same]⟩

theorem Rule.lexeme?_eq_none_of_opens {rule : Rule} {c : Char} (shut : rule.opens c = false)
    (input : List Char) : rule.lexeme? (c :: input) = none := by
  cases taken : rule.lexeme? (c :: input) with
  | none => rfl
  | some lexeme =>
      obtain ⟨rest, same, fits⟩ := Rule.lexeme?_eq_some_iff.mp taken
      obtain ⟨first, others, rfl, opens⟩ := fits.exists_cons
      cases same
      rw [shut] at opens
      cases opens

/-- The rules whose pieces no rule that is tried earlier can begin. -/
def distinctRules : List Rule := [.blank, .comment, .closedText, .number, .word]

theorem opens_earlier {rule other : Rule} {c : Char} (distinct : rule ∈ distinctRules)
    (opens : rule.opens c = true) (before : other ∈ rule.earlier) : other.opens c = false := by
  simp only [distinctRules, List.mem_cons, List.not_mem_nil, or_false] at distinct
  rcases distinct with rfl | rfl | rfl | rfl | rfl
  · cases before
  · have slash : c = '/' := by simpa [Rule.opens] using opens
    subst slash
    revert other
    decide
  · have quote : c = '"' := by simpa [Rule.opens] using opens
    subst quote
    revert other
    decide
  · have digit : c.isDigit = true := opens
    have low := isDigit_iff.mp digit
    have other' : other ∈ [.blank, .comment, .closedText, .openText] := before
    simp only [List.mem_cons, List.not_mem_nil, or_false] at other'
    rcases other' with rfl | rfl | rfl | rfl
    · exact isBlank_of_isDigit digit
    all_goals
      simp only [Rule.opens, decide_eq_false_iff_not]
      rintro rfl
      exact absurd digit (by decide)
  · have starts : startsWord c = true := opens
    have other' : other ∈ [.blank, .comment, .closedText, .openText, .number] := before
    simp only [List.mem_cons, List.not_mem_nil, or_false] at other'
    rcases other' with rfl | rfl | rfl | rfl | rfl
    · exact isBlank_of_startsWord starts
    · simp only [Rule.opens, decide_eq_false_iff_not]
      rintro rfl
      exact absurd starts (by decide)
    · simp only [Rule.opens, decide_eq_false_iff_not]
      rintro rfl
      exact absurd starts (by decide)
    · simp only [Rule.opens, decide_eq_false_iff_not]
      rintro rfl
      exact absurd starts (by decide)
    · exact isDigit_of_startsWord starts

theorem first?_of_fits {rule : Rule} (distinct : rule ∈ distinctRules)
    (fits : rule.Fits lexeme rest) : first? (lexeme ++ rest) = some (rule, lexeme) := by
  have listed : ∀ rule ∈ distinctRules, rule ∈ rules := by decide
  have taken := Rule.lexeme?_eq_some_iff.mpr ⟨rest, rfl, fits⟩
  refine first?_eq_some_iff.mpr ⟨listed rule distinct, taken, ?_⟩
  intro other before
  obtain ⟨c, others, rfl, opens⟩ := fits.exists_cons
  exact Rule.lexeme?_eq_none_of_opens (opens_earlier distinct opens before) _

/-- A quote without a partner is taken by itself. -/
theorem first?_of_openText (absent : '"' ∉ rest) :
    first? ('"' :: rest) = some (.openText, ['"']) := by
  refine first?_eq_some_iff.mpr ⟨by decide, Rule.lexeme?_eq_some_iff.mpr ⟨rest, rfl, rfl⟩, ?_⟩
  intro other before
  have other' : other ∈ [.blank, .comment, .closedText] := before
  simp only [List.mem_cons, List.not_mem_nil, or_false] at other'
  rcases other' with rfl | rfl | rfl
  · exact Rule.lexeme?_eq_none_of_opens (by decide) rest
  · exact Rule.lexeme?_eq_none_of_opens (by decide) rest
  · simp [Rule.lexeme?, closedText?, absent]

/-! ## Fixed spellings -/

/-- The text is empty or begins with white space. -/
def OpensBlank (text : List Char) : Prop :=
  ∀ c rest, text = c :: rest → Text.isBlank c = true

theorem opensBlank_nil : OpensBlank [] := by
  intro c rest same
  cases same

theorem opensBlank_cons {c : Char} (white : Text.isBlank c = true) : OpensBlank (c :: rest) := by
  intro d more same
  cases same
  exact white

/-- Visible characters in front of white space are not joined to it. -/
theorem prefix_of_prefix_append {small big : List Char}
    (visible : ∀ c ∈ small, Text.isBlank c = false) (gap : OpensBlank rest)
    (start : small <+: big ++ rest) : small <+: big := by
  have whole := List.prefix_append big rest
  rcases List.prefix_or_prefix_of_prefix start whole with short | ⟨more, rfl⟩
  · exact short
  · have behind : more <+: rest := (List.prefix_append_right_inj big).mp start
    cases more with
    | nil => simp
    | cons c more =>
        obtain ⟨left, rfl⟩ := behind
        have blank : Text.isBlank c = true := gap c (more ++ left) rfl
        rw [visible c (by simp)] at blank
        cases blank

theorem IsNumeral.visible {numeral : List Char} (numeral' : IsNumeral numeral) :
    ∀ c ∈ numeral, Text.isBlank c = false := by
  intro c member
  cases numeral' with
  | whole some => exact isBlank_of_isDigit (some.2 c member)
  | decimal some more =>
      rcases List.mem_append.mp member with digit | behind
      · exact isBlank_of_isDigit (some.2 c digit)
      · rcases List.mem_cons.mp behind with rfl | digit
        · decide
        · exact isBlank_of_isDigit (more.2 c digit)

theorem IsName.visible {name : List Char} (name' : IsName name) :
    ∀ c ∈ name, Text.isBlank c = false := by
  obtain ⟨first, others, rfl, starts, all⟩ := name'
  intro c member
  rcases List.mem_cons.mp member with rfl | later
  · exact isBlank_of_startsWord starts
  · rcases continuesWord_iff.mp (all c later) with starts' | digit
    · exact isBlank_of_startsWord starts'
    · exact isBlank_of_isDigit digit

theorem visible_of_spelling? {kind : TokenKind} {spelling : String}
    (fixed : kind.spelling? = some spelling) :
    ∀ c ∈ spelling.toList, Text.isBlank c = false ∧ c ≠ '"' := by
  have all : spelling.toList.all (fun c => !Text.isBlank c && c != '"') = true := by
    cases kind <;> cases fixed <;> decide
  intro c member
  simpa using List.all_eq_true.mp all c member

/-- A rule that takes nothing from a text takes nothing where white space follows the text,
unless the text begins with a quote. -/
theorem Rule.lexeme?_ne_none_of_append {rule : Rule} {c : Char} {others : List Char}
    (unquoted : c ≠ '"') (gap : OpensBlank rest)
    (taken : rule.lexeme? (c :: others ++ rest) = some lexeme) :
    rule.lexeme? (c :: others) ≠ none := by
  obtain ⟨behind, same, fits⟩ := Rule.lexeme?_eq_some_iff.mp taken
  obtain ⟨first, inner, rfl, opens⟩ := fits.exists_cons
  have head : c = first := (List.cons.inj same).1
  subst head
  cases rule with
  | blank =>
      have blank : Text.isBlank c = true := opens
      simp [Rule.lexeme?, blank]
  | comment =>
      have slash : Text.isBlank '/' = false := by decide
      have start : ['/', '/'] <+: c :: others ++ rest := by
        obtain ⟨body, -, whole | ⟨whole, -⟩⟩ := fits
        · exact ⟨body ++ ['\n'] ++ behind, by rw [same, whole]; simp⟩
        · exact ⟨body ++ behind, by rw [same, whole]; simp⟩
      obtain ⟨more, inside⟩ := prefix_of_prefix_append (by simp [slash]) gap start
      rw [← inside]
      simp [Rule.lexeme?, comment?]
  | closedText => exact absurd (by simpa [Rule.opens] using opens) unquoted
  | openText => exact absurd (by simpa [Rule.opens] using opens) unquoted
  | number =>
      have digit : c.isDigit = true := opens
      simp [Rule.lexeme?, number?, digit]
  | word =>
      have starts : startsWord c = true := opens
      simp [Rule.lexeme?, word?, starts]
  | fixed sign =>
      have whole : c :: inner = sign.pattern.toList := fits
      have start : sign.pattern.toList <+: c :: others ++ rest := ⟨behind, by rw [same, whole]⟩
      have clear : ∀ c ∈ sign.pattern.toList, Text.isBlank c = false :=
        fun c member => (visible_of_spelling? sign.spelling_eq c member).1
      obtain ⟨more, inside⟩ := prefix_of_prefix_append clear gap start
      have again : (Rule.fixed sign).lexeme? (c :: others) = some sign.pattern.toList :=
        Rule.lexeme?_eq_some_iff.mpr ⟨more, inside.symm, rfl⟩
      simp [again]

/-- A sign is taken whole in front of white space and at the end. -/
theorem first?_of_sign {sign : Sign} (listed : sign ∈ signs) (gap : OpensBlank rest) :
    first? (sign.pattern.toList ++ rest) = some (.fixed sign, sign.pattern.toList) := by
  have alone : ∀ sign ∈ signs,
      first? sign.pattern.toList = some (.fixed sign, sign.pattern.toList) := by decide +kernel
  obtain ⟨among, -, none⟩ := first?_eq_some_iff.mp (alone sign listed)
  have fits : (Rule.fixed sign).Fits sign.pattern.toList rest := rfl
  refine first?_eq_some_iff.mpr ⟨among, Rule.lexeme?_eq_some_iff.mpr ⟨rest, rfl, fits⟩, ?_⟩
  intro other before
  have visible := visible_of_spelling? sign.spelling_eq
  cases taken : other.lexeme? (sign.pattern.toList ++ rest) with
  | none => rfl
  | some lexeme =>
      obtain ⟨c, others, same, -⟩ := fits.exists_cons
      rw [same] at taken visible none
      have unquoted := (visible c List.mem_cons_self).2
      exact absurd (none other before) (Rule.lexeme?_ne_none_of_append unquoted gap taken)

end Lexeme
end ScriptReader
