/- # ScriptReader.Proofs.Scanning — steps and runs of the scanner

A step is opened into the piece it takes (`step_eq_ok_iff`) or the reason why it
takes none (`step_eq_error_iff`). `Reaches` is a run of steps: the tokens that are
found between two points. A run ends at the end of the text or where a step is
refused, and that is what scanning amounts to (`tokenize_eq_ok_iff`,
`tokenize_eq_error_iff`).

What a run passes is a beginning of the text, and the place moves by its bytes and
line feeds (`Reaches.exists_passed`); the line moves in the 32 bits in which it is
counted. A run does not depend on the text behind it (`Reaches.alone`).
-/
import ScriptReader.Proofs.Counting

namespace ScriptReader

set_option autoImplicit false

namespace Scan

open Lexeme (Rule first? first?_isPrefix)

/-! ## Steps -/

/-- A step takes the first piece and goes behind it, if the piece stands for a token or for
none. -/
theorem step_eq_ok_iff {point next : Point} {token : Option Token} :
    step point = .ok (token, next) ↔
      ∃ rule lexeme rest, point.rest = lexeme ++ rest ∧
        first? point.rest = some (rule, lexeme) ∧ rule.token? lexeme rest = .ok token ∧
        next = ⟨point.offset + Text.byteSize lexeme, point.line + Text.lineCount lexeme, rest⟩ := by
  constructor
  · intro stepped
    unfold step at stepped
    split at stepped
    · cases stepped
    · rename_i rule lexeme taken
      obtain ⟨rest, whole⟩ := (first?_isPrefix taken).1
      have past := Point.past_eq (Lexeme.lexeme?_of_first? taken) whole.symm
      simp only [past] at stepped
      split at stepped
      · cases stepped
      · rename_i token' sound
        cases stepped
        exact ⟨rule, lexeme, rest, whole.symm, taken, sound, rfl⟩
  · rintro ⟨rule, lexeme, rest, whole, taken, sound, rfl⟩
    have past := Point.past_eq (Lexeme.lexeme?_of_first? taken) whole
    simp only [step, taken, past, sound]

/-- A step is refused where nothing is taken, and where the piece that is taken stands for no
token. -/
theorem step_eq_error_iff {point : Point} {diagnostic : Diagnostic} :
    step point = .error diagnostic ↔
      diagnostic.place = point.place ∧
        ((first? point.rest = none ∧
            diagnostic.cause = .unrecognised (String.ofList (point.rest.take 1))) ∨
          ∃ rule lexeme rest, point.rest = lexeme ++ rest ∧
            first? point.rest = some (rule, lexeme) ∧
            rule.token? lexeme rest = .error diagnostic.cause) := by
  obtain ⟨cause, place⟩ := diagnostic
  constructor
  · intro stepped
    unfold step at stepped
    split at stepped
    · rename_i none
      cases stepped
      exact ⟨rfl, .inl ⟨none, rfl⟩⟩
    · rename_i rule lexeme taken
      obtain ⟨rest, whole⟩ := (first?_isPrefix taken).1
      have past := Point.past_eq (Lexeme.lexeme?_of_first? taken) whole.symm
      simp only [past] at stepped
      split at stepped
      · rename_i cause' refused
        cases stepped
        exact ⟨rfl, .inr ⟨rule, lexeme, rest, whole.symm, taken, refused⟩⟩
      · cases stepped
  · rintro ⟨here, ⟨none, why⟩ | ⟨rule, lexeme, rest, whole, taken, refused⟩⟩
    · dsimp only at here none why
      subst here why
      simp only [step, none]
    · dsimp only at here refused
      subst here
      have past := Point.past_eq (Lexeme.lexeme?_of_first? taken) whole
      simp only [step, taken, past, refused]

/-! ## Runs -/

/-- Steps lead from one point to another and find the tokens between them. -/
inductive Reaches : Point → List Token → Point → Prop
  | here (point : Point) : Reaches point [] point
  | further {point next last : Point} {token : Option Token} {tokens : List Token}
      (stepped : step point = .ok (token, next)) (more : Reaches next tokens last) :
      Reaches point (token.toList ++ tokens) last

theorem step_rest_ne_nil {point next : Point} {token : Option Token}
    (stepped : step point = .ok (token, next)) : point.rest ≠ [] := by
  intro none
  have short := step_rest_lt stepped
  rw [none] at short
  exact absurd short (Nat.not_lt_zero _)

/-- Scanning goes on behind a step as it would have begun there. -/
theorem scanFrom_of_step {point next : Point} {token : Option Token}
    (stepped : step point = .ok (token, next)) :
    scanFrom point =
      (scanFrom next).map fun scanned => ⟨token.toList ++ scanned.tokens, scanned.lines⟩ := by
  rw [scanFrom, if_neg (step_rest_ne_nil stepped)]
  split
  · rename_i refused
    rw [stepped] at refused
    cases refused
  · rename_i token' next' stepped'
    rw [stepped] at stepped'
    cases stepped'
    cases scanFrom next <;> rfl

theorem scanFrom_of_end {point : Point} (none : point.rest = []) :
    scanFrom point = .ok ⟨[.endOfInput], point.line⟩ := by
  rw [scanFrom, if_pos none]

theorem scanFrom_of_refused {point : Point} {diagnostic : Diagnostic} (some : point.rest ≠ [])
    (refused : step point = .error diagnostic) : scanFrom point = .error diagnostic := by
  rw [scanFrom, if_neg some]
  split
  · rename_i diagnostic' refused'
    rw [refused] at refused'
    cases refused'
    rfl
  · rename_i token next stepped
    rw [refused] at stepped
    cases stepped

theorem Reaches.scanFrom_eq {point last : Point} {tokens : List Token}
    (reaches : Reaches point tokens last) :
    scanFrom point =
      (scanFrom last).map fun scanned => ⟨tokens ++ scanned.tokens, scanned.lines⟩ := by
  induction reaches with
  | here point => cases scanFrom point <;> rfl
  | further stepped more ih =>
      rw [scanFrom_of_step stepped, ih]
      cases scanFrom _ with
      | error diagnostic => rfl
      | ok scanned => simp [Except.map]

/-- Every run can be continued to the end of the text or to a refusal. -/
theorem exists_reaches_stop (point : Point) :
    ∃ tokens last, Reaches point tokens last ∧
      (last.rest = [] ∨ ∃ diagnostic, step last = .error diagnostic) := by
  generalize count : point.rest.length = size
  induction size using Nat.strongRecOn generalizing point with
  | _ size ih =>
    cases stepped : step point with
    | error diagnostic => exact ⟨[], point, .here point, .inr ⟨diagnostic, stepped⟩⟩
    | ok found =>
        obtain ⟨token, next⟩ := found
        have short := step_rest_lt stepped
        obtain ⟨tokens, last, more, stops⟩ := ih next.rest.length (by omega) next rfl
        exact ⟨token.toList ++ tokens, last, .further stepped more, stops⟩

theorem scanFrom_eq_ok_iff {point : Point} {scanned : Scanned} :
    scanFrom point = .ok scanned ↔
      ∃ tokens last, Reaches point tokens last ∧ last.rest = [] ∧
        scanned = ⟨tokens ++ [.endOfInput], last.line⟩ := by
  constructor
  · intro result
    obtain ⟨tokens, last, reaches, stops⟩ := exists_reaches_stop point
    rw [reaches.scanFrom_eq] at result
    by_cases none : last.rest = []
    · rw [scanFrom_of_end none] at result
      cases result
      exact ⟨tokens, last, reaches, none, rfl⟩
    · obtain ⟨diagnostic, refused⟩ := stops.resolve_left none
      rw [scanFrom_of_refused none refused] at result
      cases result
  · rintro ⟨tokens, last, reaches, none, rfl⟩
    rw [reaches.scanFrom_eq, scanFrom_of_end none]
    rfl

theorem scanFrom_eq_error_iff {point : Point} {diagnostic : Diagnostic} :
    scanFrom point = .error diagnostic ↔
      ∃ tokens last, Reaches point tokens last ∧ last.rest ≠ [] ∧
        step last = .error diagnostic := by
  constructor
  · intro result
    obtain ⟨tokens, last, reaches, stops⟩ := exists_reaches_stop point
    rw [reaches.scanFrom_eq] at result
    by_cases none : last.rest = []
    · rw [scanFrom_of_end none] at result
      cases result
    · obtain ⟨diagnostic', refused⟩ := stops.resolve_left none
      rw [scanFrom_of_refused none refused] at result
      cases result
      exact ⟨tokens, last, reaches, none, refused⟩
  · rintro ⟨tokens, last, reaches, some, refused⟩
    rw [reaches.scanFrom_eq, scanFrom_of_refused some refused]
    rfl

end Scan

theorem scan_eq_error_iff {source : String} {diagnostic : Diagnostic} :
    scan source = .error diagnostic ↔ tokenize source = .error diagnostic := by
  rw [tokenize]
  cases scan source <;> simp [Except.map]

/-- A text is accepted exactly if steps lead to its end. -/
theorem tokenize_eq_ok_iff {source : String} {tokens : List Token} :
    tokenize source = .ok tokens ↔
      ∃ found last, Scan.Reaches (.start source.toList) found last ∧ last.rest = [] ∧
        tokens = found ++ [.endOfInput] := by
  constructor
  · intro accepted
    unfold tokenize at accepted
    cases result : scan source with
    | error diagnostic =>
        rw [result] at accepted
        cases accepted
    | ok scanned =>
        obtain ⟨found, last, reaches, ends, rfl⟩ := Scan.scanFrom_eq_ok_iff.mp result
        rw [result] at accepted
        cases accepted
        exact ⟨found, last, reaches, ends, rfl⟩
  · rintro ⟨found, last, reaches, ends, rfl⟩
    rw [tokenize, scan, Scan.scanFrom_eq_ok_iff.mpr ⟨found, last, reaches, ends, rfl⟩]
    rfl

/-- A text is refused exactly if steps lead to a place in front of its end, where the next one
is refused. -/
theorem tokenize_eq_error_iff {source : String} {diagnostic : Diagnostic} :
    tokenize source = .error diagnostic ↔
      ∃ found last, Scan.Reaches (.start source.toList) found last ∧ last.rest ≠ [] ∧
        Scan.step last = .error diagnostic := by
  rw [← Scan.scanFrom_eq_error_iff, ← scan_eq_error_iff, scan]

namespace Scan

open Lexeme (Rule first?_of_append)

/-! ## What a run passes -/

/-- A run passes a beginning of the text; offset and line move by its bytes and line feeds. -/
theorem Reaches.exists_passed {point last : Point} {tokens : List Token}
    (reaches : Reaches point tokens last) :
    ∃ passed, point.rest = passed ++ last.rest ∧
      last.offset = point.offset + Text.byteSize passed ∧
      last.line = point.line + Text.lineCount passed := by
  induction reaches with
  | here point => exact ⟨[], rfl, rfl, (UInt32.add_zero _).symm⟩
  | @further point next last token tokens stepped more ih =>
      obtain ⟨passed, rest, offset, line⟩ := ih
      obtain ⟨rule, lexeme, behind, whole, -, -, rfl⟩ := step_eq_ok_iff.mp stepped
      dsimp only at rest offset line
      subst rest
      refine ⟨lexeme ++ passed, by rw [whole, List.append_assoc], ?_, ?_⟩
      · rw [offset, Text.byteSize_append, Nat.add_assoc]
      · rw [line, Text.lineCount_append, UInt32.add_assoc]

/-- Behind the beginning of a text that a run passes, the place is that of its bytes, on the line
of its line feeds, as far as 32 bits go. -/
theorem Reaches.exists_place {text : List Char} {last : Point} {tokens : List Token}
    (reaches : Reaches (.start text) tokens last) :
    ∃ passed, text = passed ++ last.rest ∧
      last.place = .source (Text.byteSize passed) ((1 + Text.lineFeeds passed) % 2 ^ 32) := by
  obtain ⟨passed, whole, offset, line⟩ := reaches.exists_passed
  refine ⟨passed, whole, ?_⟩
  rw [Point.place, offset, line, Text.toNat_add_lineCount]
  exact congrArg (Place.source · _) (Nat.zero_add _)

/-- What a piece stands for in front of a text, it stands for in front of less of it. -/
theorem token?_of_append {rule : Rule} {lexeme rest more : List Char} {token : Option Token}
    (sound : rule.token? lexeme (rest ++ more) = .ok token) :
    rule.token? lexeme rest = .ok token := by
  cases rule with
  | number =>
      simp only [Rule.token?] at sound ⊢
      cases rest with
      | nil =>
          split at sound
          · cases sound
          · simpa using sound
      | cons c rest =>
          split at sound
          · cases sound
          · rename_i plain
            rw [if_neg (by simpa using plain)]
            exact sound
  | _ => exact sound

/-- A run finds the same tokens when the text behind it is cut off. -/
theorem Reaches.alone {point last : Point} {tokens : List Token} {passed : List Char}
    (reaches : Reaches point tokens last) (rest : point.rest = passed ++ last.rest) :
    Reaches { point with rest := passed } tokens { last with rest := [] } := by
  induction reaches generalizing passed with
  | here point =>
      have none : passed = [] := by simpa using rest
      subst none
      exact .here _
  | @further point next last token tokens stepped more ih =>
      obtain ⟨rule, lexeme, behind, whole, taken, sound, rfl⟩ := step_eq_ok_iff.mp stepped
      obtain ⟨inner, same, -, -⟩ := more.exists_passed
      dsimp only at same
      subst same
      have split : passed = lexeme ++ inner := by
        rw [whole, ← List.append_assoc] at rest
        exact (List.append_cancel_right rest).symm
      subst split
      rw [whole] at taken
      refine .further (step_eq_ok_iff.mpr ⟨rule, lexeme, inner, rfl, ?_, ?_, rfl⟩) (ih rfl)
      · exact first?_of_append taken
      · exact token?_of_append sound

end Scan

end ScriptReader
