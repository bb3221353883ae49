/- # ScriptReader.Proofs.Respelling — tokens written out are found again

Canonical tokens may be written with any layout: in front of them and behind each
of them stands a separator, that is white space and comments that end with their
line feed. Between two tokens it has to begin with white space, so that nothing
runs into the first one. Whatever the layout, scanning finds the tokens
(`tokenize_wellSpaced`).

White space is scanned in runs, but it may as well be passed one character at a
time (`scanFrom_blank_cons`), and so a separator is passed along its construction
(`scanFrom_separator`). In front of white space a canonical token is taken whole, in
one step (`step_spelled`).
-/
import ScriptReader.Proofs.Layout

namespace ScriptReader

set_option autoImplicit false

open Lexeme (Rule first? first?_of_fits first?_of_sign IsNumeral IsName LongestNumeral OpensBlank
  startsWord continuesWord startsWord_iff continuesWord_iff)
open Text (EndsRun)

/-! ## Separators -/

/-- White space, and comments that end with their line feed, in any order. -/
inductive Separator : List Char → Prop
  | nothing : Separator []
  | blank {c : Char} {rest : List Char} (white : Text.isBlank c = true) (more : Separator rest) :
      Separator (c :: rest)
  | comment {body rest : List Char} (absent : '\n' ∉ body) (more : Separator rest) :
      Separator ('/' :: '/' :: body ++ '\n' :: rest)

namespace Scan

variable {offset : Nat} {line : UInt32} {rest : List Char}

theorem scanFrom_of_step_none {point next : Point} (stepped : step point = .ok (none, next)) :
    scanFrom point = scanFrom next := by
  rw [scanFrom_of_step stepped]
  cases scanFrom next <;> rfl

theorem scanFrom_blank_run {run : List Char} (all : ∀ c ∈ run, Text.isBlank c = true)
    (ends : EndsRun Text.isBlank rest) :
    scanFrom ⟨offset, line, run ++ rest⟩ =
      scanFrom ⟨offset + Text.byteSize run, line + Text.lineCount run, rest⟩ := by
  by_cases nonempty : run = []
  · subst nonempty
    simp
  · have fits : Rule.blank.Fits run rest := ⟨nonempty, all, ends⟩
    have taken := first?_of_fits (by decide) fits
    apply scanFrom_of_step_none
    exact step_eq_ok_iff.mpr ⟨.blank, run, rest, rfl, taken, rfl, rfl⟩

/-- A white space character is passed by itself: what follows it is scanned as it would have
been alone. -/
theorem scanFrom_blank_cons {c : Char} (white : Text.isBlank c = true) :
    scanFrom ⟨offset, line, c :: rest⟩ =
      scanFrom ⟨offset + Text.byteSize [c], line + Text.lineCount [c], rest⟩ := by
  obtain ⟨run, behind, rfl, all, ends⟩ := Text.exists_run Text.isBlank rest
  have all' : ∀ d ∈ c :: run, Text.isBlank d = true := by
    intro d member
    rcases List.mem_cons.mp member with rfl | later
    · exact white
    · exact all d later
  have bytes := Text.byteSize_append [c] run
  have feeds := Text.lineCount_append [c] run
  rw [List.cons_append, List.nil_append] at bytes feeds
  rw [← List.cons_append, scanFrom_blank_run all' ends, scanFrom_blank_run all ends, bytes, feeds,
    Nat.add_assoc, UInt32.add_assoc]

theorem scanFrom_comment {body : List Char} (absent : '\n' ∉ body) :
    scanFrom ⟨offset, line, '/' :: '/' :: body ++ '\n' :: rest⟩ =
      scanFrom ⟨offset + Text.byteSize ('/' :: '/' :: body ++ ['\n']),
        line + Text.lineCount ('/' :: '/' :: body ++ ['\n']), rest⟩ := by
  have fits : Rule.comment.Fits ('/' :: '/' :: body ++ ['\n']) rest :=
    ⟨body, absent, .inl rfl⟩
  have taken := first?_of_fits (by decide) fits
  have whole : '/' :: '/' :: body ++ '\n' :: rest = '/' :: '/' :: body ++ ['\n'] ++ rest := by simp
  rw [← whole] at taken
  apply scanFrom_of_step_none
  exact step_eq_ok_iff.mpr ⟨.comment, _, rest, whole, taken, rfl, rfl⟩

/-- A separator holds no tokens and is passed whole. -/
theorem scanFrom_separator {gap : List Char} (separator : Separator gap) :
    scanFrom ⟨offset, line, gap ++ rest⟩ =
      scanFrom ⟨offset + Text.byteSize gap, line + Text.lineCount gap, rest⟩ := by
  induction separator generalizing offset line with
  | nothing => simp
  | @blank c gap white more ih =>
      have bytes := Text.byteSize_append [c] gap
      have feeds := Text.lineCount_append [c] gap
      rw [List.cons_append, List.nil_append] at bytes feeds
      rw [List.cons_append, scanFrom_blank_cons white, ih, bytes, feeds, Nat.add_assoc,
        UInt32.add_assoc]
  | @comment body gap absent more ih =>
      have bytes := Text.byteSize_append ('/' :: '/' :: body ++ ['\n']) gap
      have feeds := Text.lineCount_append ('/' :: '/' :: body ++ ['\n']) gap
      have whole : '/' :: '/' :: body ++ ['\n'] ++ gap = '/' :: '/' :: body ++ '\n' :: gap := by
        simp
      have split : '/' :: '/' :: body ++ '\n' :: gap ++ rest =
          '/' :: '/' :: body ++ '\n' :: (gap ++ rest) := by simp
      rw [whole] at bytes feeds
      rw [split, scanFrom_comment absent, ih, bytes, feeds, Nat.add_assoc, UInt32.add_assoc]

end Scan

/-! ## Tokens in front of white space -/

namespace Lexeme

variable {rest : List Char}

/-- White space ends every run of visible characters. -/
theorem OpensBlank.endsRun {inside : Char → Bool} (gap : OpensBlank rest)
    (visible : ∀ c, inside c = true → Text.isBlank c = false) : EndsRun inside rest := by
  intro c more same
  have white := gap c more same
  cases within : inside c with
  | false => rfl
  | true =>
      rw [visible c within] at white
      cases white

theorem isBlank_of_continuesWord {c : Char} (continues : continuesWord c = true) :
    Text.isBlank c = false := by
  rcases continuesWord_iff.mp continues with starts | digit
  · exact isBlank_of_startsWord starts
  · exact isBlank_of_isDigit digit

/-- A numeral does not go on in white space. -/
theorem IsNumeral.longest {numeral : List Char} (numeral' : IsNumeral numeral)
    (gap : OpensBlank rest) : LongestNumeral numeral rest := by
  refine ⟨numeral', ?_⟩
  intro more start longer
  cases more with
  | nil => rfl
  | cons c more =>
      obtain ⟨behind, rfl⟩ := start
      have white : Text.isBlank c = true := gap c (more ++ behind) rfl
      have visible := longer.visible c (by simp)
      rw [white] at visible
      cases visible

end Lexeme

/-- The spellings of reserved words have the form of names. -/
theorem TokenKind.isName_of_mem_words {kind : TokenKind} {spelling : String} (word : kind ∈ words)
    (fixed : kind.spelling? = some spelling) : IsName spelling.toList := by
  have taken : ∀ kind ∈ words, ∀ spelling ∈ kind.spelling?,
      Lexeme.word? spelling.toList = some spelling.toList := by decide
  obtain ⟨rest, -, name, -⟩ := Lexeme.word?_eq_some_iff.mp (taken kind word spelling fixed)
  exact name

theorem TokenKind.ofWord?_spelling {kind : TokenKind} {spelling : String} (word : kind ∈ words)
    (fixed : kind.spelling? = some spelling) : ofWord? spelling = some kind := by
  have found : ∀ kind ∈ words, ∀ spelling ∈ kind.spelling?, ofWord? spelling = some kind := by
    decide
  exact found kind word spelling fixed

/-- What has a fixed spelling is a reserved word or has a sign. -/
theorem TokenKind.mem_words_or_signs {kind : TokenKind} {spelling : String}
    (fixed : kind.spelling? = some spelling) :
    kind ∈ words ∨ ∃ sign ∈ Lexeme.signs, sign.kind = kind := by
  cases kind with
  | endOfInput | number | text | identifier => cases fixed
  | _ => decide

namespace Scan

variable {offset : Nat} {line : UInt32} {rest : List Char}

/-- A rule that takes the token's characters and makes the token of them takes the token. -/
theorem step_of_taken {rule : Rule} {token : Token}
    (taken : first? (token.spelled ++ rest) = some (rule, token.spelled))
    (sound : rule.token? token.spelled rest = .ok (some token)) :
    step ⟨offset, line, token.spelled ++ rest⟩ =
      .ok (some token, ⟨offset + Text.byteSize token.spelled,
        line + Text.lineCount token.spelled, rest⟩) :=
  step_eq_ok_iff.mpr ⟨rule, token.spelled, rest, rfl, taken, sound, rfl⟩

/-- In front of white space, and at the end, a canonical token is found as it is written. -/
theorem step_spelled {token : Token} (canonical : token.Canonical) (gap : OpensBlank rest) :
    step ⟨offset, line, token.spelled ++ rest⟩ =
      .ok (some token, ⟨offset + Text.byteSize token.spelled,
        line + Text.lineCount token.spelled, rest⟩) := by
  obtain ⟨kind, text⟩ := token
  have wordEnds : EndsRun continuesWord rest :=
    gap.endsRun fun c => Lexeme.isBlank_of_continuesWord
  rcases canonical.cases with ⟨rfl, numeral⟩ | ⟨rfl, absent⟩ | ⟨rfl, name, free⟩ | fixed
  · have fits : Rule.number.Fits text.toList rest := numeral.longest gap
    have plain : (rest.take 1).any startsWord = false := by
      have ends : EndsRun startsWord rest := gap.endsRun fun c => Lexeme.isBlank_of_startsWord
      cases rest with
      | nil => rfl
      | cons c more => simpa using Text.endsRun_cons.mp ends
    refine step_of_taken (first?_of_fits (by decide) fits) ?_
    simp [Rule.token?, plain, Token.spelled]
  · have fits : Rule.closedText.Fits ('"' :: text.toList ++ ['"']) rest :=
      ⟨text.toList, absent, rfl⟩
    refine step_of_taken (first?_of_fits (by decide) fits) ?_
    simp [Rule.token?, Token.spelled]
  · have fits : Rule.word.Fits text.toList rest := ⟨name, wordEnds⟩
    refine step_of_taken (first?_of_fits (by decide) fits) ?_
    simp [Rule.token?, Token.spelled, TokenKind.ofWord?_eq_none_iff.mpr free]
  · have written := Token.spelled_of_spelling? fixed
    rcases TokenKind.mem_words_or_signs fixed with word | ⟨sign, listed, rfl⟩
    · have fits : Rule.word.Fits text.toList rest :=
        ⟨TokenKind.isName_of_mem_words word fixed, wordEnds⟩
      have taken := first?_of_fits (by decide) fits
      rw [← written] at taken
      refine step_of_taken taken ?_
      simp [Rule.token?, written, TokenKind.ofWord?_spelling word fixed]
    · have same : sign.pattern = text := Option.some.inj (sign.spelling_eq.symm.trans fixed)
      have taken := first?_of_sign listed gap
      rw [same, ← written] at taken
      refine step_of_taken taken ?_
      rw [Rule.token?, sign.literal_eq, same]

end Scan

/-! ## Tokens with separators -/

/-- A token and what separates it from the next one. -/
structure Spaced where
  token : Token
  gap : List Char

def Spaced.spelled (word : Spaced) : List Char := word.token.spelled ++ word.gap

/-- Canonical tokens, each with a separator behind it. A separator that is not empty begins
with white space, and only the last one can be empty. -/
structure WellSpaced (words : List Spaced) : Prop where
  canonical : ∀ word ∈ words, word.token.Canonical
  separator : ∀ word ∈ words, Separator word.gap
  opensBlank : ∀ word ∈ words, OpensBlank word.gap
  apart : ∀ word ∈ words.dropLast, word.gap ≠ []

namespace WellSpaced

variable {word : Spaced} {others : List Spaced}

theorem nil : WellSpaced [] where
  canonical _ member := absurd member List.not_mem_nil
  separator _ member := absurd member List.not_mem_nil
  opensBlank _ member := absurd member List.not_mem_nil
  apart _ member := absurd member List.not_mem_nil

theorem cons (canonical : word.token.Canonical) (separator : Separator word.gap)
    (opens : OpensBlank word.gap) (apart : others ≠ [] → word.gap ≠ [])
    (spaced : WellSpaced others) : WellSpaced (word :: others) where
  canonical := List.forall_mem_cons.mpr ⟨canonical, spaced.canonical⟩
  separator := List.forall_mem_cons.mpr ⟨separator, spaced.separator⟩
  opensBlank := List.forall_mem_cons.mpr ⟨opens, spaced.opensBlank⟩
  apart := by
    cases others with
    | nil => simp
    | cons next others =>
        exact List.forall_mem_cons.mpr ⟨apart (List.cons_ne_nil next others), spaced.apart⟩

theorem tail (spaced : WellSpaced (word :: others)) : WellSpaced others where
  canonical other member := spaced.canonical other (List.mem_cons_of_mem _ member)
  separator other member := spaced.separator other (List.mem_cons_of_mem _ member)
  opensBlank other member := spaced.opensBlank other (List.mem_cons_of_mem _ member)
  apart other member := by
    cases others with
    | nil => cases member
    | cons next others => exact spaced.apart other (List.mem_cons_of_mem _ member)

/-- Behind the first token stands white space or nothing. -/
theorem opensBlank_rest (spaced : WellSpaced (word :: others)) :
    OpensBlank (word.gap ++ others.flatMap Spaced.spelled) := by
  have opens := spaced.opensBlank word List.mem_cons_self
  cases gap : word.gap with
  | nil =>
      cases others with
      | nil => exact Lexeme.opensBlank_nil
      | cons next others => exact absurd gap (spaced.apart word (by simp))
  | cons c gap' => exact Lexeme.opensBlank_cons (opens c gap' gap)

end WellSpaced

theorem Scan.scanFrom_wellSpaced {words : List Spaced} (spaced : WellSpaced words)
    (offset : Nat) (line : UInt32) :
    ∃ lines, scanFrom ⟨offset, line, words.flatMap Spaced.spelled⟩ =
      .ok ⟨words.map Spaced.token ++ [.endOfInput], lines⟩ := by
  induction words generalizing offset line with
  | nil => exact ⟨line, scanFrom_of_end rfl⟩
  | cons word others ih =>
      have separator := spaced.separator word List.mem_cons_self
      have canonical := spaced.canonical word List.mem_cons_self
      have written : (word :: others).flatMap Spaced.spelled =
          word.token.spelled ++ (word.gap ++ others.flatMap Spaced.spelled) := by
        simp [Spaced.spelled]
      rw [written, scanFrom_of_step (step_spelled canonical spaced.opensBlank_rest),
        scanFrom_separator separator]
      obtain ⟨lines, later⟩ := ih spaced.tail _ _
      exact ⟨lines, by rw [later]; rfl⟩

/-- Tokens with single spaces between them. -/
def singleSpaced : List Token → List Spaced
  | [] => []
  | [token] => [⟨token, []⟩]
  | token :: next :: others => ⟨token, [' ']⟩ :: singleSpaced (next :: others)

theorem singleSpaced_token (tokens : List Token) :
    (singleSpaced tokens).map Spaced.token = tokens := by
  induction tokens using singleSpaced.induct with
  | case1 => rfl
  | case2 token => rfl
  | case3 token next others ih => simp [singleSpaced, ih]

theorem singleSpaced_spelled (tokens : List Token) :
    (singleSpaced tokens).flatMap Spaced.spelled =
      [' '].intercalate (tokens.map Token.spelled) := by
  induction tokens using singleSpaced.induct with
  | case1 => rfl
  | case2 token => simp [singleSpaced, Spaced.spelled]
  | case3 token next others ih =>
      rw [singleSpaced, List.flatMap_cons, ih]
      simp [Spaced.spelled, List.intercalate]

theorem wellSpaced_singleSpaced {tokens : List Token}
    (canonical : ∀ token ∈ tokens, token.Canonical) : WellSpaced (singleSpaced tokens) := by
  have space : Separator [' '] := .blank (by decide) .nothing
  have opens : OpensBlank [' '] := Lexeme.opensBlank_cons (by decide)
  induction tokens using singleSpaced.induct with
  | case1 => exact .nil
  | case2 token =>
      exact .cons (canonical token List.mem_cons_self) .nothing Lexeme.opensBlank_nil (absurd rfl)
        .nil
  | case3 token next others ih =>
      have others' := ih fun other member => canonical other (List.mem_cons_of_mem _ member)
      exact .cons (canonical token List.mem_cons_self) space opens (fun _ => by simp) others'

/-- The tokens of a text in their own spellings, with single spaces between them. -/
def respelled (tokens : List Token) : String :=
  String.ofList ([' '].intercalate (tokens.map Token.spelled))

/-- **Scanning finds what was written**, whatever the layout: canonical tokens with separators
behind them, and a separator in front of all, which may begin with a comment. A text without
tokens has only the end of input. The tokens of any text that is accepted are found again when
they are written with single spaces. -/
theorem tokenize_wellSpaced :
    (∀ lead words, Separator lead → WellSpaced words →
      tokenize (String.ofList (lead ++ words.flatMap Spaced.spelled)) =
        .ok (words.map Spaced.token ++ [.endOfInput])) ∧
    (∀ lead, Separator lead → tokenize (String.ofList lead) = .ok [.endOfInput]) ∧
    ∀ source tokens, tokenize source = .ok tokens →
      tokenize (respelled tokens.dropLast) = .ok tokens := by
  have found : ∀ lead words, Separator lead → WellSpaced words →
      tokenize (String.ofList (lead ++ words.flatMap Spaced.spelled)) =
        .ok (words.map Spaced.token ++ [.endOfInput]) := by
    intro lead words separator spaced
    obtain ⟨lines, result⟩ := Scan.scanFrom_wellSpaced spaced
      (0 + Text.byteSize lead) (1 + Text.lineCount lead)
    rw [tokenize, scan, Scan.Point.start, String.toList_ofList, Scan.scanFrom_separator separator,
      result]
    rfl
  refine ⟨found, ?_, ?_⟩
  · intro lead separator
    have alone := found lead [] separator .nil
    simpa using alone
  · intro source tokens accepted
    obtain ⟨words, rfl, canonical⟩ := exists_canonical_of_tokenize accepted
    have again := found [] (singleSpaced words) .nothing (wellSpaced_singleSpaced canonical)
    rw [List.nil_append, singleSpaced_spelled, singleSpaced_token] at again
    rw [List.dropLast_concat, respelled, again]

/-- A declaration behind a comment, with a comment inside it; a comment alone; and a sum without
spaces, written again with spaces. -/
theorem declaration_and_sum_respelled :
    let lead : List Char := ['/', '/', 'a', '\n']
    let declaration : List Spaced :=
      [⟨⟨.letWord, "let"⟩, [' ']⟩,
        ⟨⟨.identifier, "lets"⟩, ['\n', '/', '/', 'b', '\n']⟩, ⟨⟨.text, "//"⟩, []⟩]
    let sum : List Token := [⟨.identifier, "a"⟩, ⟨.plus, "+"⟩, ⟨.number, "1.5"⟩, .endOfInput]
    tokenize (String.ofList (lead ++ declaration.flatMap Spaced.spelled)) =
        .ok [⟨.letWord, "let"⟩, ⟨.identifier, "lets"⟩, ⟨.text, "//"⟩, .endOfInput] ∧
      tokenize (String.ofList lead) = .ok [.endOfInput] ∧
      tokenize "a+1.5" = .ok sum ∧ tokenize (respelled sum.dropLast) = .ok sum := by
  intro lead declaration sum
  obtain ⟨found, alone, again⟩ := tokenize_wellSpaced
  have separator : Separator lead := .comment (show '\n' ∉ ['a'] by decide) .nothing
  have middle : Separator ['\n', '/', '/', 'b', '\n'] :=
    .blank (by decide) (.comment (show '\n' ∉ ['b'] by decide) .nothing)
  have space : Separator [' '] := .blank (by decide) .nothing
  have letters : ['e', 't', 's'].all Lexeme.continuesWord = true := by decide
  have name : Token.Canonical ⟨.identifier, "lets"⟩ :=
    ⟨⟨'l', ['e', 't', 's'], rfl, by decide, List.all_eq_true.mp letters⟩, by decide⟩
  have absent : '"' ∉ "//".toList := by decide
  have literal : Token.Canonical ⟨.text, "//"⟩ := absent
  have spaced : WellSpaced declaration :=
    .cons rfl space (Lexeme.opensBlank_cons (by decide)) (by simp)
      (.cons name middle (Lexeme.opensBlank_cons (by decide)) (by simp)
        (.cons literal .nothing Lexeme.opensBlank_nil (absurd rfl) .nil))
  have accepted : tokenize "a+1.5" =
      .ok [⟨.identifier, "a"⟩, ⟨.plus, "+"⟩, ⟨.number, "1.5"⟩, .endOfInput] := by decide +kernel
  have declared := found lead declaration separator spaced
  have respaced := again "a+1.5" sum accepted
  exact ⟨declared, alone lead separator, accepted, respaced⟩

end ScriptReader
