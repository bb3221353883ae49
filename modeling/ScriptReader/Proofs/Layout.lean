/- # ScriptReader.Proofs.Layout — a text as tokens and what lies between them

A text is laid out as pieces: runs of white space, comments and tokens, each token
in its own spelling. `Token.Canonical` says which texts a token of a kind can have.
`Layout` says of a list of pieces that each is one whole piece where it stands:
tokens are canonical, a comment goes to its line feed or to the end, and a run of
white space is not part of a longer one.

Every step of the scanner takes one such piece (`exists_piece_of_taken`), so a text
that is scanned to its end is laid out as its pieces (`Reaches.exists_pieces`,
`tokenize_ok_layout`).
-/
import ScriptReader.Proofs.Scanning

namespace ScriptReader

set_option autoImplicit false

open Lexeme (Rule first? IsNumeral IsName IsComment)
open Text (EndsRun)

/-! ## Tokens as they are written -/

namespace Token

/-- The characters of a token: its text, which stands between quotes if it is a text literal. -/
def spelled (token : Token) : List Char :=
  if token.kind = .text then '"' :: token.text.toList ++ ['"'] else token.text.toList

/-- The token has a text that tokens of its kind can have. No text belongs to the end of
input. -/
def Canonical (token : Token) : Prop :=
  match token.kind with
  | .number => IsNumeral token.text.toList
  | .text => '"' ∉ token.text.toList
  | .identifier =>
    IsName token.text.toList ∧ ∀ kind ∈ TokenKind.words, kind.spelling? ≠ some token.text
  | kind => kind.spelling? = some token.text

theorem canonical_of_spelling? {kind : TokenKind} {text : String}
    (fixed : kind.spelling? = some text) : Canonical ⟨kind, text⟩ := by
  cases kind with
  | endOfInput | number | text | identifier => cases fixed
  | _ => exact fixed

theorem spelled_of_spelling? {kind : TokenKind} {text : String}
    (fixed : kind.spelling? = some text) : spelled ⟨kind, text⟩ = text.toList := by
  have other : kind ≠ .text := by
    rintro rfl
    cases fixed
  exact if_neg other

/-- What a canonical token looks like, by kind. -/
theorem Canonical.cases {kind : TokenKind} {text : String} (canonical : Canonical ⟨kind, text⟩) :
    (kind = .number ∧ IsNumeral text.toList) ∨
      (kind = .text ∧ '"' ∉ text.toList) ∨
      (kind = .identifier ∧ IsName text.toList ∧
        ∀ kind ∈ TokenKind.words, kind.spelling? ≠ some text) ∨
      kind.spelling? = some text := by
  cases kind with
  | number => exact .inl ⟨rfl, canonical⟩
  | text => exact .inr (.inl ⟨rfl, canonical⟩)
  | identifier => exact .inr (.inr (.inl ⟨rfl, canonical⟩))
  | _ => exact .inr (.inr (.inr canonical))

theorem Canonical.kind_ne {token : Token} (canonical : token.Canonical) :
    token.kind ≠ .endOfInput := by
  obtain ⟨kind, text⟩ := token
  rintro rfl
  cases canonical

end Token

/-- Every reserved word is the spelling of its kind. -/
theorem TokenKind.reserved_spelling {name : String} {kind : TokenKind}
    (listed : (name, kind) ∈ reserved) : kind.spelling? = some name := by
  have all : ∀ row ∈ reserved, row.2.spelling? = some row.1 := by decide
  exact all _ listed

theorem TokenKind.ofWord?_eq_some {name : String} {kind : TokenKind}
    (found : ofWord? name = some kind) : kind.spelling? = some name := by
  obtain ⟨before, behind, same, -⟩ := List.lookup_eq_some_iff.mp found
  exact reserved_spelling (same ▸ List.mem_append_right _ List.mem_cons_self)

theorem TokenKind.ofWord?_eq_none_iff {name : String} :
    ofWord? name = none ↔ ∀ kind ∈ words, kind.spelling? ≠ some name := by
  rw [ofWord?, List.lookup_eq_none_iff]
  constructor
  · intro absent kind word spelled
    obtain ⟨⟨other, kind'⟩, listed, rfl⟩ := List.mem_map.mp word
    rw [reserved_spelling listed] at spelled
    have differs := absent _ listed
    rw [Option.some.inj spelled] at differs
    simp at differs
  · intro free row listed
    have differs := free row.2 (List.mem_map_of_mem listed)
    rw [reserved_spelling listed] at differs
    simpa using fun same => differs (by rw [same])

/-- A token does not end in white space. -/
theorem Token.Canonical.exists_concat {token : Token} (canonical : token.Canonical) :
    ∃ front last, token.spelled = front ++ [last] ∧ Text.isBlank last = false := by
  obtain ⟨kind, text⟩ := token
  -- All characters are visible, save between quotes.
  have visible : kind ≠ .text → text.toList ≠ [] ∧ ∀ c ∈ text.toList, Text.isBlank c = false := by
    intro other
    rcases canonical.cases with ⟨-, numeral⟩ | ⟨same, -⟩ | ⟨-, name, -⟩ | fixed
    · obtain ⟨first, others, whole, -⟩ := numeral.exists_cons
      exact ⟨by simp [whole], numeral.visible⟩
    · exact absurd same other
    · refine ⟨?_, name.visible⟩
      obtain ⟨first, others, whole, -⟩ := name
      simp [whole]
    · exact ⟨Lexeme.spelling?_ne_empty fixed,
        fun c member => (Lexeme.visible_of_spelling? fixed c member).1⟩
  by_cases literal : kind = .text
  · subst literal
    exact ⟨'"' :: text.toList, '"', rfl, by decide⟩
  · obtain ⟨nonempty, all⟩ := visible literal
    refine ⟨text.toList.dropLast, text.toList.getLast nonempty, ?_, all _ (List.getLast_mem _)⟩
    rw [List.dropLast_concat_getLast]
    exact if_neg literal

/-! ## Pieces -/

/-- A part of a text: white space, a comment, or a token. -/
inductive Piece where
  | blank (run : List Char)
  | comment (text : List Char)
  | token (word : Token)

namespace Piece

def spelled : Piece → List Char
  | .blank run => run
  | .comment text => text
  | .token word => word.spelled

def token? : Piece → Option Token
  | .token word => some word
  | _ => none

/-- The text that pieces make. -/
def spelledAll (pieces : List Piece) : List Char := pieces.flatMap spelled

/-- The piece is whole in front of the text that follows it. -/
def Fits (rest : List Char) : Piece → Prop
  | .blank run => run ≠ [] ∧ (∀ c ∈ run, Text.isBlank c = true) ∧ EndsRun Text.isBlank rest
  | .comment text => IsComment text rest
  | .token word => word.Canonical

/-- The piece is whole between the pieces around it. Behind a run of white space there is no
white space; in front of one there is at most the line feed of a comment. -/
def Stands (before behind : List Piece) (piece : Piece) : Prop :=
  piece.Fits (spelledAll behind) ∧
    ∀ run, piece = .blank run → ∀ front last, spelledAll before = front ++ [last] →
      Text.isBlank last = true → ∃ text, before.getLast? = some (.comment text)

/-- Every piece is whole where it stands. -/
def Layout (pieces : List Piece) : Prop :=
  ∀ before piece behind, pieces = before ++ piece :: behind → piece.Stands before behind

/-- Every piece is whole in front of those that follow it. -/
def AllFit (pieces : List Piece) : Prop :=
  ∀ (before : List Piece) (piece : Piece) (behind : List Piece),
    pieces = before ++ piece :: behind → piece.Fits (spelledAll behind)

theorem spelledAll_append (pieces others : List Piece) :
    spelledAll (pieces ++ others) = spelledAll pieces ++ spelledAll others := by
  simp [spelledAll]

theorem spelledAll_cons (piece : Piece) (others : List Piece) :
    spelledAll (piece :: others) = piece.spelled ++ spelledAll others := by
  simp [spelledAll]

/-- Pieces that are whole in front of what follows them are whole where they stand: a run of
white space is preceded by no other, and tokens do not end in white space. -/
theorem layout_of_allFit {pieces : List Piece} (fits : AllFit pieces) : Layout pieces := by
  intro before piece behind whole
  refine ⟨fits before piece behind whole, ?_⟩
  rintro run rfl front last ends blank
  obtain ⟨nonempty, all, -⟩ := fits before (.blank run) behind whole
  rcases List.eq_nil_or_concat before with rfl | ⟨others, previous, rfl⟩
  · simp [spelledAll] at ends
  rw [List.concat_eq_append] at whole ends ⊢
  have fits' : previous.Fits (spelledAll (.blank run :: behind)) :=
    fits others previous (.blank run :: behind) (by simpa using whole)
  cases previous with
  | blank run' =>
      obtain ⟨-, -, ended⟩ := fits'
      cases run with
      | nil => exact absurd rfl nonempty
      | cons c run =>
          have outside : Text.isBlank c = false := ended c (run ++ spelledAll behind) rfl
          rw [all c List.mem_cons_self] at outside
          cases outside
  | comment text => exact ⟨text, by simp⟩
  | token word =>
      have canonical : word.Canonical := fits'
      obtain ⟨front', last', written, visible⟩ := canonical.exists_concat
      have same : last' = last := by
        rw [spelledAll_append, spelledAll_cons, spelled, written] at ends
        simpa [spelledAll] using congrArg List.getLast? ends
      rw [same, blank] at visible
      cases visible

/-! ## Scanned texts -/

/-- What is taken in a step is a whole piece, which holds the token that is found. -/
theorem exists_piece_of_taken {rule : Rule} {lexeme rest : List Char} {token : Option Token}
    (taken : first? (lexeme ++ rest) = some (rule, lexeme))
    (sound : rule.token? lexeme rest = .ok token) :
    ∃ piece : Piece, piece.spelled = lexeme ∧ piece.token? = token ∧ piece.Fits rest := by
  obtain ⟨-, taken, -⟩ := Lexeme.first?_eq_some_iff.mp taken
  obtain ⟨rest', same, fits⟩ := Rule.lexeme?_eq_some_iff.mp taken
  have same := List.append_cancel_left same
  subst same
  cases rule with
  | blank =>
      cases sound
      exact ⟨.blank lexeme, rfl, rfl, fits⟩
  | comment =>
      cases sound
      exact ⟨.comment lexeme, rfl, rfl, fits⟩
  | closedText =>
      obtain ⟨content, absent, rfl⟩ := fits
      cases sound
      refine ⟨.token ⟨.text, String.ofList content⟩, ?_, ?_, ?_⟩
      · simp [spelled, Token.spelled]
      · simp [token?]
      · simpa [Fits, Token.Canonical] using absent
  | openText => cases sound
  | number =>
      simp only [Rule.token?] at sound
      split at sound
      · cases sound
      · cases sound
        refine ⟨.token ⟨.number, String.ofList lexeme⟩, ?_, rfl, ?_⟩
        · simp [spelled, Token.spelled]
        · simpa [Fits, Token.Canonical] using fits.isNumeral
  | word =>
      cases sound
      refine ⟨.token ⟨_, String.ofList lexeme⟩, ?_, rfl, ?_⟩
      · cases found : TokenKind.ofWord? (String.ofList lexeme) with
        | none => simp [spelled, Token.spelled]
        | some kind =>
            have fixed := TokenKind.ofWord?_eq_some found
            simp [spelled, Token.spelled_of_spelling? fixed]
      · cases found : TokenKind.ofWord? (String.ofList lexeme) with
        | none =>
            have name : IsName (String.ofList lexeme).toList := by simpa using fits.1
            exact ⟨name, TokenKind.ofWord?_eq_none_iff.mp found⟩
        | some kind => exact Token.canonical_of_spelling? (TokenKind.ofWord?_eq_some found)
  | fixed sign =>
      cases sound
      have fixed : sign.kind.spelling? = some sign.literal :=
        sign.literal_eq ▸ sign.spelling_eq
      refine ⟨.token ⟨sign.kind, sign.literal⟩, ?_, rfl, Token.canonical_of_spelling? fixed⟩
      rw [spelled, Token.spelled_of_spelling? fixed, sign.literal_eq]
      exact fits.symm

end Piece

/-- A run to the end of the text lays the text out as pieces, and finds their tokens. -/
theorem Scan.Reaches.exists_pieces {point last : Scan.Point} {tokens : List Token}
    (reaches : Scan.Reaches point tokens last) (ends : last.rest = []) :
    ∃ pieces : List Piece, point.rest = Piece.spelledAll pieces ∧
      tokens = pieces.filterMap Piece.token? ∧ Piece.AllFit pieces := by
  induction reaches with
  | here point => exact ⟨[], ends, rfl, by simp [Piece.AllFit]⟩
  | @further point next last token tokens stepped more ih =>
      obtain ⟨pieces, rest, found, fits⟩ := ih ends
      obtain ⟨rule, lexeme, behind, whole, taken, sound, rfl⟩ := Scan.step_eq_ok_iff.mp stepped
      rw [whole] at taken
      obtain ⟨piece, written, made, here⟩ := Piece.exists_piece_of_taken taken sound
      dsimp only at rest
      refine ⟨piece :: pieces, ?_, ?_, ?_⟩
      · rw [Piece.spelledAll_cons, written, ← rest, whole]
      · subst made found
        cases piece <;> rfl
      · intro before piece' behind' split
        cases before with
        | nil =>
            cases split
            exact rest ▸ here
        | cons first before =>
            cases split
            exact fits before piece' behind' rfl

/-- The tokens of pieces that are whole are canonical. -/
theorem Piece.canonical_of_allFit {pieces : List Piece} (fits : AllFit pieces) :
    ∀ token ∈ pieces.filterMap Piece.token?, token.Canonical := by
  intro token member
  obtain ⟨piece, among, made⟩ := List.mem_filterMap.mp member
  obtain ⟨before, behind, split⟩ := List.append_of_mem among
  have here := fits before piece behind split
  cases piece with
  | token word =>
      cases made
      exact here
  | _ => cases made

/-- What is scanned are canonical tokens and the end of input. -/
theorem exists_canonical_of_tokenize {source : String} {tokens : List Token}
    (accepted : tokenize source = .ok tokens) :
    ∃ words : List Token, tokens = words ++ [.endOfInput] ∧ ∀ token ∈ words, token.Canonical := by
  obtain ⟨found, last, reaches, ends, rfl⟩ := tokenize_eq_ok_iff.mp accepted
  obtain ⟨pieces, -, rfl, fits⟩ := reaches.exists_pieces ends
  exact ⟨_, rfl, Piece.canonical_of_allFit fits⟩

end ScriptReader
