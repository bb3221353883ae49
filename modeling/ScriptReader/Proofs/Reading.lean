/- # ScriptReader.Proofs.Reading — what is read where, without levels

An answer counts levels of nesting and carries a cursor. Here is the same matter
as a relation: `phrase.Reads tables ahead value left` says that the tokens
`ahead` begin with the phrase, that it stands for `value`, and that `left` is
left of them. `Phrase.reads_iff` opens a phrase into its recipe, and the lemmas
`Recipe.reads_*` open a recipe step by step, both ways.

A relation says nothing of a token that is read at the end of a stream, where
the cursor stays. So a reading is an answer only where something is left of the
stream (`answer_of_readsWithin`).
-/
import ScriptReader.Answering

namespace ScriptReader

set_option autoImplicit false

/-! ## Cursors by what is ahead -/

namespace Cursor

/-- The tokens from the cursor on. -/
def ahead (cursor : Cursor) : List Token := cursor.current :: cursor.rest

/-- The cursor at an index in front of the given tokens. -/
def facing (index : Nat) : List Token → Cursor
  | [] => ⟨index, .endOfInput, []⟩
  | current :: rest => ⟨index, current, rest⟩

theorem start_eq_facing (tokens : List Token) : start tokens = facing 0 (closeStream tokens) := by
  unfold start
  cases closeStream tokens <;> rfl

theorem ahead_facing {index : Nat} {tokens : List Token} (some : tokens ≠ []) :
    (facing index tokens).ahead = tokens := by
  cases tokens with
  | nil => exact absurd rfl some
  | cons current rest => rfl

theorem next_facing {index : Nat} {current : Token} {rest : List Token} (more : rest ≠ []) :
    (facing index (current :: rest)).next = facing (index + 1) rest := by
  cases rest with
  | nil => exact absurd rfl more
  | cons following rest => rfl

end Cursor

/-! ## Readings of recipes -/

/-- What can be read as each phrase: the tokens ahead, the value, and the tokens left. -/
abbrev Readings := (phrase : Phrase) → List Token → phrase.Value → List Token → Prop

namespace Recipe

variable {α β : Type}

/-- A recipe reads a value from the tokens ahead and leaves some of them, given what can be
read as each phrase. -/
def Reads (readings : Readings) : Recipe α → List Token → α → List Token → Prop
  | .yield value, ahead, result, left => result = value ∧ left = ahead
  | .refuse _, _, _, _ => False
  | .peek next, ahead, result, left =>
    ∃ token rest, ahead = token :: rest ∧ (next token).Reads readings ahead result left
  | .readToken fault next, ahead, result, left =>
    ∃ token rest, ahead = token :: rest ∧ fault token = none ∧
      (next token).Reads readings rest result left
  | .readPhrase phrase fault next, ahead, result, left =>
    ∃ value middle, readings phrase ahead value middle ∧ fault value = none ∧
      (next value).Reads readings middle result left

variable {readings readings' : Readings} {ahead left : List Token}

/-! ### Recipes step by step -/

@[simp] theorem reads_yield {value result : α} :
    (Recipe.yield value).Reads readings ahead result left ↔ result = value ∧ left = ahead := Iff.rfl

@[simp] theorem reads_pure {value result : α} :
    (pure value : Recipe α).Reads readings ahead result left ↔ result = value ∧ left = ahead :=
  Iff.rfl

@[simp] theorem reads_refuse {cause : Cause} {result : α} :
    (Recipe.refuse cause).Reads readings ahead result left ↔ False := Iff.rfl

@[simp] theorem reads_refuseKind {cause : TokenKind → Cause} {result : α} :
    (refuseKind cause : Recipe α).Reads readings ahead result left ↔ False := by
  constructor
  · rintro ⟨_, _, _, refused⟩
    exact refused
  · exact False.elim

theorem reads_peek {next : Token → Recipe α} {result : α} {token : Token} {rest : List Token} :
    (Recipe.peek next).Reads readings (token :: rest) result left ↔
      (next token).Reads readings (token :: rest) result left := by
  constructor
  · rintro ⟨_, _, same, read⟩
    cases same
    exact read
  · intro read
    exact ⟨token, rest, rfl, read⟩

@[simp] theorem reads_bind {recipe : Recipe α} {next : α → Recipe β} {result : β} :
    (recipe >>= next).Reads readings ahead result left ↔
      ∃ value middle, recipe.Reads readings ahead value middle ∧
        (next value).Reads readings middle result left := by
  rw [bind_eq]
  induction recipe generalizing ahead with
  | yield value =>
      constructor
      · intro read
        exact ⟨value, ahead, ⟨rfl, rfl⟩, read⟩
      · rintro ⟨_, _, ⟨rfl, rfl⟩, read⟩
        exact read
  | refuse cause =>
      constructor
      · exact False.elim
      · rintro ⟨_, _, refused, -⟩
        exact refused.elim
  | peek next' ih =>
      constructor
      · rintro ⟨token, rest, rfl, read⟩
        obtain ⟨value, middle, first, second⟩ := (ih token).mp read
        exact ⟨value, middle, ⟨token, rest, rfl, first⟩, second⟩
      · rintro ⟨value, middle, ⟨token, rest, rfl, first⟩, second⟩
        exact ⟨token, rest, rfl, (ih token).mpr ⟨value, middle, first, second⟩⟩
  | readToken fault next' ih =>
      constructor
      · rintro ⟨token, rest, rfl, sound, read⟩
        obtain ⟨value, middle, first, second⟩ := (ih token).mp read
        exact ⟨value, middle, ⟨token, rest, rfl, sound, first⟩, second⟩
      · rintro ⟨value, middle, ⟨token, rest, rfl, sound, first⟩, second⟩
        exact ⟨token, rest, rfl, sound, (ih token).mpr ⟨value, middle, first, second⟩⟩
  | readPhrase phrase fault next' ih =>
      constructor
      · rintro ⟨inner, between, inside, sound, read⟩
        obtain ⟨value, middle, first, second⟩ := (ih inner).mp read
        exact ⟨value, middle, ⟨inner, between, inside, sound, first⟩, second⟩
      · rintro ⟨value, middle, ⟨inner, between, inside, sound, first⟩, second⟩
        exact ⟨inner, between, inside, sound, (ih inner).mpr ⟨value, middle, first, second⟩⟩

@[simp] theorem reads_kind {kind' : TokenKind} :
    kind.Reads readings ahead kind' left ↔
      left = ahead ∧ ∃ token rest, ahead = token :: rest ∧ kind' = token.kind := by
  constructor
  · rintro ⟨token, rest, rfl, same, rfl⟩
    exact ⟨rfl, token, rest, rfl, same⟩
  · rintro ⟨rfl, token, rest, rfl, same⟩
    exact ⟨token, rest, rfl, same, rfl⟩

@[simp] theorem reads_take {token : Token} :
    take.Reads readings ahead token left ↔ ahead = token :: left := by
  constructor
  · rintro ⟨_, _, rfl, -, rfl, rfl⟩
    rfl
  · rintro rfl
    exact ⟨token, left, rfl, rfl, rfl, rfl⟩

@[simp] theorem reads_expect {expected : TokenKind} {token : Token} :
    (expect expected).Reads readings ahead token left ↔
      ahead = token :: left ∧ token.kind = expected := by
  constructor
  · rintro ⟨current, rest, rfl, read⟩
    dsimp only at read
    by_cases same : current.kind = expected
    · rw [if_pos same, reads_take] at read
      cases read
      exact ⟨rfl, same⟩
    · rw [if_neg same] at read
      exact read.elim
  · rintro ⟨rfl, same⟩
    refine ⟨token, left, rfl, ?_⟩
    dsimp only
    rw [if_pos same]
    exact reads_take.mpr rfl

@[simp] theorem reads_expectText {expected : TokenKind} {text : String} :
    (expectText expected).Reads readings ahead text left ↔ ahead = ⟨expected, text⟩ :: left := by
  simp only [expectText, reads_bind, reads_expect, reads_pure]
  constructor
  · rintro ⟨token, middle, ⟨rfl, rfl⟩, rfl, rfl⟩
    rfl
  · rintro rfl
    exact ⟨_, _, ⟨rfl, rfl⟩, rfl, rfl⟩

theorem reads_ifKind {wanted : TokenKind} {there elsewhere : Recipe α} {result : α} :
    (ifKind wanted there elsewhere).Reads readings ahead result left ↔
      ∃ token rest, ahead = token :: rest ∧
        if token.kind = wanted then there.Reads readings ahead result left
        else elsewhere.Reads readings ahead result left := by
  constructor
  · rintro ⟨token, rest, rfl, read⟩
    refine ⟨token, rest, rfl, ?_⟩
    dsimp only at read
    split
    · rwa [if_pos ‹_›] at read
    · rwa [if_neg ‹_›] at read
  · rintro ⟨token, rest, rfl, read⟩
    refine ⟨token, rest, rfl, ?_⟩
    dsimp only
    split
    · rwa [if_pos ‹_›] at read
    · rwa [if_neg ‹_›] at read

@[simp] theorem reads_ask {phrase : Phrase} {value : phrase.Value} :
    (ask phrase).Reads readings ahead value left ↔ readings phrase ahead value left := by
  constructor
  · rintro ⟨_, _, read, -, rfl, rfl⟩
    exact read
  · intro read
    exact ⟨value, left, read, rfl, rfl, rfl⟩

theorem reads_made {made' : Except Cause α} {result : α} :
    (made made').Reads readings ahead result left ↔ made' = .ok result ∧ left = ahead := by
  cases made' with
  | ok value => simp [made, eq_comm]
  | error cause => simp [made]

theorem reads_tokenAs {make : Token → Except Cause α} {result : α} :
    (tokenAs make).Reads readings ahead result left ↔
      ∃ token, ahead = token :: left ∧ make token = .ok result := by
  constructor
  · rintro ⟨token, rest, rfl, -, read⟩
    obtain ⟨made, rfl⟩ := reads_made.mp read
    exact ⟨token, rfl, made⟩
  · rintro ⟨token, rfl, made⟩
    have sound : faultOf (make token) = none := by rw [made]; rfl
    exact ⟨token, left, rfl, sound, reads_made.mpr ⟨made, rfl⟩⟩

theorem reads_phraseAs {phrase : Phrase} {make : phrase.Value → Except Cause α} {result : α} :
    (phraseAs phrase make).Reads readings ahead result left ↔
      ∃ value, readings phrase ahead value left ∧ make value = .ok result := by
  constructor
  · rintro ⟨value, middle, inside, -, read⟩
    obtain ⟨made, rfl⟩ := reads_made.mp read
    exact ⟨value, inside, made⟩
  · rintro ⟨value, inside, made⟩
    have sound : faultOf (make value) = none := by rw [made]; rfl
    exact ⟨value, left, inside, sound, reads_made.mpr ⟨made, rfl⟩⟩

/-! ### More readings -/

theorem Reads.mono {recipe : Recipe α} {result : α}
    (more : ∀ phrase ahead value left, readings phrase ahead value left →
      readings' phrase ahead value left)
    (read : recipe.Reads readings ahead result left) :
    recipe.Reads readings' ahead result left := by
  induction recipe generalizing ahead with
  | yield value => exact read
  | refuse cause => exact read
  | peek next ih =>
      obtain ⟨token, rest, same, read⟩ := read
      exact ⟨token, rest, same, ih _ read⟩
  | readToken fault next ih =>
      obtain ⟨token, rest, same, sound, read⟩ := read
      exact ⟨token, rest, same, sound, ih _ read⟩
  | readPhrase phrase fault next ih =>
      obtain ⟨value, middle, inner, sound, read⟩ := read
      exact ⟨value, middle, more _ _ _ _ inner, sound, ih _ read⟩

/-- What is left is an end of what was ahead, if that is so for the phrases. -/
theorem Reads.suffix {recipe : Recipe α} {result : α}
    (ends : ∀ phrase ahead value left, readings phrase ahead value left → left <:+ ahead)
    (read : recipe.Reads readings ahead result left) : left <:+ ahead := by
  induction recipe generalizing ahead with
  | yield value => exact read.2 ▸ List.suffix_rfl
  | refuse cause => exact read.elim
  | peek next ih =>
      obtain ⟨token, rest, -, read⟩ := read
      exact ih _ read
  | readToken fault next ih =>
      obtain ⟨token, rest, rfl, -, read⟩ := read
      exact (ih _ read).trans (List.suffix_cons _ _)
  | readPhrase phrase fault next ih =>
      obtain ⟨value, middle, inner, -, read⟩ := read
      exact (ih _ read).trans (ends _ _ _ _ inner)

end Recipe

/-! ## Readings of phrases -/

namespace Phrase

/-- What can be read as a phrase with so many levels of nesting. -/
def ReadsWithin (tables : Tables) : Nat → Readings
  | 0 => fun _ _ _ _ => False
  | levels + 1 => fun phrase => (phrase.recipe tables).Reads (ReadsWithin tables levels)

/-- The tokens ahead begin with the phrase, which stands for the value. -/
def Reads (tables : Tables) : Readings :=
  fun phrase ahead value left => ∃ levels, ReadsWithin tables levels phrase ahead value left

variable {tables : Tables}

theorem ReadsWithin.succ {levels : Nat} {phrase : Phrase} {ahead left : List Token}
    {value : phrase.Value} (read : ReadsWithin tables levels phrase ahead value left) :
    ReadsWithin tables (levels + 1) phrase ahead value left := by
  induction levels generalizing phrase ahead left with
  | zero => exact read.elim
  | succ levels ih => exact Recipe.Reads.mono (fun _ _ _ _ inner => ih inner) read

theorem ReadsWithin.mono {levels levels' : Nat} (le : levels ≤ levels') {phrase : Phrase}
    {ahead left : List Token} {value : phrase.Value}
    (read : ReadsWithin tables levels phrase ahead value left) :
    ReadsWithin tables levels' phrase ahead value left := by
  induction le with
  | refl => exact read
  | step _ ih => exact ih.succ

theorem ReadsWithin.suffix {levels : Nat} {phrase : Phrase} {ahead left : List Token}
    {value : phrase.Value} (read : ReadsWithin tables levels phrase ahead value left) :
    left <:+ ahead := by
  induction levels generalizing phrase ahead left with
  | zero => exact read.elim
  | succ levels ih => exact Recipe.Reads.suffix (fun _ _ _ _ inner => ih inner) read

theorem Reads.suffix {phrase : Phrase} {ahead left : List Token} {value : phrase.Value}
    (read : Reads tables phrase ahead value left) : left <:+ ahead := by
  obtain ⟨levels, read⟩ := read
  exact read.suffix

theorem exists_readsWithin {α : Type} {recipe : Recipe α} {ahead left : List Token} {result : α}
    (read : recipe.Reads (Reads tables) ahead result left) :
    ∃ levels, recipe.Reads (ReadsWithin tables levels) ahead result left := by
  induction recipe generalizing ahead with
  | yield value => exact ⟨0, read⟩
  | refuse cause => exact read.elim
  | peek next ih =>
      obtain ⟨token, rest, same, read⟩ := read
      obtain ⟨levels, read⟩ := ih _ read
      exact ⟨levels, token, rest, same, read⟩
  | readToken fault next ih =>
      obtain ⟨token, rest, same, sound, read⟩ := read
      obtain ⟨levels, read⟩ := ih _ read
      exact ⟨levels, token, rest, same, sound, read⟩
  | readPhrase phrase fault next ih =>
      obtain ⟨value, middle, ⟨inside, inner⟩, sound, read⟩ := read
      obtain ⟨behind, read⟩ := ih _ read
      refine ⟨max inside behind, value, middle, inner.mono (Nat.le_max_left _ _), sound, ?_⟩
      exact read.mono fun _ _ _ _ inner => inner.mono (Nat.le_max_right _ _)

/-- A phrase is read as its recipe reads. -/
theorem reads_iff {phrase : Phrase} {ahead left : List Token} {value : phrase.Value} :
    Reads tables phrase ahead value left ↔
      (phrase.recipe tables).Reads (Reads tables) ahead value left := by
  constructor
  · rintro ⟨levels, read⟩
    cases levels with
    | zero => exact read.elim
    | succ levels => exact Recipe.Reads.mono (fun _ _ _ _ inner => ⟨levels, inner⟩) read
  · intro read
    obtain ⟨levels, read⟩ := exists_readsWithin read
    exact ⟨levels + 1, read⟩

/-- What every recipe establishes, given it for the phrases it asks for, holds of every
phrase that is read. -/
theorem Reads.induct {motive : Readings}
    (step : ∀ (phrase : Phrase) (ahead : List Token) (value : phrase.Value) (left : List Token),
      (phrase.recipe tables).Reads
        (fun phrase ahead value left =>
          Reads tables phrase ahead value left ∧ motive phrase ahead value left)
        ahead value left → motive phrase ahead value left)
    {phrase : Phrase} {ahead left : List Token} {value : phrase.Value}
    (read : Reads tables phrase ahead value left) : motive phrase ahead value left := by
  obtain ⟨levels, read⟩ := read
  induction levels generalizing phrase ahead left with
  | zero => exact read.elim
  | succ levels ih =>
      exact step _ _ _ _ (Recipe.Reads.mono (fun _ _ _ _ inner => ⟨⟨levels, inner⟩, ih inner⟩) read)

end Phrase

/-! ## Readings are answers -/

/-- What a recipe reads, it reads from any cursor in front of the tokens, as long as
something is left of them. -/
theorem Recipe.run_of_reads {α : Type} {readings : Readings}
    {answer : (phrase : Phrase) → Cursor → Outcome phrase.Value}
    (suffix : ∀ phrase ahead value left, readings phrase ahead value left → left <:+ ahead)
    (answers : ∀ phrase ahead value left, readings phrase ahead value left → left ≠ [] →
      ∀ index, answer phrase (.facing index ahead) =
        .accepted value (.facing (index + (ahead.length - left.length)) left))
    {recipe : Recipe α} {ahead left : List Token} {result : α}
    (read : recipe.Reads readings ahead result left) (more : left ≠ []) (index : Nat) :
    recipe.run answer (.facing index ahead) =
      .accepted result (.facing (index + (ahead.length - left.length)) left) := by
  induction recipe generalizing ahead index with
  | yield value =>
      obtain ⟨rfl, rfl⟩ := read
      simp [run]
  | refuse cause => exact read.elim
  | peek next ih =>
      obtain ⟨token, rest, rfl, read⟩ := read
      exact ih token read index
  | readToken fault next ih =>
      obtain ⟨token, rest, rfl, sound, read⟩ := read
      have short := read.suffix suffix
      have rest_ne : rest ≠ [] := short.ne_nil more
      have length := short.length_le
      have place : index + 1 + (rest.length - left.length) =
          index + ((token :: rest).length - left.length) := by
        simp only [List.length_cons]; omega
      simp only [run_readToken, Cursor.next_facing rest_ne, show (Cursor.facing index (token :: rest)).current
        = token from rfl, sound]
      rw [ih token read, place]
  | readPhrase phrase fault next ih =>
      obtain ⟨value, middle, inner, sound, read⟩ := read
      have short := read.suffix suffix
      have middle_ne : middle ≠ [] := short.ne_nil more
      have length := short.length_le
      have length' := (suffix _ _ _ _ inner).length_le
      have place : index + (ahead.length - middle.length) + (middle.length - left.length) =
          index + (ahead.length - left.length) := by omega
      simp only [run_readPhrase, answers _ _ _ _ inner middle_ne, sound]
      rw [ih value read, place]

theorem answer_of_readsWithin {tables : Tables} {levels : Nat} {phrase : Phrase}
    {ahead left : List Token} {value : phrase.Value}
    (read : Phrase.ReadsWithin tables levels phrase ahead value left) (more : left ≠ [])
    (index : Nat) :
    answer tables levels phrase (.facing index ahead) =
      .accepted value (.facing (index + (ahead.length - left.length)) left) := by
  induction levels generalizing phrase ahead left index with
  | zero => exact read.elim
  | succ levels ih =>
      exact Recipe.run_of_reads (fun _ _ _ _ inner => inner.suffix)
        (fun _ _ _ _ inner more index => ih inner more index) read more index

end ScriptReader
