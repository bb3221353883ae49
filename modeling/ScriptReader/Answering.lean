/- # ScriptReader.Answering — carrying recipes out

`Recipe.run` carries a recipe out from a cursor, given a way to answer the phrases
that it reads. `answer` ties the knot: a phrase is answered by running its recipe,
with one level of nesting less for the phrases inside it. A run that is out of
levels says so, and that is never mistaken for an answer.

`Recipe.run_bind` takes a run of a sequence apart, and `answer_succ_of_settled`
says that levels beyond those that settle an answer do not change it.

`Cursor.budget` levels are enough for the rules of the language: between two
tokens that are read, phrases nest three deep at most (statements, a statement, an
expression).
-/
import ScriptReader.Cursor
import ScriptReader.Grammar.Phrases

namespace ScriptReader

set_option autoImplicit false

namespace Recipe

variable {α β : Type}

/-- Carry a recipe out, given a way to answer phrases. -/
def run (answer : (phrase : Phrase) → Cursor → Outcome phrase.Value) :
    Recipe α → Cursor → Outcome α
  | .yield value, cursor => .accepted value cursor
  | .refuse cause, cursor => .refused ⟨cause, .token cursor.index⟩ cursor
  | .peek next, cursor => (next cursor.current).run answer cursor
  | .readToken fault next, cursor =>
    match fault cursor.current with
    | some cause => .refused ⟨cause, .token cursor.index⟩ cursor.next
    | none => (next cursor.current).run answer cursor.next
  | .readPhrase phrase fault next, cursor =>
    match answer phrase cursor with
    | .accepted value cursor' =>
      match fault value with
      | some cause => .refused ⟨cause, .token cursor.index⟩ cursor'
      | none => (next value).run answer cursor'
    | .refused diagnostic cursor' => .refused diagnostic cursor'
    | .exhausted => .exhausted

variable (answer answer' : (phrase : Phrase) → Cursor → Outcome phrase.Value)

theorem run_readToken (fault : Token → Option Cause) (next : Token → Recipe α) (cursor : Cursor) :
    (readToken fault next).run answer cursor =
      match fault cursor.current with
      | some cause => .refused ⟨cause, .token cursor.index⟩ cursor.next
      | none => (next cursor.current).run answer cursor.next := rfl

theorem run_readPhrase (phrase : Phrase) (fault : phrase.Value → Option Cause)
    (next : phrase.Value → Recipe α) (cursor : Cursor) :
    (readPhrase phrase fault next).run answer cursor =
      match answer phrase cursor with
      | .accepted value cursor' =>
        match fault value with
        | some cause => .refused ⟨cause, .token cursor.index⟩ cursor'
        | none => (next value).run answer cursor'
      | .refused diagnostic cursor' => .refused diagnostic cursor'
      | .exhausted => .exhausted := by
  rw [run]

/-- Running two recipes in sequence runs the second where the first one ended. -/
theorem run_bind (recipe : Recipe α) (next : α → Recipe β) (cursor : Cursor) :
    (recipe.bind next).run answer cursor =
      match recipe.run answer cursor with
      | .accepted value cursor' => (next value).run answer cursor'
      | .refused diagnostic cursor' => .refused diagnostic cursor'
      | .exhausted => .exhausted := by
  induction recipe generalizing cursor with
  | yield value => rfl
  | refuse cause => rfl
  | peek next' ih => exact ih _ _
  | readToken fault next' ih =>
      change (readToken fault fun token => (next' token).bind next).run answer cursor = _
      rw [run_readToken, run_readToken]
      cases fault cursor.current with
      | some cause => rfl
      | none => exact ih _ _
  | readPhrase phrase fault next' ih =>
      change (readPhrase phrase fault fun value => (next' value).bind next).run answer cursor = _
      rw [run_readPhrase, run_readPhrase]
      cases answer phrase cursor with
      | accepted value cursor' =>
          dsimp only
          cases fault value with
          | some cause => rfl
          | none => exact ih _ _
      | refused diagnostic cursor' => rfl
      | exhausted => rfl

theorem run_expect (expected : TokenKind) (cursor : Cursor) :
    (expect expected).run answer cursor = cursor.expect expected none := by
  change run answer (if cursor.kind = expected then take else _) cursor = _
  unfold Cursor.expect
  by_cases same : cursor.kind = expected
  · rw [if_pos same, if_pos same]
    rfl
  · rw [if_neg same, if_neg same]
    rfl

theorem run_ask (phrase : Phrase) (cursor : Cursor) :
    (ask phrase).run answer cursor = answer phrase cursor := by
  rw [ask, run_readPhrase]
  cases answer phrase cursor with
  | accepted value cursor' => rfl
  | refused diagnostic cursor' => rfl
  | exhausted => rfl

variable {answer answer'}

/-- A recipe that settles keeps its outcome when more phrases are answered. -/
theorem run_eq_of_settled
    (more : ∀ phrase cursor, answer phrase cursor ≠ .exhausted →
      answer' phrase cursor = answer phrase cursor)
    (recipe : Recipe α) (cursor : Cursor) (settled : recipe.run answer cursor ≠ .exhausted) :
    recipe.run answer' cursor = recipe.run answer cursor := by
  induction recipe generalizing cursor with
  | yield value => rfl
  | refuse cause => rfl
  | peek next ih => exact ih _ _ settled
  | readToken fault next ih =>
      simp only [run_readToken] at settled ⊢
      cases wrong : fault cursor.current with
      | some cause => rfl
      | none =>
          rw [wrong] at settled
          exact ih _ _ settled
  | readPhrase phrase fault next ih =>
      simp only [run_readPhrase] at settled ⊢
      cases inner : answer phrase cursor with
      | accepted value cursor' =>
          rw [inner] at settled
          rw [more phrase cursor (by simp [inner]), inner]
          dsimp only at settled ⊢
          cases wrong : fault value with
          | some cause => rfl
          | none =>
              rw [wrong] at settled
              exact ih _ _ settled
      | refused diagnostic cursor' => rw [more phrase cursor (by simp [inner]), inner]
      | exhausted => simp [inner] at settled

end Recipe

/-- Answer a phrase with so many levels of nesting. -/
def answer (tables : Tables) : Nat → (phrase : Phrase) → Cursor → Outcome phrase.Value
  | 0, _, _ => .exhausted
  | levels + 1, phrase, cursor => (phrase.recipe tables).run (answer tables levels) cursor

/-- A phrase that settles keeps its outcome with one more level of nesting. -/
theorem answer_succ_of_settled (tables : Tables) :
    ∀ (levels : Nat) (phrase : Phrase) (cursor : Cursor),
      answer tables levels phrase cursor ≠ .exhausted →
        answer tables (levels + 1) phrase cursor = answer tables levels phrase cursor
  | 0, _, _, settled => absurd rfl settled
  | levels + 1, _, _, settled =>
    Recipe.run_eq_of_settled (answer_succ_of_settled tables levels) _ _ settled

/-- Carry a recipe out under tables. -/
def Recipe.perform {α : Type} (tables : Tables) (recipe : Recipe α) (cursor : Cursor) :
    Outcome α :=
  recipe.run (answer tables cursor.budget) cursor

end ScriptReader
