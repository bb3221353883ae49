/- # ScriptReader.Proofs.Lookahead — reading sees one token of what it leaves

What is read of a stream does not depend on what is left, apart from the first token
of it (`Phrase.Reads.alike`), and where something is refused, nothing behind the
token that the refusal points at has been seen (`Phrase.Refuses.alike`). There is one
exception: what stands behind `new` is read to its end before it turns out to be no
call. A recipe is prompt if it has no other faults of phrases than this one, and all
recipes of the grammar are.

So the parser never looks past the token that it refuses (`parse_refused_of_agree`).
-/
import ScriptReader.Proofs.Refusing

namespace ScriptReader

set_option autoImplicit false

/-- Both streams begin, and with the same token. -/
def Alike (left left' : List Token) : Prop :=
  ∃ token rest rest', left = token :: rest ∧ left' = token :: rest'

theorem alike_cons (token : Token) (rest rest' : List Token) :
    Alike (token :: rest) (token :: rest') :=
  ⟨token, rest, rest', rfl, rfl⟩

theorem Alike.append {left left' : List Token} (alike : Alike left left') (spent : List Token) :
    Alike (spent ++ left) (spent ++ left') := by
  cases spent with
  | nil => exact alike
  | cons token spent => exact alike_cons token _ _

/-- What is left in between is what is left in the end, behind some of what was in front of
that. -/
theorem exists_split {spent middle left : List Token} (near : middle <:+ spent ++ left)
    (far : left <:+ middle) :
    ∃ before behind, spent = before ++ behind ∧ middle = behind ++ left := by
  obtain ⟨behind, rfl⟩ := far
  obtain ⟨before, whole⟩ := near
  rw [← List.append_assoc] at whole
  exact ⟨before, behind, (List.append_cancel_right whole).symm, rfl⟩

/-- Where less is left than stands behind a token, the token was read. -/
theorem exists_head_of_length_le {spent left rest : List Token} {token : Token}
    (whole : spent ++ left = token :: rest) (short : left.length ≤ rest.length) :
    ∃ behind, spent = token :: behind := by
  cases spent with
  | nil =>
      rw [List.nil_append] at whole
      rw [whole] at short
      exact absurd short (Nat.not_succ_le_self _)
  | cons first behind =>
      cases whole
      exact ⟨behind, rfl⟩

/-! ## What is read -/

section Readings

variable {α : Type} {left left' spent : List Token}

/-- What a recipe reads in front of something, it reads in front of anything that begins with
the same token, if that is so for the phrases. -/
theorem Recipe.Reads.alike {readings readings' : Readings}
    (ends : ∀ phrase ahead value left, readings phrase ahead value left → left <:+ ahead)
    (same : ∀ phrase spent value left left', Alike left left' →
      readings phrase (spent ++ left) value left → readings' phrase (spent ++ left') value left')
    {recipe : Recipe α} {result : α} (alike : Alike left left')
    (read : recipe.Reads readings (spent ++ left) result left) :
    recipe.Reads readings' (spent ++ left') result left' := by
  induction recipe generalizing spent with
  | yield value =>
      obtain ⟨rfl, whole⟩ := read
      obtain rfl : spent = [] := List.append_left_eq_self.mp whole.symm
      exact ⟨rfl, rfl⟩
  | refuse cause => exact read.elim
  | peek next ih =>
      obtain ⟨token, rest, whole, read⟩ := read
      obtain ⟨first, behind, behind', here, there⟩ := alike.append spent
      rw [here] at whole
      cases whole
      exact ⟨token, behind', there, ih _ read⟩
  | readToken fault next ih =>
      obtain ⟨token, rest, whole, sound, read⟩ := read
      -- The token that is read is none of those that are left.
      obtain ⟨behind, rfl⟩ := exists_head_of_length_le whole (read.suffix ends).length_le
      cases whole
      exact ⟨token, _, rfl, sound, ih _ read⟩
  | readPhrase phrase fault next ih =>
      obtain ⟨value, middle, inner, sound, read⟩ := read
      obtain ⟨before, behind, rfl, rfl⟩ := exists_split (ends _ _ _ _ inner) (read.suffix ends)
      rw [List.append_assoc] at inner
      refine ⟨value, behind ++ left', ?_, sound, ih _ read⟩
      rw [List.append_assoc]
      exact same _ _ _ _ _ (alike.append behind) inner

variable {tables : Tables}

theorem Phrase.ReadsWithin.alike {levels : Nat} {phrase : Phrase} {value : phrase.Value}
    (alike : Alike left left')
    (read : Phrase.ReadsWithin tables levels phrase (spent ++ left) value left) :
    Phrase.ReadsWithin tables levels phrase (spent ++ left') value left' := by
  induction levels generalizing phrase spent left left' with
  | zero => exact read.elim
  | succ levels ih =>
      exact Recipe.Reads.alike (fun _ _ _ _ inner => inner.suffix)
        (fun _ _ _ _ _ alike inner => ih alike inner) alike read

/-- **A phrase is read in front of anything that begins with the same token.** -/
theorem Phrase.Reads.alike {phrase : Phrase} {value : phrase.Value} (alike : Alike left left')
    (read : Phrase.Reads tables phrase (spent ++ left) value left) :
    Phrase.Reads tables phrase (spent ++ left') value left' := by
  obtain ⟨levels, read⟩ := read
  exact ⟨levels, read.alike alike⟩

theorem Recipe.Reads.alike_phrases {recipe : Recipe α} {result : α} (alike : Alike left left')
    (read : recipe.Reads (Phrase.Reads tables) (spent ++ left) result left) :
    recipe.Reads (Phrase.Reads tables) (spent ++ left') result left' :=
  read.alike (fun _ _ _ _ inner => inner.suffix) (fun _ _ _ _ _ alike inner => inner.alike alike)
    alike

/-- What stands behind a row of statements may be exchanged for something else, if a statement
that reads up to it reads up to the other, too. -/
theorem ReadsRow.exchange (grounded : tables.Grounded)
    (same : ∀ spent statement, Phrase.Reads tables .statement (spent ++ left) statement left →
      Phrase.Reads tables .statement (spent ++ left') statement left')
    {body : List Statement} (row : ReadsRow tables (spent ++ left) body left) :
    ReadsRow tables (spent ++ left') body left' := by
  generalize whole : spent ++ left = ahead at row
  induction row generalizing spent with
  | done ahead =>
      obtain rfl : spent = [] := List.append_left_eq_self.mp whole
      exact .done left'
  | @more token rest middle left statement body goesOn read others ih =>
      obtain ⟨levels, within⟩ := read
      have short := within.length_le grounded rfl
      have near := within.suffix
      rw [← whole] at near
      obtain ⟨before, behind, rfl, rfl⟩ := exists_split near others.suffix
      rw [List.append_assoc] at whole ⊢
      -- The statement takes a token at least, so the row still begins with its first one.
      obtain ⟨before, rfl⟩ := exists_head_of_length_le whole short
      cases whole
      have read : Phrase.Reads tables .statement (token :: before ++ (behind ++ left)) statement
          (behind ++ left) := ⟨levels, within⟩
      refine .more goesOn ?_ (ih same rfl)
      cases behind with
      | nil => exact same (token :: before) statement read
      | cons next behind => exact read.alike (alike_cons next _ _)

end Readings

/-! ## Prompt recipes -/

namespace Recipe

variable {α β : Type}

/-- No phrase that was read is at fault, unless it should have been a call. -/
def Prompt : Recipe α → Prop
  | .yield _ => True
  | .refuse _ => True
  | .peek next => ∀ token, (next token).Prompt
  | .readToken _ next => ∀ token, (next token).Prompt
  | .readPhrase _ fault next => ∀ value,
    (∀ cause, fault value = some cause → ∃ found, cause = .expectedCall found) ∧
      (next value).Prompt

theorem Prompt.bind {recipe : Recipe α} {next : α → Recipe β} (first : recipe.Prompt)
    (second : ∀ value, (next value).Prompt) : (recipe >>= next).Prompt := by
  rw [bind_eq]
  induction recipe with
  | yield value => exact second value
  | refuse cause => trivial
  | peek next' ih => exact fun token => ih token (first token)
  | readToken fault next' ih => exact fun token => ih token (first token)
  | readPhrase phrase fault next' ih =>
      exact fun value => ⟨(first value).1, ih value (first value).2⟩

/-! ### Recipes step by step -/

section Steps

variable {expected opening closing : TokenKind}

theorem prompt_return (value : α) : (pure value : Recipe α).Prompt := trivial

theorem prompt_kind : kind.Prompt := fun _ => trivial

theorem prompt_take : take.Prompt := fun _ => trivial

theorem prompt_refuseKind {cause : TokenKind → Cause} : (refuseKind cause : Recipe α).Prompt :=
  fun _ => trivial

theorem prompt_ifKind {there elsewhere : Recipe α} (first : there.Prompt)
    (second : elsewhere.Prompt) : (ifKind expected there elsewhere).Prompt := by
  intro token
  dsimp only
  split
  · exact first
  · exact second

theorem prompt_expect : (expect expected).Prompt := by
  intro token
  dsimp only
  split
  · exact prompt_take
  · trivial

theorem prompt_expectText : (expectText expected).Prompt :=
  prompt_expect.bind fun _ => prompt_return _

theorem prompt_optional {content : Recipe α} (inside : content.Prompt) :
    (optional expected content).Prompt :=
  prompt_ifKind (prompt_take.bind fun _ => inside.bind fun _ => prompt_return _) (prompt_return _)

theorem prompt_ask (phrase : Phrase) : (ask phrase).Prompt := by
  intro value
  refine ⟨?_, trivial⟩
  intro cause wrong
  cases wrong

theorem prompt_made (made' : Except Cause α) : (made made').Prompt := by
  cases made' <;> trivial

theorem prompt_tokenAs {make : Token → Except Cause α} : (tokenAs make).Prompt :=
  fun token => prompt_made (make token)

theorem prompt_block : block.Prompt :=
  prompt_expect.bind fun _ => (prompt_ask .statements).bind fun _ =>
    prompt_expect.bind fun _ => prompt_return _

theorem prompt_enclosed : (enclosed opening closing).Prompt :=
  prompt_expect.bind fun _ => (prompt_ask (.arguments closing)).bind fun _ =>
    prompt_expect.bind fun _ => prompt_return _

theorem prompt_separator : (separator closing).Prompt := by
  intro token
  dsimp only
  split
  · trivial
  · exact prompt_expect.bind fun _ => prompt_return _

theorem prompt_functionRest : functionRest.Prompt :=
  prompt_expect.bind fun _ => (prompt_ask .parameters).bind fun _ =>
    prompt_expect.bind fun _ => (prompt_optional (prompt_ask _)).bind fun _ =>
      prompt_block.bind fun _ => prompt_return _

theorem prompt_initialValue {constant : Bool} {name : String} {type : Option TypeExpr} :
    (initialValue constant name type).Prompt := by
  intro token
  dsimp only
  split
  · split
    · trivial
    · split <;> trivial
  · exact prompt_expect.bind fun _ => (prompt_ask _).bind fun _ => prompt_return _

theorem prompt_blockStatement : blockStatement.Prompt :=
  prompt_block.bind fun _ => prompt_return _

theorem prompt_expressionStatement : expressionStatement.Prompt :=
  (prompt_ask _).bind fun _ => prompt_expect.bind fun _ => prompt_return _

/-- What should have been a call is the one phrase that may be at fault. -/
theorem prompt_creation : creation.Prompt := by
  refine prompt_expect.bind fun _ value => ⟨?_, prompt_made _⟩
  intro cause wrong
  cases value with
  | call callee arguments => cases wrong
  | _ =>
      cases wrong
      exact ⟨_, rfl⟩

end Steps

end Recipe

/-! ### Rules and phrases -/

open Recipe

theorem PrefixRule.prompt (rule : PrefixRule) : rule.recipe.Prompt := by
  cases rule with
  | primary => exact prompt_tokenAs
  | operation => exact prompt_take.bind fun _ => (prompt_ask _).bind fun _ => prompt_return _
  | grouping =>
      exact prompt_expect.bind fun _ => (prompt_ask _).bind fun _ =>
        prompt_expect.bind fun _ => prompt_return _
  | array => exact prompt_enclosed.bind fun _ => prompt_return _
  | function =>
      exact prompt_expect.bind fun _ => prompt_functionRest.bind fun _ => prompt_return _
  | creation => exact prompt_creation

theorem InfixRule.prompt (rule : InfixRule) (left : Expr) (power : Power) :
    (rule.recipe left power).Prompt := by
  cases rule with
  | binary | assignment | range =>
      exact prompt_take.bind fun _ => (prompt_ask _).bind fun _ => prompt_return _
  | call => exact prompt_enclosed.bind fun _ => prompt_return _
  | member =>
      refine prompt_take.bind fun operator => ?_
      split
      · exact (prompt_ask _).bind fun _ => prompt_expect.bind fun _ => prompt_return _
      · exact prompt_expectText.bind fun _ => prompt_return _

theorem TypePrefixRule.prompt (rule : TypePrefixRule) : rule.recipe.Prompt := by
  cases rule with
  | name => exact prompt_expectText.bind fun _ => prompt_return _
  | list =>
      exact prompt_expect.bind fun _ => prompt_expect.bind fun _ =>
        (prompt_ask _).bind fun _ => prompt_return _

theorem StatementRule.prompt (rule : StatementRule) : rule.recipe.Prompt := by
  cases rule with
  | anyStatement | conditional => exact prompt_ask _
  | expression => exact prompt_expressionStatement
  | block => exact prompt_blockStatement
  | declaration =>
      exact prompt_take.bind fun _ => prompt_expectText.bind fun _ =>
        (prompt_optional (prompt_ask _)).bind fun _ => prompt_initialValue.bind fun _ =>
          prompt_expect.bind fun _ => prompt_return _
  | function =>
      exact prompt_take.bind fun _ => prompt_expectText.bind fun _ =>
        prompt_functionRest.bind fun _ => prompt_return _
  | importing =>
      exact prompt_take.bind fun _ => prompt_expectText.bind fun _ =>
        (prompt_optional prompt_expectText).bind fun _ =>
          prompt_expect.bind fun _ => prompt_return _
  | foreach =>
      exact prompt_take.bind fun _ => prompt_expectText.bind fun _ =>
        (prompt_optional prompt_expectText).bind fun _ => prompt_expect.bind fun _ =>
          (prompt_ask _).bind fun _ => prompt_block.bind fun _ => prompt_return _
  | classDeclaration =>
      exact prompt_take.bind fun _ => prompt_expectText.bind fun _ =>
        prompt_block.bind fun _ => prompt_return _
  | returning =>
      exact prompt_take.bind fun _ =>
        (prompt_ifKind (prompt_return _) ((prompt_ask _).bind fun _ => prompt_return _)).bind
          fun _ => prompt_expect.bind fun _ => prompt_return _
  | loop =>
      exact prompt_take.bind fun _ => (prompt_ask _).bind fun _ =>
        prompt_block.bind fun _ => prompt_return _

theorem Phrase.prompt {tables : Tables} (grounded : tables.Grounded) (phrase : Phrase) :
    (phrase.recipe tables).Prompt := by
  cases phrase with
  | expression least =>
      refine prompt_kind.bind fun first => ?_
      split
      · exact prompt_refuseKind
      · rename_i recipe found
        obtain ⟨rule, rfl⟩ := grounded.native.prefixRule found
        exact rule.prompt.bind fun _ => prompt_ask _
  | expressionTail least left =>
      refine prompt_kind.bind fun next => ?_
      split
      · split
        · exact prompt_refuseKind
        · rename_i recipe found
          obtain ⟨rule, rfl⟩ := grounded.native.infixRule found
          exact (rule.prompt _ _).bind fun _ => prompt_ask _
      · exact prompt_return _
  | type least =>
      refine prompt_kind.bind fun first => ?_
      split
      · exact prompt_refuseKind
      · rename_i recipe found
        obtain ⟨rule, rfl⟩ := grounded.native.typePrefixRule found
        exact rule.prompt.bind fun _ => prompt_ask _
  | typeTail least left =>
      refine prompt_kind.bind fun next => ?_
      rw [if_neg (Tables.not_lt_typePower_of_none (grounded.typeInfixPower _))]
      exact prompt_return _
  | statement =>
      refine prompt_kind.bind fun first => ?_
      split
      · exact prompt_expressionStatement
      · rename_i recipe found
        obtain ⟨rule, rfl⟩ := grounded.native.statementRule found
        exact rule.prompt
  | statements =>
      refine prompt_kind.bind fun next => ?_
      split
      · exact prompt_return _
      · exact (prompt_ask _).bind fun _ => (prompt_ask _).bind fun _ => prompt_return _
  | conditional =>
      have alternative : (ifKind .ifWord Recipe.conditional blockStatement).Prompt :=
        prompt_ifKind (prompt_ask .conditional) prompt_blockStatement
      exact prompt_take.bind fun _ => (prompt_ask _).bind fun _ => prompt_block.bind fun _ =>
        (prompt_optional alternative).bind fun _ => prompt_return _
  | arguments close =>
      refine prompt_kind.bind fun next => ?_
      split
      · exact prompt_return _
      · exact (prompt_ask _).bind fun _ => prompt_separator.bind fun _ =>
          (prompt_ask _).bind fun _ => prompt_return _
  | parameters =>
      refine prompt_kind.bind fun next => ?_
      split
      · exact prompt_return _
      · exact prompt_expectText.bind fun _ => prompt_expect.bind fun _ =>
          (prompt_ask _).bind fun _ => prompt_separator.bind fun _ =>
            (prompt_ask _).bind fun _ => prompt_return _

/-! ## What is refused -/

section Refusals

variable {stop stop' spent : List Token} {cause : Cause}

/-- What a prompt recipe refuses at a token, it refuses whatever stands behind the token, if
that is so for the phrases. -/
theorem Recipe.Refuses.alike {α : Type} {readings : Readings} {refusals refusals' : Refusals}
    (ends : ∀ phrase ahead value left, readings phrase ahead value left → left <:+ ahead)
    (stops : ∀ phrase ahead cause stop, refusals phrase ahead cause stop → stop <:+ ahead)
    (same : ∀ phrase spent value left left', Alike left left' →
      readings phrase (spent ++ left) value left → readings phrase (spent ++ left') value left')
    (same' : ∀ phrase spent, refusals phrase (spent ++ stop) cause stop →
      refusals' phrase (spent ++ stop') cause stop')
    (alike : Alike stop stop') (prompt' : ∀ found, cause ≠ .expectedCall found)
    {recipe : Recipe α} (prompt : recipe.Prompt)
    (refused : recipe.Refuses readings refusals (spent ++ stop) cause stop) :
    recipe.Refuses readings refusals' (spent ++ stop') cause stop' := by
  induction recipe generalizing spent with
  | yield value => exact refused.elim
  | refuse why =>
      obtain ⟨rfl, whole⟩ := refused
      obtain rfl : spent = [] := List.append_left_eq_self.mp whole.symm
      exact ⟨rfl, rfl⟩
  | peek next ih =>
      obtain ⟨token, rest, whole, refused⟩ := refused
      obtain ⟨first, behind, behind', here, there⟩ := alike.append spent
      rw [here] at whole
      cases whole
      exact ⟨token, behind', there, ih _ (prompt token) refused⟩
  | readToken fault next ih =>
      obtain ⟨token, rest, whole, ⟨wrong, point⟩ | ⟨sound, later⟩⟩ := refused
      · obtain rfl : spent = [] := List.append_left_eq_self.mp point.symm
        obtain ⟨first, behind, behind', rfl, rfl⟩ := alike
        cases whole
        exact ⟨token, behind', rfl, .inl ⟨wrong, rfl⟩⟩
      · -- The token that was read stands in front of the one that is refused.
        obtain ⟨behind, rfl⟩ :=
          exists_head_of_length_le whole (later.suffix ends stops).length_le
        cases whole
        exact ⟨token, _, rfl, .inr ⟨sound, ih _ (prompt token) later⟩⟩
  | readPhrase phrase fault next ih =>
      rcases refused with inside | ⟨value, middle, read, ⟨wrong, -⟩ | ⟨sound, later⟩⟩
      · exact .inl (same' _ _ inside)
      · obtain ⟨found, belated⟩ := (prompt value).1 cause wrong
        exact absurd belated (prompt' found)
      · obtain ⟨before, behind, rfl, rfl⟩ :=
          exists_split (ends _ _ _ _ read) (later.suffix ends stops)
        rw [List.append_assoc] at read
        refine .inr ⟨value, behind ++ stop', ?_, .inr ⟨sound, ih _ (prompt value).2 later⟩⟩
        rw [List.append_assoc]
        exact same _ _ _ _ _ (alike.append behind) read

variable {tables : Tables} (grounded : tables.Grounded)
include grounded

/-- **A phrase is refused whatever stands behind the token that the refusal points at.** -/
theorem Phrase.Refuses.alike {phrase : Phrase} (alike : Alike stop stop')
    (prompt : ∀ found, cause ≠ .expectedCall found)
    (refused : Phrase.Refuses tables phrase (spent ++ stop) cause stop) :
    Phrase.Refuses tables phrase (spent ++ stop') cause stop' := by
  obtain ⟨levels, refused⟩ := refused
  refine ⟨levels, ?_⟩
  induction levels generalizing phrase spent with
  | zero => exact refused.elim
  | succ levels ih =>
      exact Recipe.Refuses.alike (fun _ _ _ _ read => read.suffix)
        (fun _ _ _ _ inside => inside.suffix) (fun _ _ _ _ _ alike read => read.alike alike)
        (fun _ _ inside => ih inside) alike prompt (phrase.prompt grounded) refused

theorem RefusesProgram.alike (alike : Alike stop stop')
    (prompt : ∀ found, cause ≠ .expectedCall found)
    (refused : RefusesProgram tables (spent ++ stop) cause stop) :
    RefusesProgram tables (spent ++ stop') cause stop' := by
  obtain ⟨body, token, rest, row, goesOn, refused⟩ := refused
  obtain ⟨before, inside, rfl, whole⟩ := exists_split row.suffix refused.suffix
  rw [List.append_assoc] at row ⊢
  rw [whole] at row refused
  obtain ⟨_, _, rest', here, there⟩ := alike.append inside
  rw [← whole] at here
  cases here
  have row' := row.exchange grounded fun _ _ read => read.alike (alike.append inside)
  have refused' := refused.alike grounded alike prompt
  rw [there] at row' refused' ⊢
  exact ⟨body, token, rest', row', goesOn, refused'⟩

end Refusals

/-! ## Programs -/

/-- **The parser never looks past the token that it refuses.** Whatever else is written behind
that token, the program is refused for the same reason at the same place; only what should have
been a call behind `new` is read beyond the token that is blamed for it. -/
theorem parse_refused_of_agree {tokens tokens' : List Token} {diagnostic : Diagnostic}
    {index : Nat} (refused : parse tokens = .refused diagnostic)
    (place : diagnostic.place = .token index)
    (prompt : ∀ found, diagnostic.cause ≠ .expectedCall found)
    (agree : ∀ i ≤ index,
      (Cursor.closeStream tokens')[i]? = (Cursor.closeStream tokens)[i]?) :
    parse tokens' = .refused diagnostic := by
  have grounded := Tables.Grounded.language
  obtain ⟨before, stop, whole, some, here, inside⟩ :=
    (parseWith_eq_refused_iff grounded).mp refused
  obtain rfl : index = before.length := by
    rw [place] at here
    exact Place.token.inj here
  obtain ⟨token, rest, rfl⟩ := List.exists_cons_of_ne_nil some
  -- The other stream has the same tokens up to the refused one, whatever is behind it.
  have front : (Cursor.closeStream tokens').take (before.length + 1) = before ++ [token] := by
    have short : before ++ [token] = (Cursor.closeStream tokens).take (before.length + 1) := by
      rw [whole, List.take_length_add_append]
      simp
    rw [short]
    refine List.ext_getElem? fun i => ?_
    rw [List.getElem?_take, List.getElem?_take]
    split
    · exact agree i (by omega)
    · rfl
  have parts := (Cursor.closeStream tokens').take_append_drop (before.length + 1)
  rw [front, List.append_assoc, List.singleton_append] at parts
  have alike := alike_cons token rest ((Cursor.closeStream tokens').drop (before.length + 1))
  exact (parseWith_eq_refused_iff grounded).mpr
    ⟨before, _, parts.symm, List.cons_ne_nil _ _, here, inside.alike grounded alike prompt⟩

/-- Two programs that go wrong at the semicolon of a constant, with nothing behind it and with
tokens that are no program behind it. -/
theorem constant_refused_whatever_follows :
    let constant : List Token :=
      [⟨.constWord, "const"⟩, ⟨.identifier, "k"⟩, ⟨.semicolon, ";"⟩]
    let missing : Diagnostic := ⟨.missingValue "k", .token 2⟩
    parse constant = .refused missing ∧
      parse (constant ++ [⟨.newWord, "new"⟩, .endOfInput, ⟨.elseWord, "else"⟩]) =
        .refused missing := by
  intro constant missing
  have refused : parse constant = .refused missing := by cbv
  refine ⟨refused, parse_refused_of_agree refused rfl (by simp [missing]) ?_⟩
  decide

end ScriptReader
