/- # ScriptReader.Proofs.StreamEnd — nothing behind the first end of input matters

Two cursors run alongside each other if they stand at the same index and in front of the
same tokens up to the first end of input (`Cursor.Alongside`); the texts of the two ends
and what stands behind them may differ. From such cursors, carrying out the same phrase
has the same outcome and leaves such cursors again (`answer_alongside`).

Two things are needed of the recipes. They never read an end of input
(`Recipe.Careful`), so no cursor goes behind one. And of a token that they only look at
they use nothing but the kind, so the text of an end of input is not seen:
`Recipe.blindfold` hides such texts from a recipe, and the recipes of the grammar are the
same with the texts hidden (`Phrase.blindfold_recipe`).
-/
import ScriptReader.Proofs.Acceptance
import ScriptReader.Proofs.Staying

namespace ScriptReader

set_option autoImplicit false

/-! ## What is seen of a token that is not read -/

namespace Recipe

variable {α β : Type}

/-- The recipe with the texts hidden of the tokens that it looks at without reading them. -/
def blindfold : Recipe α → Recipe α
  | .yield value => .yield value
  | .refuse cause => .refuse cause
  | .peek next => .peek fun token => (next ⟨token.kind, ""⟩).blindfold
  | .readToken fault next => .readToken fault fun token => (next token).blindfold
  | .readPhrase phrase fault next => .readPhrase phrase fault fun value => (next value).blindfold

theorem blindfold_idem (recipe : Recipe α) : recipe.blindfold.blindfold = recipe.blindfold := by
  induction recipe with
  | yield value | refuse cause => rfl
  | peek next ih | readToken fault next ih | readPhrase phrase fault next ih =>
      simp only [blindfold, ih]

@[simp] theorem blindfold_pure (value : α) : (pure value : Recipe α).blindfold = pure value := rfl

@[simp] theorem blindfold_yield (value : α) : (yield value).blindfold = yield value := rfl

@[simp] theorem blindfold_refuse (cause : Cause) :
    (refuse cause : Recipe α).blindfold = refuse cause := rfl

@[simp] theorem blindfold_bind (recipe : Recipe α) (next : α → Recipe β) :
    (recipe >>= next).blindfold = recipe.blindfold >>= fun value => (next value).blindfold := by
  simp only [bind_eq]
  induction recipe with
  | yield value | refuse cause => rfl
  | peek next' ih | readToken fault next' ih | readPhrase phrase fault next' ih =>
      simp only [bind, blindfold, ih]

@[simp] theorem blindfold_ite (condition : Prop) [Decidable condition]
    (there elsewhere : Recipe α) :
    (if condition then there else elsewhere).blindfold =
      if condition then there.blindfold else elsewhere.blindfold :=
  apply_ite blindfold condition there elsewhere

@[simp] theorem blindfold_kind : kind.blindfold = kind := rfl

@[simp] theorem blindfold_take : take.blindfold = take := rfl

@[simp] theorem blindfold_refuseKind (cause : TokenKind → Cause) :
    (refuseKind cause : Recipe α).blindfold = refuseKind cause := rfl

@[simp] theorem blindfold_readPhrase (phrase : Phrase) (fault : phrase.Value → Option Cause)
    (next : phrase.Value → Recipe α) :
    (readPhrase phrase fault next).blindfold =
      readPhrase phrase fault fun value => (next value).blindfold := rfl

@[simp] theorem blindfold_expect (expected : TokenKind) :
    (expect expected).blindfold = expect expected := by
  simp [expect, blindfold]

@[simp] theorem blindfold_expectText (expected : TokenKind) :
    (expectText expected).blindfold = expectText expected := by
  simp [expectText]

@[simp] theorem blindfold_ifKind (wanted : TokenKind) (there elsewhere : Recipe α) :
    (ifKind wanted there elsewhere).blindfold =
      ifKind wanted there.blindfold elsewhere.blindfold := by
  simp [ifKind, blindfold]

@[simp] theorem blindfold_optional (mark : TokenKind) (content : Recipe α) :
    (optional mark content).blindfold = optional mark content.blindfold := by
  simp [optional]

@[simp] theorem blindfold_made (make : Except Cause α) : (made make).blindfold = made make := by
  cases make <;> rfl

@[simp] theorem blindfold_tokenAs (make : Token → Except Cause α) :
    (tokenAs make).blindfold = tokenAs make := by
  simp [tokenAs, blindfold]

@[simp] theorem blindfold_phraseAs (phrase : Phrase) (make : phrase.Value → Except Cause α) :
    (phraseAs phrase make).blindfold = phraseAs phrase make := by
  simp [phraseAs]

@[simp] theorem blindfold_separator (close : TokenKind) :
    (separator close).blindfold = separator close := by
  simp [separator, blindfold]

@[simp] theorem blindfold_block : block.blindfold = block := by
  simp [block, statements, ask]

@[simp] theorem blindfold_enclosed (opening closing : TokenKind) :
    (enclosed opening closing).blindfold = enclosed opening closing := by
  simp [enclosed, arguments, ask]

@[simp] theorem blindfold_functionRest : functionRest.blindfold = functionRest := by
  simp [functionRest, parameters, type, ask]

@[simp] theorem blindfold_initialValue (constant : Bool) (name : String) (type : Option TypeExpr) :
    (initialValue constant name type).blindfold = initialValue constant name type := by
  simp [initialValue, blindfold, expression, ask]

end Recipe

theorem PrefixRule.blindfold_recipe (rule : PrefixRule) : rule.recipe.blindfold = rule.recipe := by
  cases rule <;>
    simp [recipe, Recipe.primary, Recipe.operation, Recipe.grouping, Recipe.array,
      Recipe.functionLiteral, Recipe.creation, Recipe.expression, Recipe.ask]

theorem InfixRule.blindfold_recipe (rule : InfixRule) (left : Expr) (power : Power) :
    (rule.recipe left power).blindfold = rule.recipe left power := by
  cases rule <;>
    simp [recipe, Recipe.binary, Recipe.assignment, Recipe.range, Recipe.call, Recipe.member,
      Recipe.expression, Recipe.ask]

theorem TypePrefixRule.blindfold_recipe (rule : TypePrefixRule) :
    rule.recipe.blindfold = rule.recipe := by
  cases rule <;> simp [recipe, Recipe.typeName, Recipe.typeList, Recipe.type, Recipe.ask]

theorem StatementRule.blindfold_recipe (rule : StatementRule) :
    rule.recipe.blindfold = rule.recipe := by
  cases rule <;>
    simp [recipe, Recipe.statement, Recipe.conditional, Recipe.expressionStatement,
      Recipe.blockStatement, Recipe.declaration, Recipe.functionDeclaration, Recipe.importing,
      Recipe.foreach, Recipe.classDeclaration, Recipe.returning, Recipe.loop, Recipe.expression,
      Recipe.type, Recipe.ask]

/-- The recipes of the grammar use nothing of a token they only look at but its kind. -/
theorem Phrase.blindfold_recipe {tables : Tables} (grounded : tables.Grounded) (phrase : Phrase) :
    (phrase.recipe tables).blindfold = phrase.recipe tables := by
  cases phrase with
  | expression least =>
      simp only [recipe, Recipe.expressionPhrase, Recipe.blindfold_bind, Recipe.blindfold_kind]
      congr 1
      funext first
      cases found : tables.prefixRule first with
      | none => rfl
      | some recipe =>
          obtain ⟨rule, rfl⟩ := grounded.native.prefixRule found
          simp [rule.blindfold_recipe, Recipe.expressionTail, Recipe.ask]
  | expressionTail least left =>
      simp only [recipe, Recipe.expressionTailPhrase, Recipe.blindfold_bind, Recipe.blindfold_kind]
      congr 1
      funext next
      cases found : tables.infixRule next with
      | none => simp
      | some recipe =>
          obtain ⟨rule, rfl⟩ := grounded.native.infixRule found
          simp [rule.blindfold_recipe, Recipe.expressionTail, Recipe.ask]
  | type least =>
      simp only [recipe, Recipe.typePhrase, Recipe.blindfold_bind, Recipe.blindfold_kind]
      congr 1
      funext first
      cases found : tables.typePrefixRule first with
      | none => rfl
      | some recipe =>
          obtain ⟨rule, rfl⟩ := grounded.native.typePrefixRule found
          simp [rule.blindfold_recipe, Recipe.typeTail, Recipe.ask]
  | typeTail least left =>
      have idle : ∀ next, ¬ least < tables.typePower next :=
        fun next => Tables.not_lt_typePower_of_none (grounded.typeInfixPower next)
      simp [recipe, Recipe.typeTailPhrase, idle]
  | statement =>
      simp only [recipe, Recipe.statementPhrase, Recipe.blindfold_bind, Recipe.blindfold_kind]
      congr 1
      funext first
      cases found : tables.statementRule first with
      | none => exact StatementRule.blindfold_recipe .expression
      | some recipe =>
          obtain ⟨rule, rfl⟩ := grounded.native.statementRule found
          exact rule.blindfold_recipe
  | statements =>
      simp [recipe, Recipe.statementsPhrase, Recipe.statement, Recipe.statements, Recipe.ask]
  | conditional =>
      simp [recipe, Recipe.conditionalPhrase, Recipe.conditional, Recipe.blockStatement,
        Recipe.expression, Recipe.ask]
  | arguments close =>
      simp [recipe, Recipe.argumentsPhrase, Recipe.expression, Recipe.arguments, Recipe.ask]
  | parameters =>
      simp [recipe, Recipe.parametersPhrase, Recipe.type, Recipe.parameters, Recipe.ask]

/-! ## Streams that are the same up to an end of input -/

/-- The streams have the same tokens up to the first end of input, and both have one. -/
inductive SameToEnd : List Token → List Token → Prop
  | ends {token token' : Token} {rest rest' : List Token} (ends : token.kind = .endOfInput)
      (ends' : token'.kind = .endOfInput) : SameToEnd (token :: rest) (token' :: rest')
  | goesOn {token : Token} {rest rest' : List Token} (open' : token.kind ≠ .endOfInput)
      (others : SameToEnd rest rest') : SameToEnd (token :: rest) (token :: rest')

theorem sameToEnd_append {before rest rest' : List Token} {token token' : Token}
    (endless : ∀ token ∈ before, token.kind ≠ .endOfInput) (ends : token.kind = .endOfInput)
    (ends' : token'.kind = .endOfInput) :
    SameToEnd (before ++ token :: rest) (before ++ token' :: rest') := by
  induction before with
  | nil => exact .ends ends ends'
  | cons first before ih =>
      exact .goesOn (endless first List.mem_cons_self)
        (ih fun other member => endless other (List.mem_cons_of_mem first member))

/-- The cursors stand at the same index, in front of the same tokens up to the first end of
input. -/
structure Cursor.Alongside (cursor cursor' : Cursor) : Prop where
  index_eq : cursor.index = cursor'.index
  same : SameToEnd cursor.ahead cursor'.ahead

namespace Cursor.Alongside

variable {cursor cursor' : Cursor}

theorem kind_eq (alongside : cursor.Alongside cursor') : cursor.kind = cursor'.kind := by
  obtain ⟨index, current, rest⟩ := cursor
  obtain ⟨index', current', rest'⟩ := cursor'
  cases alongside.same with
  | ends ends ends' => exact ends.trans ends'.symm
  | goesOn open' others => rfl

theorem current_eq (alongside : cursor.Alongside cursor') (open' : cursor.kind ≠ .endOfInput) :
    cursor.current = cursor'.current := by
  obtain ⟨index, current, rest⟩ := cursor
  obtain ⟨index', current', rest'⟩ := cursor'
  cases alongside.same with
  | ends ends ends' => exact absurd ends open'
  | goesOn open' others => rfl

theorem next (alongside : cursor.Alongside cursor') (open' : cursor.kind ≠ .endOfInput) :
    cursor.next.Alongside cursor'.next := by
  obtain ⟨index, current, rest⟩ := cursor
  obtain ⟨index', current', rest'⟩ := cursor'
  obtain rfl : index = index' := alongside.index_eq
  cases alongside.same with
  | ends ends ends' => exact absurd ends open'
  | goesOn open' others =>
      cases others with
      | ends ends ends' => exact ⟨rfl, .ends ends ends'⟩
      | goesOn open'' others => exact ⟨rfl, .goesOn open'' others⟩

end Cursor.Alongside

/-- The outcomes are the same, and leave cursors alongside each other. -/
inductive Outcome.Alongside {α : Type} : Outcome α → Outcome α → Prop
  | accepted (value : α) {cursor cursor' : Cursor} (alongside : cursor.Alongside cursor') :
      Outcome.Alongside (.accepted value cursor) (.accepted value cursor')
  | refused (diagnostic : Diagnostic) {cursor cursor' : Cursor}
      (alongside : cursor.Alongside cursor') :
      Outcome.Alongside (.refused diagnostic cursor) (.refused diagnostic cursor')
  | exhausted : Outcome.Alongside .exhausted .exhausted

/-! ## Runs alongside each other -/

/-- A careful recipe that sees no texts of tokens it does not read has the same outcome from
cursors alongside each other, if that is so for the phrases. -/
theorem Recipe.run_alongside {α : Type}
    {answer answer' : (phrase : Phrase) → Cursor → Outcome phrase.Value}
    (answers : ∀ phrase cursor cursor', cursor.Alongside cursor' → phrase.StartsAt cursor.current →
      (answer phrase cursor).Alongside (answer' phrase cursor'))
    {recipe : Recipe α} {cursor cursor' : Cursor} (alongside : cursor.Alongside cursor')
    (careful : recipe.Careful cursor.current) (blind : recipe.blindfold = recipe) :
    (recipe.run answer cursor).Alongside (recipe.run answer' cursor') := by
  induction recipe generalizing cursor cursor' with
  | yield value => exact .accepted value alongside
  | refuse cause =>
      rw [run, run, alongside.index_eq]
      exact .refused _ alongside
  | peek next ih =>
      have hidden : ∀ token, (next ⟨token.kind, ""⟩).blindfold = next token :=
        fun token => congrFun (Recipe.peek.inj blind) token
      have same : next cursor.current = next cursor'.current := by
        have kinds : cursor.current.kind = cursor'.current.kind := alongside.kind_eq
        rw [← hidden, ← hidden cursor'.current, kinds]
      have blind' : (next cursor.current).blindfold = next cursor.current := by
        rw [← hidden, blindfold_idem]
      have ran := ih cursor.current alongside careful blind'
      rw [run, run, ← same]
      exact ran
  | readToken fault next ih =>
      obtain ⟨open', careful⟩ := careful
      have further := alongside.next open'
      rw [run_readToken, run_readToken, ← alongside.current_eq open', ← alongside.index_eq]
      cases fault cursor.current with
      | some cause => exact .refused _ further
      | none =>
          have blind' := congrFun (Recipe.readToken.inj blind).2 cursor.current
          exact ih _ further (careful _) blind'
  | readPhrase phrase fault next ih =>
      obtain ⟨starts, careful⟩ := careful
      have inner := answers phrase cursor cursor' alongside starts
      rw [run_readPhrase, run_readPhrase]
      generalize answer phrase cursor = outcome at inner
      generalize answer' phrase cursor' = outcome' at inner
      cases inner with
      | exhausted => exact .exhausted
      | refused diagnostic further => exact .refused diagnostic further
      | accepted value further =>
          dsimp only
          rw [← alongside.index_eq]
          cases fault value with
          | some cause => exact .refused _ further
          | none =>
              have blind' := congrFun (eq_of_heq (Recipe.readPhrase.inj blind).2.2) value
              exact ih value further (careful _ _) blind'

section Grounded

variable {tables : Tables} (grounded : tables.Grounded) {cursor cursor' : Cursor}
include grounded

theorem answer_alongside (levels : Nat) {phrase : Phrase}
    (alongside : cursor.Alongside cursor') (starts : phrase.StartsAt cursor.current) :
    (answer tables levels phrase cursor).Alongside (answer tables levels phrase cursor') := by
  induction levels generalizing phrase cursor cursor' with
  | zero => exact .exhausted
  | succ levels ih =>
      exact Recipe.run_alongside (fun _ _ _ alongside starts => ih alongside starts) alongside
        (phrase.careful grounded starts) (phrase.blindfold_recipe grounded)

end Grounded

/-! ## Where the reading of statements ends -/

/-- Read statements up to the end of input, and tell where the reading ends. -/
def readStatementsTo (tables : Tables) : Nat → Cursor → Progress × Cursor
  | 0, cursor => (⟨[], .exhausted⟩, cursor)
  | levels + 1, cursor =>
    if cursor.hasMore then
      match answer tables levels .statement cursor with
      | .accepted statement cursor' =>
        let (progress, stop) := readStatementsTo tables levels cursor'
        (⟨statement :: progress.statements, progress.ending⟩, stop)
      | .refused diagnostic cursor' => (⟨[], .refused diagnostic⟩, cursor')
      | .exhausted => (⟨[], .exhausted⟩, cursor)
    else (⟨[], .complete⟩, cursor)

/-- Telling where the reading ends changes nothing about it. -/
theorem readStatementsTo_fst (tables : Tables) (levels : Nat) (cursor : Cursor) :
    (readStatementsTo tables levels cursor).1 = readStatements tables levels cursor := by
  induction levels generalizing cursor with
  | zero => rfl
  | succ levels ih =>
      rw [readStatementsTo, readStatements]
      split
      · cases answer tables levels .statement cursor with
        | accepted statement cursor' => simp only [ih]
        | refused diagnostic cursor' => rfl
        | exhausted => rfl
      · rfl

theorem leads_readStatementsTo (tables : Tables) (levels : Nat) (cursor : Cursor) :
    cursor.Leads (readStatementsTo tables levels cursor).2 := by
  induction levels generalizing cursor with
  | zero => exact .refl _
  | succ levels ih =>
      rw [readStatementsTo]
      split
      · cases first : answer tables levels .statement cursor with
        | accepted statement cursor' => exact (leads_of_answer first).trans (ih cursor')
        | refused diagnostic cursor' => exact leads_of_cursor? (by rw [first]; rfl)
        | exhausted => exact .refl _
      · exact .refl _

/-- A reading that is complete ends in front of an end of input. -/
theorem kind_readStatementsTo {tables : Tables} {levels : Nat} {cursor : Cursor}
    (complete : (readStatementsTo tables levels cursor).1.ending = .complete) :
    (readStatementsTo tables levels cursor).2.kind = .endOfInput := by
  induction levels generalizing cursor with
  | zero => cases complete
  | succ levels ih =>
      rw [readStatementsTo] at complete ⊢
      split
      · rename_i more
        rw [if_pos more] at complete
        cases first : answer tables levels .statement cursor with
        | accepted statement cursor' =>
            rw [first] at complete
            exact ih complete
        | refused diagnostic cursor' =>
            rw [first] at complete
            cases complete
        | exhausted =>
            rw [first] at complete
            cases complete
      · rename_i none
        simpa [Cursor.hasMore] using none

theorem readStatementsTo_alongside {tables : Tables} (grounded : tables.Grounded) (levels : Nat)
    {cursor cursor' : Cursor} (alongside : cursor.Alongside cursor') :
    (readStatementsTo tables levels cursor).1 = (readStatementsTo tables levels cursor').1 ∧
      (readStatementsTo tables levels cursor).2.Alongside
        (readStatementsTo tables levels cursor').2 := by
  induction levels generalizing cursor cursor' with
  | zero => exact ⟨rfl, alongside⟩
  | succ levels ih =>
      have more : cursor.hasMore = cursor'.hasMore := by
        rw [Cursor.hasMore, Cursor.hasMore, alongside.kind_eq]
      have starts : Phrase.statement.StartsAt cursor.current := trivial
      have first := answer_alongside grounded levels alongside starts
      rw [readStatementsTo, readStatementsTo, ← more]
      split
      · generalize answer tables levels .statement cursor = outcome at first
        generalize answer tables levels .statement cursor' = outcome' at first
        cases first with
        | accepted statement further =>
            obtain ⟨same, stops⟩ := ih further
            exact ⟨by simp only [same], stops⟩
        | refused diagnostic further => exact ⟨rfl, further⟩
        | exhausted => exact ⟨rfl, alongside⟩
      · exact ⟨rfl, alongside⟩

/-! ## Programs -/

/-- Where the reading of a program ends. -/
def programEnd (tables : Tables) (tokens : List Token) : Cursor :=
  (readStatementsTo tables (Cursor.start tokens).budget (.start tokens)).2

theorem beforeEnd_endless (tokens : List Token) :
    ∀ token ∈ beforeEnd tokens, token.kind ≠ .endOfInput := by
  intro token member
  simpa using List.mem_takeWhile_imp member

theorem beforeEnd_of_endless {tokens : List Token}
    (endless : ∀ token ∈ tokens, token.kind ≠ .endOfInput) : beforeEnd tokens = tokens := by
  unfold beforeEnd
  rw [List.takeWhile_eq_self_iff]
  simpa using endless

/-- Programs with the same tokens in front of the first end of input begin alongside each
other. -/
theorem alongside_start {tokens tokens' : List Token}
    (same : beforeEnd tokens = beforeEnd tokens') :
    (Cursor.start tokens).Alongside (.start tokens') := by
  obtain ⟨token, rest, ends, stream⟩ := closeStream_eq_append tokens
  obtain ⟨token', rest', ends', stream'⟩ := closeStream_eq_append tokens'
  constructor
  · rw [(Cursor.standsIn_start tokens).index_eq, (Cursor.standsIn_start tokens').index_eq]
  · have front := (Cursor.standsIn_start tokens).stream_eq
    have front' := (Cursor.standsIn_start tokens').stream_eq
    rw [List.nil_append] at front front'
    rw [← front, ← front', stream, stream', ← same]
    exact sameToEnd_append (beforeEnd_endless tokens) ends ends'

/-- The last token of a stream is the only end of input in it, so a cursor in front of an end of
input stands there. -/
theorem Cursor.StandsIn.index_of_ends {before passed : List Token} {token : Token} {cursor : Cursor}
    (stands : cursor.StandsIn (before ++ [token]) passed)
    (endless : ∀ token ∈ before, token.kind ≠ .endOfInput) (ends : cursor.kind = .endOfInput) :
    cursor.index = before.length := by
  have inside := stands.index_lt
  rw [List.length_append, List.length_singleton] at inside
  by_contra different
  have short : cursor.index < before.length := by omega
  have rest := stands.drop_index
  rw [List.drop_append_of_le_length (Nat.le_of_lt short), List.drop_eq_getElem_cons short] at rest
  have current : before[cursor.index] = cursor.current := (List.cons.inj rest).1
  exact endless _ (current ▸ List.getElem_mem short) ends

section Grounded

variable {tables : Tables} (grounded : tables.Grounded) {tokens tokens' : List Token}
include grounded

theorem parseWith_ne_exhausted (tokens : List Token) : parseWith tables tokens ≠ .exhausted := by
  intro exhausted
  exact readProgram_settles grounded tokens (Progress.verdict_eq_exhausted_iff.mp exhausted)

/-- What is read of a program depends on the tokens in front of the first end of input only. -/
theorem readProgram_eq_of_beforeEnd (same : beforeEnd tokens = beforeEnd tokens') :
    readProgram tables tokens = readProgram tables tokens' := by
  let levels := max (Cursor.start tokens).budget (Cursor.start tokens').budget
  have alike := (readStatementsTo_alongside grounded levels (alongside_start same)).1
  rw [readStatementsTo_fst, readStatementsTo_fst] at alike
  calc readProgram tables tokens
      = readStatements tables levels (.start tokens) :=
        (readStatements_of_le (readProgram_settles grounded tokens) (Nat.le_max_left _ _)).symm
    _ = readStatements tables levels (.start tokens') := alike
    _ = readProgram tables tokens' :=
        readStatements_of_le (readProgram_settles grounded tokens') (Nat.le_max_right _ _)

/-- Where the reading of a program ends, the reading ends of the tokens in front of the first end
of input. -/
theorem exists_programEnd (tokens : List Token) :
    ∃ passed stop, (programEnd tables tokens).Alongside stop ∧
      stop.StandsIn (beforeEnd tokens ++ [.endOfInput]) passed := by
  have endless := beforeEnd_endless tokens
  have same : beforeEnd tokens = beforeEnd (beforeEnd tokens) := (beforeEnd_of_endless endless).symm
  obtain ⟨-, stops⟩ := readStatementsTo_alongside grounded
    (Cursor.start tokens).budget (alongside_start same)
  obtain ⟨passed, stands⟩ := (Cursor.standsIn_start (beforeEnd tokens)).of_leads
    (leads_readStatementsTo tables (Cursor.start tokens).budget (.start (beforeEnd tokens)))
  rw [closeStream_of_endless endless] at stands
  exact ⟨_, _, stops, stands⟩

/-- The first end of input is not read. -/
theorem index_programEnd_le (tokens : List Token) :
    (programEnd tables tokens).index ≤ (beforeEnd tokens).length := by
  obtain ⟨passed, stop, alongside, stands⟩ := exists_programEnd grounded tokens
  have inside := stands.index_lt
  rw [List.length_append, List.length_singleton] at inside
  rw [alongside.index_eq]
  omega

/-- The reading of a program that is accepted ends behind the tokens in front of the first end
of input. -/
theorem index_programEnd {body : List Statement}
    (accepted : parseWith tables tokens = .accepted body) :
    (programEnd tables tokens).index = (beforeEnd tokens).length := by
  obtain ⟨passed, stop, alongside, stands⟩ := exists_programEnd grounded tokens
  have complete : (readProgram tables tokens).ending = .complete := by
    rw [Progress.verdict_eq_accepted_iff.mp accepted]
  rw [readProgram, ← readStatementsTo_fst] at complete
  have ends : (programEnd tables tokens).kind = .endOfInput := kind_readStatementsTo complete
  rw [alongside.index_eq]
  exact stands.index_of_ends (beforeEnd_endless tokens) (alongside.kind_eq.symm.trans ends)

end Grounded

/-- **Nothing behind the first end of input matters, and no end of input is read.** Behind tokens
without an end of input, one with any text can be put, and anything else behind it: the program
is accepted with the same statements or refused for the same reason at the same place. In neither
case does the cursor go behind the first end of input; and where the program is accepted, it
stands there, so that all tokens in front of it have been read. -/
theorem parse_ends_at_first_end {before : List Token}
    (endless : ∀ token ∈ before, token.kind ≠ .endOfInput) (text : String) (behind : List Token) :
    let tokens := before ++ ⟨.endOfInput, text⟩ :: behind
    parse tokens = parse before ∧ parse before ≠ .exhausted ∧
      (programEnd .language tokens).index ≤ before.length ∧
      ∀ body, parse before = .accepted body →
        (programEnd .language tokens).index = before.length ∧
          (programEnd .language before).index = before.length := by
  intro tokens
  have grounded := Tables.Grounded.language
  have alone : beforeEnd before = before := beforeEnd_of_endless endless
  have front : beforeEnd tokens = before := beforeEnd_append endless rfl
  have alike : parse tokens = parse before := by
    unfold parse parseWith
    rw [readProgram_eq_of_beforeEnd grounded (front.trans alone.symm)]
  have short := index_programEnd_le grounded tokens
  rw [front] at short
  refine ⟨alike, parseWith_ne_exhausted grounded before, short, fun body accepted => ⟨?_, ?_⟩⟩
  · have place := index_programEnd grounded (alike.trans accepted)
    rwa [front] at place
  · have place := index_programEnd grounded accepted
    rwa [alone] at place

/-- Behind a statement and the end of input stand a stray sign and another end of input; and a
creation stops at the end of input, though the call that it lacks stands behind that. -/
theorem sign_behind_end_ignored :
    let whole : List Token := [⟨.identifier, "x"⟩, ⟨.semicolon, ";"⟩]
    let short : List Token := [⟨.newWord, "new"⟩, ⟨.identifier, "x"⟩]
    let missing : Diagnostic := ⟨.expectedCall "SymbolExpr", .token 1⟩
    (parse (whole ++ ⟨.endOfInput, "end"⟩ :: [⟨.plus, "+"⟩, .endOfInput]) =
          .accepted [.expression (.symbol "x")] ∧
        (programEnd .language
          (whole ++ ⟨.endOfInput, "end"⟩ :: [⟨.plus, "+"⟩, .endOfInput])).index = 2) ∧
      parse (short ++ ⟨.endOfInput, ""⟩ :: [⟨.openParen, "("⟩, ⟨.closeParen, ")"⟩]) =
        .refused missing := by
  intro whole short missing
  have endless : ∀ token ∈ whole, token.kind ≠ .endOfInput := by decide
  have endless' : ∀ token ∈ short, token.kind ≠ .endOfInput := by decide
  have accepted : parse whole = .accepted [.expression (.symbol "x")] := by cbv
  have refused : parse short = .refused missing := by cbv
  obtain ⟨same, -, -, ends⟩ :=
    parse_ends_at_first_end endless "end" [⟨.plus, "+"⟩, .endOfInput]
  obtain ⟨same', -, -, -⟩ :=
    parse_ends_at_first_end endless' "" [⟨.openParen, "("⟩, ⟨.closeParen, ")"⟩]
  exact ⟨⟨same.trans accepted, (ends _ accepted).1⟩, same'.trans refused⟩

end ScriptReader
