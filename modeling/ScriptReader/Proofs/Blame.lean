/- # ScriptReader.Proofs.Blame — what a refused program says of its tokens

A refusal points at a token, and `Cause.Describes` says what its cause then claims
about that token and about those before it. A recipe is fair (`Recipe.FairAt`) if
every refusal that it can raise is true of the tokens it met, whatever the phrases
inside it passed. Every rule and every phrase is fair, at the end of input, too,
where the cursor may stay.

Carrying a fair recipe out keeps the cursor on the stream (`Recipe.leads_of_run`), so
what is refused is refused for a token of the stream that the cause describes
(`Recipe.pointsInto_of_run`). From there it goes up through the levels of nesting
and along the statements of a program.
-/
import ScriptReader.Proofs.Staying
import ScriptReader.Proofs.Misspelling

namespace ScriptReader

set_option autoImplicit false

/-- What the causes of a refused parse say of the token they are raised at and of the tokens
before it. -/
def Cause.Describes (before : List Token) (current : Token) : Cause → Prop
  | .unexpected expected found => found = current.kind ∧ expected ≠ found
  | .expectedExpression found => found = current.kind
  | .expectedType found => found = current.kind
  | .missingValue name => current.kind = .semicolon ∧ ⟨.identifier, name⟩ ∈ before
  | .missingTypeOrValue name => current.kind = .semicolon ∧ ⟨.identifier, name⟩ ∈ before
  | .unreadableNumber text => current = ⟨.number, text⟩ ∧ Binary64.ofNumeral? text = none
  | .expectedCall _ => before.getLast?.map Token.kind = some .newWord
  | .unrecognised _ | .unterminatedText | .malformedNumber _ | .missingInfixRule _ => False

theorem Cause.Describes.stage_eq {before : List Token} {current : Token} {cause : Cause}
    (describes : cause.Describes before current) : cause.stage = .parsing := by
  cases cause with
  | unrecognised | unterminatedText | malformedNumber => exact describes.elim
  | _ => rfl

/-- The diagnostic points at a token of the stream, which its cause describes. -/
def Diagnostic.PointsInto (stream : List Token) (diagnostic : Diagnostic) : Prop :=
  ∃ before current behind, stream = before ++ current :: behind ∧
    diagnostic.place = .token before.length ∧ diagnostic.cause.Describes before current

theorem Diagnostic.PointsInto.stage_eq {stream : List Token} {diagnostic : Diagnostic}
    (points : diagnostic.PointsInto stream) : diagnostic.cause.stage = .parsing := by
  obtain ⟨before, current, behind, -, -, describes⟩ := points
  exact describes.stage_eq

/-! ## Fair recipes -/

namespace Recipe

variable {α β : Type}

/-- Every refusal that the recipe can raise describes the token it is raised at, given the
tokens before the cursor and the current one. A token that is read is passed, unless it is the
last of the stream; what is passed for a phrase is left open. -/
def FairAt : Recipe α → List Token → Token → Prop
  | .yield _, _, _ => True
  | .refuse cause, before, current => cause.Describes before current
  | .peek next, before, current => (next current).FairAt before current
  | .readToken fault next, before, current =>
    (∀ cause, fault current = some cause → cause.Describes before current) ∧
      (fault current = none →
        (∀ later, (next current).FairAt (before ++ [current]) later) ∧
          (current.kind = .endOfInput → (next current).FairAt before current))
  | .readPhrase _ fault next, before, current =>
    ∀ value, (∀ cause, fault value = some cause → cause.Describes before current) ∧
      (fault value = none → ∀ passed later, (next value).FairAt (before ++ passed) later)

/-- The recipe is fair wherever it is carried out. -/
def Fair (recipe : Recipe α) : Prop := ∀ before current, recipe.FairAt before current

theorem FairAt.bind {recipe : Recipe α} {next : α → Recipe β} {before : List Token}
    {current : Token} (first : recipe.FairAt before current)
    (second : ∀ value passed later, (next value).FairAt (before ++ passed) later) :
    (recipe >>= next).FairAt before current := by
  rw [bind_eq]
  induction recipe generalizing before current with
  | yield value =>
      have here := second value [] current
      rwa [List.append_nil] at here
  | refuse cause => exact first
  | peek next' ih => exact ih current first second
  | readToken fault next' ih =>
      obtain ⟨describes, behind⟩ := first
      refine ⟨describes, ?_⟩
      intro sound
      obtain ⟨moved, stayed⟩ := behind sound
      refine ⟨?_, fun ends => ih current (stayed ends) second⟩
      intro later
      refine ih current (moved later) ?_
      intro value passed later'
      rw [List.append_assoc]
      exact second value ([current] ++ passed) later'
  | readPhrase phrase fault next' ih =>
      intro value
      obtain ⟨describes, behind⟩ := first value
      refine ⟨describes, ?_⟩
      intro sound passed later
      refine ih value (behind sound passed later) ?_
      intro value' passed' later'
      rw [List.append_assoc]
      exact second value' (passed ++ passed') later'

theorem Fair.bind {recipe : Recipe α} {next : α → Recipe β} (first : recipe.Fair)
    (second : ∀ value, (next value).Fair) : (recipe >>= next).Fair :=
  fun before current => (first before current).bind fun value _ later => second value _ later

theorem fair_return (value : α) : (pure value : Recipe α).Fair := fun _ _ => trivial

/-! ### Recipes step by step -/

section Steps

variable {before : List Token} {current : Token} {expected opening closing : TokenKind}

theorem fair_take : take.Fair := by
  intro before current
  refine ⟨?_, fun _ => ⟨fun _ => trivial, fun _ => trivial⟩⟩
  intro cause wrong
  cases wrong

theorem fair_kind_bind {next : TokenKind → Recipe α} (behind : ∀ kind, (next kind).Fair) :
    (kind >>= next).Fair :=
  fun before current => behind current.kind before current

theorem fair_refuseKind {cause : TokenKind → Cause}
    (describes : ∀ before current, (cause current.kind).Describes before current) :
    (refuseKind cause : Recipe α).Fair :=
  describes

/-- Where a token of another kind was expected, that is what the refusal says. -/
theorem describes_unexpected (differs : current.kind ≠ expected) :
    (Cause.unexpected expected current.kind).Describes before current :=
  ⟨rfl, differs.symm⟩

theorem fair_expect : (expect expected).Fair := by
  intro before current
  change FairAt (if current.kind = expected then take else _) before current
  split
  · exact fair_take before current
  · rename_i differs
    exact describes_unexpected differs

theorem fair_expectText : (expectText expected).Fair := fair_expect.bind fun _ => fair_return _

/-- Behind a token that was expected, that token is known to have been passed. -/
theorem fairAt_expect_bind {next : Token → Recipe α} (open' : expected ≠ .endOfInput)
    (behind : current.kind = expected → ∀ later,
      (next current).FairAt (before ++ [current]) later) :
    (expect expected >>= next).FairAt before current := by
  change FairAt ((if current.kind = expected then take else .refuse _).bind next) before current
  split
  · rename_i same
    refine ⟨?_, fun _ => ⟨behind same, ?_⟩⟩
    · intro cause wrong
      cases wrong
    · intro ends
      exact absurd (same.symm.trans ends) open'
  · rename_i differs
    exact describes_unexpected differs

theorem fairAt_expectText_bind {next : String → Recipe α} (open' : expected ≠ .endOfInput)
    (behind : current.kind = expected → ∀ later,
      (next current.text).FairAt (before ++ [current]) later) :
    (expectText expected >>= next).FairAt before current := by
  rw [bind_eq, expectText, bind_eq, bind_assoc]
  exact fairAt_expect_bind open' behind

theorem fair_ifKind {wanted : TokenKind} {there elsewhere : Recipe α} (first : there.Fair)
    (second : elsewhere.Fair) : (ifKind wanted there elsewhere).Fair := by
  intro before current
  change FairAt (if current.kind = wanted then there else elsewhere) before current
  split
  · exact first before current
  · exact second before current

theorem fair_optional {content : Recipe α} (inside : content.Fair) :
    (optional expected content).Fair :=
  fair_ifKind (fair_take.bind fun _ => inside.bind fun _ => fair_return _) (fair_return _)

theorem fair_ask (phrase : Phrase) : (ask phrase).Fair := by
  intro before current value
  refine ⟨?_, fun _ _ _ => trivial⟩
  intro cause wrong
  cases wrong

/-- What was made of something without a fault raises no refusal. -/
theorem fair_made {made' : Except Cause α} (sound : faultOf made' = none) : (made made').Fair := by
  cases made' with
  | ok value => exact fair_return value
  | error cause => cases sound

theorem eq_error_of_faultOf {made' : Except Cause α} {cause : Cause}
    (wrong : faultOf made' = some cause) : made' = .error cause := by
  cases made' with
  | ok value => cases wrong
  | error cause' =>
      cases wrong
      rfl

theorem fairAt_tokenAs {make : Token → Except Cause α}
    (describes : ∀ cause, make current = .error cause → cause.Describes before current) :
    (tokenAs make).FairAt before current := by
  refine ⟨?_, ?_⟩
  · intro cause wrong
    exact describes cause (eq_error_of_faultOf wrong)
  · intro sound
    exact ⟨fun later => fair_made sound _ later, fun _ => fair_made sound before current⟩

theorem fairAt_phraseAs {phrase : Phrase} {make : phrase.Value → Except Cause α}
    (describes : ∀ value cause, make value = .error cause → cause.Describes before current) :
    (phraseAs phrase make).FairAt before current := by
  intro value
  refine ⟨?_, ?_⟩
  · intro cause wrong
    exact describes value cause (eq_error_of_faultOf wrong)
  · intro sound passed later
    exact fair_made sound _ later

theorem fair_block : block.Fair :=
  fair_expect.bind fun _ => (fair_ask .statements).bind fun _ =>
    fair_expect.bind fun _ => fair_return _

theorem fair_enclosed : (enclosed opening closing).Fair :=
  fair_expect.bind fun _ => (fair_ask (.arguments closing)).bind fun _ =>
    fair_expect.bind fun _ => fair_return _

theorem fair_separator : (separator closing).Fair := by
  intro before current
  change FairAt (if current.kind = .endOfInput ∨ current.kind = closing then _ else _) _ _
  split
  · trivial
  · exact (fair_expect.bind fun _ => fair_return ()) before current

theorem fair_functionRest : functionRest.Fair :=
  fair_expect.bind fun _ => (fair_ask .parameters).bind fun _ =>
    fair_expect.bind fun _ => (fair_optional (fair_ask _)).bind fun _ =>
      fair_block.bind fun _ => fair_return _

/-- A value is missed in front of a semicolon, under a name that was passed. -/
theorem fairAt_initialValue {constant : Bool} {name : String} {type : Option TypeExpr}
    (named : ⟨.identifier, name⟩ ∈ before) :
    (initialValue constant name type).FairAt before current := by
  change FairAt (if current.kind = .semicolon then _ else _) before current
  split
  · rename_i semicolon
    split
    · exact ⟨semicolon, named⟩
    · split
      · exact ⟨semicolon, named⟩
      · trivial
  · exact (fair_expect.bind fun _ => (fair_ask _).bind fun _ => fair_return _) before current

/-- The name of a declaration is passed before its value can be missed. -/
theorem fair_declaration : declaration.Fair := by
  refine fair_take.bind fun opening => ?_
  intro before current
  refine fairAt_expectText_bind (by decide) fun same later => ?_
  have named : ⟨.identifier, current.text⟩ ∈ before ++ [current] := by
    rw [← same]
    simp
  refine (fair_optional (fair_ask _) _ later).bind fun type passed later' => ?_
  refine (fairAt_initialValue (List.mem_append_left passed named)).bind fun value _ _ => ?_
  exact (fair_expect.bind fun _ => fair_return _) _ _

theorem fair_primary : primary.Fair := by
  intro before current
  refine fairAt_tokenAs ?_
  intro cause wrong
  obtain ⟨kind, text⟩ := current
  unfold ofToken at wrong
  split at wrong
  · rename_i number
    split at wrong
    · cases wrong
    · rename_i unreadable
      cases wrong
      exact ⟨congrArg (Token.mk · text) number, unreadable⟩
  · cases wrong
  · cases wrong
  · cases wrong
    rfl

/-- What should have been a call begins just behind `new`. -/
theorem fair_creation : creation.Fair := by
  intro before current
  refine fairAt_expect_bind (by decide) fun same later => fairAt_phraseAs ?_
  intro value cause wrong
  unfold ofCall at wrong
  split at wrong
  · cases wrong
  · cases wrong
    simp [Cause.Describes, same]

end Steps

end Recipe

/-! ### Rules -/

open Recipe

theorem PrefixRule.fair (rule : PrefixRule) : rule.recipe.Fair := by
  cases rule with
  | primary => exact fair_primary
  | operation => exact fair_take.bind fun _ => (fair_ask _).bind fun _ => fair_return _
  | grouping =>
      exact fair_expect.bind fun _ => (fair_ask _).bind fun _ =>
        fair_expect.bind fun _ => fair_return _
  | array => exact fair_enclosed.bind fun _ => fair_return _
  | function => exact fair_expect.bind fun _ => fair_functionRest.bind fun _ => fair_return _
  | creation => exact fair_creation

theorem InfixRule.fair (rule : InfixRule) (left : Expr) (power : Power) :
    (rule.recipe left power).Fair := by
  cases rule with
  | binary | assignment | range =>
      exact fair_take.bind fun _ => (fair_ask _).bind fun _ => fair_return _
  | call => exact fair_enclosed.bind fun _ => fair_return _
  | member =>
      refine fair_take.bind fun operator => ?_
      split
      · exact (fair_ask _).bind fun _ => fair_expect.bind fun _ => fair_return _
      · exact fair_expectText.bind fun _ => fair_return _

theorem TypePrefixRule.fair (rule : TypePrefixRule) : rule.recipe.Fair := by
  cases rule with
  | name => exact fair_expectText.bind fun _ => fair_return _
  | list =>
      exact fair_expect.bind fun _ => fair_expect.bind fun _ =>
        (fair_ask _).bind fun _ => fair_return _

theorem StatementRule.fair (rule : StatementRule) : rule.recipe.Fair := by
  cases rule with
  | anyStatement => exact fair_ask _
  | conditional => exact fair_ask _
  | expression => exact (fair_ask _).bind fun _ => fair_expect.bind fun _ => fair_return _
  | block => exact fair_block.bind fun _ => fair_return _
  | declaration => exact fair_declaration
  | function =>
      exact fair_take.bind fun _ => fair_expectText.bind fun _ =>
        fair_functionRest.bind fun _ => fair_return _
  | importing =>
      exact fair_take.bind fun _ => fair_expectText.bind fun _ =>
        (fair_optional fair_expectText).bind fun _ => fair_expect.bind fun _ => fair_return _
  | foreach =>
      exact fair_take.bind fun _ => fair_expectText.bind fun _ =>
        (fair_optional fair_expectText).bind fun _ => fair_expect.bind fun _ =>
          (fair_ask _).bind fun _ => fair_block.bind fun _ => fair_return _
  | classDeclaration =>
      exact fair_take.bind fun _ => fair_expectText.bind fun _ =>
        fair_block.bind fun _ => fair_return _
  | returning =>
      exact fair_take.bind fun _ =>
        (fair_ifKind (fair_return _) ((fair_ask _).bind fun _ => fair_return _)).bind fun _ =>
          fair_expect.bind fun _ => fair_return _
  | loop =>
      exact fair_take.bind fun _ => (fair_ask _).bind fun _ =>
        fair_block.bind fun _ => fair_return _

/-! ### Tables -/

/-- The rules are those of the language; whatever binds on the right of an expression has a rule
there, and nothing binds on the right of a type. -/
structure Tables.Paired (tables : Tables) : Prop where
  native : tables.Native
  infixRule : ∀ kind, tables.infixPower kind ≠ none → tables.infixRule kind ≠ none
  typeInfixPower : ∀ kind, tables.typeInfixPower kind = none

/-- Every entry of the language's rules. For going on from types there are none. -/
def Entry.Plain : Entry → Prop
  | .typeInfix _ _ _ | .ownStatement _ _ | .ownPrefix _ _ | .ownInfix _ _ _
  | .ownTypePrefix _ _ => False
  | _ => True

instance : DecidablePred Entry.Plain
  | .typeInfix _ _ _ | .ownStatement _ _ | .ownPrefix _ _ | .ownInfix _ _ _
  | .ownTypePrefix _ _ => inferInstanceAs (Decidable False)
  | .statement _ _ | .prefixForm _ _ | .infixForm _ _ _ | .typePrefix _ _ =>
    inferInstanceAs (Decidable True)

theorem Entry.Plain.native {entry : Entry} (plain : entry.Plain) : entry.Native := by
  cases entry with
  | statement | prefixForm | infixForm | typePrefix | typeInfix => trivial
  | ownStatement | ownPrefix | ownInfix | ownTypePrefix => exact plain

namespace Tables.Paired

variable {tables : Tables}

theorem empty : Tables.empty.Paired where
  native := Tables.Meet.empty
  infixRule _ some := absurd rfl some
  typeInfixPower _ := rfl

theorem insert (paired : tables.Paired) {entry : Entry} (plain : entry.Plain) :
    (tables.insert entry).Paired := by
  have native := paired.native.insert plain.native.meets
  cases entry with
  | statement | prefixForm | typePrefix => exact { paired with native }
  | infixForm kind power rule =>
      refine { paired with native, infixRule := ?_ }
      intro other some
      by_cases same : other = kind
      · simp [Tables.insert, Tables.insertInfix, Tables.assign, same]
      · have before := paired.infixRule other
        simp only [Tables.insert, Tables.insertInfix, Tables.assign_of_ne same] at some ⊢
        exact before some
  | typeInfix | ownStatement | ownPrefix | ownInfix | ownTypePrefix => exact plain.elim

theorem extend (paired : tables.Paired) {entries : List Entry}
    (plain : ∀ entry ∈ entries, entry.Plain) : (tables.extend entries).Paired := by
  refine List.foldlRecOn entries Tables.insert paired ?_
  intro tables paired entry member
  exact paired.insert (plain entry member)

theorem language : Tables.language.Paired := empty.extend (by decide)

end Tables.Paired

/-! ### Phrases -/

theorem Phrase.fair {tables : Tables} (paired : tables.Paired) (phrase : Phrase) :
    (phrase.recipe tables).Fair := by
  cases phrase with
  | expression least =>
      refine fair_kind_bind fun first => ?_
      split
      · exact fair_refuseKind fun _ _ => rfl
      · rename_i recipe found
        obtain ⟨rule, rfl⟩ := paired.native.prefixRule found
        exact rule.fair.bind fun left => fair_ask (.expressionTail least left)
  | expressionTail least left =>
      refine fair_kind_bind fun next => ?_
      split
      · rename_i tighter
        split
        · rename_i none
          exact absurd none (paired.infixRule _ (Tables.infixPower_ne_none tighter))
        · rename_i recipe found
          obtain ⟨rule, rfl⟩ := paired.native.infixRule found
          exact (rule.fair _ _).bind fun whole => fair_ask (.expressionTail least whole)
      · exact fair_return left
  | type least =>
      refine fair_kind_bind fun first => ?_
      split
      · exact fair_refuseKind fun _ _ => rfl
      · rename_i recipe found
        obtain ⟨rule, rfl⟩ := paired.native.typePrefixRule found
        exact rule.fair.bind fun left => fair_ask (.typeTail least left)
  | typeTail least left =>
      refine fair_kind_bind fun next => ?_
      rw [if_neg (Tables.not_lt_typePower_of_none (paired.typeInfixPower next))]
      exact fair_return left
  | statement =>
      refine fair_kind_bind fun first => ?_
      split
      · exact (fair_ask _).bind fun _ => fair_expect.bind fun _ => fair_return _
      · rename_i recipe found
        obtain ⟨rule, rfl⟩ := paired.native.statementRule found
        exact rule.fair
  | statements =>
      refine fair_kind_bind fun next => ?_
      split
      · exact fair_return []
      · exact (fair_ask .statement).bind fun _ =>
          (fair_ask .statements).bind fun _ => fair_return _
  | conditional =>
      have alternative : (ifKind .ifWord Recipe.conditional blockStatement).Fair :=
        fair_ifKind (fair_ask _) (fair_block.bind fun _ => fair_return _)
      exact fair_take.bind fun _ => (fair_ask _).bind fun _ =>
        fair_block.bind fun _ => (fair_optional alternative).bind fun _ => fair_return _
  | arguments close =>
      refine fair_kind_bind fun next => ?_
      split
      · exact fair_return []
      · exact (fair_ask (.expression .assignment)).bind fun _ =>
          fair_separator.bind fun _ => (fair_ask (.arguments close)).bind fun _ => fair_return _
  | parameters =>
      refine fair_kind_bind fun next => ?_
      split
      · exact fair_return []
      · exact fair_expectText.bind fun _ => fair_expect.bind fun _ =>
          (fair_ask (.type .lowest)).bind fun _ => fair_separator.bind fun _ =>
            (fair_ask .parameters).bind fun _ => fair_return _

/-! ## Carrying fair recipes out -/

namespace Cursor

variable {stream before : List Token} {cursor : Cursor}

/-- A cause that describes the current token points into the stream. -/
theorem StandsIn.pointsInto (stands : cursor.StandsIn stream before) {cause : Cause}
    (describes : cause.Describes before cursor.current) :
    Diagnostic.PointsInto stream ⟨cause, .token cursor.index⟩ :=
  ⟨before, cursor.current, cursor.rest, stands.stream_eq, by rw [stands.index_eq], describes⟩

end Cursor

/-- What a fair recipe is refused for is described by the cause, if that holds of the phrases
it reads. -/
theorem Recipe.pointsInto_of_run {α : Type} {stream : List Token}
    {answer : (phrase : Phrase) → Cursor → Outcome phrase.Value}
    (stays : ∀ phrase cursor value cursor', answer phrase cursor = .accepted value cursor' →
      cursor.Leads cursor')
    (points : ∀ phrase before cursor diagnostic cursor', cursor.StandsIn stream before →
      cursor.Ended → answer phrase cursor = .refused diagnostic cursor' →
        diagnostic.PointsInto stream)
    {recipe : Recipe α} {before : List Token} {cursor cursor' : Cursor} {diagnostic : Diagnostic}
    (fair : recipe.FairAt before cursor.current) (stands : cursor.StandsIn stream before)
    (ended : cursor.Ended) (ran : recipe.run answer cursor = .refused diagnostic cursor') :
    diagnostic.PointsInto stream := by
  induction recipe generalizing before cursor with
  | yield value => cases ran
  | refuse cause =>
      cases ran
      exact stands.pointsInto fair
  | peek next ih => exact ih _ fair stands ended ran
  | readToken fault next ih =>
      obtain ⟨describes, behind⟩ := fair
      simp only [run_readToken] at ran
      split at ran
      · rename_i cause wrong
        cases ran
        exact stands.pointsInto (describes cause wrong)
      · rename_i sound
        obtain ⟨moved, stayed⟩ := behind sound
        obtain ⟨index, current, rest⟩ := cursor
        cases rest with
        | nil =>
            -- The last token of the stream is not left: the recipe goes on in front of it.
            have last : current.kind = .endOfInput := by
              simpa [Cursor.Ended, Cursor.ahead] using ended
            exact ih _ (stayed last) stands ended ran
        | cons following rest =>
            have step : Cursor.StandsIn stream (before ++ [current])
                (Cursor.mk index current (following :: rest)).next := by
              constructor
              · simp [stands.stream_eq, Cursor.next, Cursor.ahead]
              · simpa [Cursor.next] using stands.index_eq
            exact ih _ (moved following) step (ended.of_leads (Cursor.leads_next _)) ran
  | readPhrase phrase fault next ih =>
      simp only [run_readPhrase] at ran
      split at ran
      · rename_i value middle inner
        obtain ⟨describes, behind⟩ := fair value
        have leads := stays _ _ _ _ inner
        split at ran
        · rename_i cause wrong
          cases ran
          exact stands.pointsInto (describes cause wrong)
        · rename_i sound
          obtain ⟨passed, stands'⟩ := stands.of_leads leads
          exact ih value (behind sound passed _) stands' (ended.of_leads leads) ran
      · rename_i refused middle inner
        cases ran
        exact points _ _ _ _ _ stands ended inner
      · cases ran

/-- What a program is refused for is how the reading of its statements ended. -/
theorem ending_of_parseWith {tables : Tables} {tokens : List Token} {diagnostic : Diagnostic}
    (refused : parseWith tables tokens = .refused diagnostic) :
    (readProgram tables tokens).ending = .refused diagnostic :=
  Progress.verdict_eq_refused_iff.mp refused

section Paired

variable {tables : Tables} (paired : tables.Paired) {stream before : List Token}
  {cursor cursor' : Cursor} {diagnostic : Diagnostic}
include paired

theorem pointsInto_of_answer {levels : Nat} {phrase : Phrase}
    (stands : cursor.StandsIn stream before) (ended : cursor.Ended)
    (refused : answer tables levels phrase cursor = .refused diagnostic cursor') :
    diagnostic.PointsInto stream := by
  induction levels generalizing phrase before cursor cursor' diagnostic with
  | zero => cases refused
  | succ levels ih =>
      exact Recipe.pointsInto_of_run (fun _ _ _ _ inner => leads_of_answer inner)
        (fun _ _ _ _ _ stands ended inner => ih stands ended inner)
        (phrase.fair paired before cursor.current) stands ended refused

theorem pointsInto_of_readStatements {levels : Nat} (stands : cursor.StandsIn stream before)
    (ended : cursor.Ended)
    (refused : (readStatements tables levels cursor).ending = .refused diagnostic) :
    diagnostic.PointsInto stream := by
  induction levels generalizing before cursor with
  | zero => cases refused
  | succ levels ih =>
      simp only [readStatements] at refused
      split at refused
      · cases first : answer tables levels .statement cursor with
        | exhausted =>
            rw [first] at refused
            cases refused
        | refused diagnostic' cursor' =>
            rw [first] at refused
            cases refused
            exact pointsInto_of_answer paired stands ended first
        | accepted statement cursor' =>
            rw [first] at refused
            have leads := leads_of_answer first
            obtain ⟨passed, stands'⟩ := stands.of_leads leads
            exact ih stands' (ended.of_leads leads) refused
      · cases refused

theorem pointsInto_of_parseWith {tokens : List Token}
    (refused : parseWith tables tokens = .refused diagnostic) :
    diagnostic.PointsInto (Cursor.closeStream tokens) :=
  pointsInto_of_readStatements paired (Cursor.standsIn_start tokens) (Cursor.start_ended tokens)
    (ending_of_parseWith refused)

end Paired

/-- A text that cannot be cut into tokens is refused on a line of it. -/
theorem line?_of_tokenize {source : String} {diagnostic : Diagnostic}
    (refused : tokenize source = .error diagnostic) :
    diagnostic.cause.stage = .scanning ∧ diagnostic.line?.isSome = true := by
  obtain ⟨found, last, -, some, stuck⟩ := tokenize_eq_error_iff.mp refused
  have place := (Scan.step_eq_error_iff.mp stuck).1
  have misspelt := Scan.misspelt_of_step some stuck
  refine ⟨misspelt.stage_eq, ?_⟩
  simp [Diagnostic.line?, place, Scan.Point.place]

/-- **What a program is refused for is true of the token it is refused at.** The tables are those
of the language or none, with any further entries for any kinds of token. Whatever the number of
levels, a refusal points at a token of the stream with its end of input, and its cause describes
that token and what stands before it. So a text is refused on a line of it exactly if it could
not be cut into tokens; `parseSource` is the case of the language without further entries. -/
theorem refusals_describe_their_tokens {base : Tables} {entries : List Entry}
    (start : base = .empty ∨ base = .language) (plain : ∀ entry ∈ entries, entry.Plain) :
    (∀ tokens levels diagnostic,
      (readStatements (base.extend entries) levels (.start tokens)).ending = .refused diagnostic →
        diagnostic.cause.stage = .parsing ∧
          diagnostic.PointsInto (Cursor.closeStream tokens)) ∧
    (∀ tokens diagnostic, parseWith (base.extend entries) tokens = .refused diagnostic →
      diagnostic.cause.stage = .parsing ∧ diagnostic.PointsInto (Cursor.closeStream tokens)) ∧
    ∀ source diagnostic, parseSourceWith (base.extend entries) source = .refused diagnostic →
      (diagnostic.line?.isSome = true ↔ diagnostic.cause.stage = .scanning) := by
  have paired : (base.extend entries).Paired := by
    rcases start with rfl | rfl
    · exact Tables.Paired.empty.extend plain
    · exact Tables.Paired.language.extend plain
  generalize base.extend entries = tables at paired ⊢
  refine ⟨?_, ?_, ?_⟩
  · intro tokens levels diagnostic refused
    have points := pointsInto_of_readStatements paired (Cursor.standsIn_start tokens)
      (Cursor.start_ended tokens) refused
    exact ⟨points.stage_eq, points⟩
  · intro tokens diagnostic refused
    have points := pointsInto_of_parseWith paired refused
    exact ⟨points.stage_eq, points⟩
  · intro source diagnostic refused
    unfold parseSourceWith at refused
    split at refused
    · rename_i scanned
      cases refused
      obtain ⟨stage, line⟩ := line?_of_tokenize scanned
      exact iff_of_true line stage
    · have points := pointsInto_of_parseWith paired refused
      have stage := points.stage_eq
      obtain ⟨before, current, behind, -, place, -⟩ := points
      simp [Diagnostic.line?, place, stage]

/-- A constant without a value; the end of input where tables have a creation begin with it; and
a text whose refusal has no line, since all of it can be cut into tokens. -/
theorem constant_and_creation_described :
    let tables := Tables.language.extend [.prefixForm .endOfInput .creation]
    let constant : List Token :=
      [⟨.constWord, "const"⟩, ⟨.identifier, "k"⟩, ⟨.colon, ":"⟩, ⟨.identifier, "t"⟩,
        ⟨.semicolon, ";"⟩]
    let sign : List Token := [⟨.dash, "-"⟩]
    let missing : Diagnostic := ⟨.missingValue "k", .token 4⟩
    let noCreation : Diagnostic := ⟨.unexpected .newWord .endOfInput, .token 1⟩
    (parseWith tables constant = .refused missing ∧
        missing.PointsInto (Cursor.closeStream constant)) ∧
      (parseWith tables sign = .refused noCreation ∧
        noCreation.PointsInto (Cursor.closeStream sign)) ∧
      parseSourceWith tables "-" = .refused noCreation ∧ noCreation.line? = none := by
  intro tables constant sign missing noCreation
  have plain : ∀ entry ∈ [Entry.prefixForm .endOfInput .creation], entry.Plain := by decide
  obtain ⟨-, points, lines⟩ := refusals_describe_their_tokens (.inr rfl) plain
  have missed : parseWith tables constant = .refused missing := by cbv
  have ended : parseWith tables sign = .refused noCreation := by cbv
  have cut : tokenize "-" = .ok (Cursor.closeStream [⟨.dash, "-"⟩]) := by decide +kernel
  have source : parseSourceWith tables "-" = .refused noCreation := by
    rw [parseSourceWith, cut]
    exact ended
  have noLine : noCreation.line? = none := by
    have unscanned : ¬ noCreation.cause.stage = .scanning := by decide
    simpa using mt (lines "-" noCreation source).mp unscanned
  exact ⟨⟨missed, (points _ _ missed).2⟩, ⟨ended, (points _ _ ended).2⟩, source, noLine⟩

end ScriptReader
