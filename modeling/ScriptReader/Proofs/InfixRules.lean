/- # ScriptReader.Proofs.InfixRules — no operator is without its rule

An entry for an infix form sets rule and power together, so however tables are built,
the kinds that bind on the right of an expression are those that have a rule there, and
likewise for types (`Tables.Coupled`). A reader asks for the rule of an operator only
where the operator binds, so it never misses one.

Tables may hold recipes of one's own. They are asked not to say of their own accord that
a rule is missing (`Requirement.ordinary`); whatever else they read, they read by the
phrases told of here.
-/
import ScriptReader.Proofs.Blame

namespace ScriptReader

set_option autoImplicit false

/-- The cause is another one than that the rule of an operator is missing. -/
def Cause.Ordinary (cause : Cause) : Prop := ∀ kind, cause ≠ .missingInfixRule kind

theorem Cause.Describes.ordinary {before : List Token} {current : Token} {cause : Cause}
    (describes : cause.Describes before current) : cause.Ordinary := by
  rintro kind rfl
  exact describes

/-! ## What recipes raise -/

namespace Recipe

variable {α β : Type}

/-- Whatever the recipe refuses of its own accord, from the current token on, is refused for an
ordinary cause; what the phrases inside it are refused for is left open. -/
def OrdinaryAt : Recipe α → Token → Prop
  | .yield _, _ => True
  | .refuse cause, _ => cause.Ordinary
  | .peek next, current => (next current).OrdinaryAt current
  | .readToken fault next, current =>
    (∀ cause, fault current = some cause → cause.Ordinary) ∧
      (fault current = none → ∀ later, (next current).OrdinaryAt later)
  | .readPhrase _ fault next, _ =>
    ∀ value, (∀ cause, fault value = some cause → cause.Ordinary) ∧
      (fault value = none → ∀ later, (next value).OrdinaryAt later)

theorem OrdinaryAt.bind {recipe : Recipe α} {next : α → Recipe β} {current : Token}
    (first : recipe.OrdinaryAt current) (second : ∀ value later, (next value).OrdinaryAt later) :
    (recipe >>= next).OrdinaryAt current := by
  rw [bind_eq]
  induction recipe generalizing current with
  | yield value => exact second value current
  | refuse cause => exact first
  | peek next' ih => exact ih current first
  | readToken fault next' ih =>
      obtain ⟨ordinary, behind⟩ := first
      exact ⟨ordinary, fun sound later => ih current (behind sound later)⟩
  | readPhrase phrase fault next' ih =>
      intro value
      obtain ⟨ordinary, behind⟩ := first value
      exact ⟨ordinary, fun sound later => ih value (behind sound later)⟩

theorem ordinaryAt_kind_bind {next : TokenKind → Recipe α} {current : Token}
    (behind : (next current.kind).OrdinaryAt current) : (kind >>= next).OrdinaryAt current :=
  behind

/-- What describes the tokens that were met is ordinary. -/
theorem FairAt.ordinaryAt {recipe : Recipe α} {before : List Token} {current : Token}
    (fair : recipe.FairAt before current) : recipe.OrdinaryAt current := by
  induction recipe generalizing before current with
  | yield value => trivial
  | refuse cause => exact Cause.Describes.ordinary fair
  | peek next ih => exact ih current fair
  | readToken fault next ih =>
      obtain ⟨describes, behind⟩ := fair
      exact ⟨fun cause wrong => (describes cause wrong).ordinary,
        fun sound later => ih current ((behind sound).1 later)⟩
  | readPhrase phrase fault next ih =>
      intro value
      obtain ⟨describes, behind⟩ := fair value
      exact ⟨fun cause wrong => (describes cause wrong).ordinary,
        fun sound later => ih value (behind sound [] later)⟩

theorem Fair.ordinaryAt {recipe : Recipe α} (fair : recipe.Fair) (current : Token) :
    recipe.OrdinaryAt current :=
  (fair [] current).ordinaryAt

/-- A run of the recipe is refused for an ordinary cause, if its phrases are. -/
theorem OrdinaryAt.of_run {answer : (phrase : Phrase) → Cursor → Outcome phrase.Value}
    (answers : ∀ phrase cursor diagnostic cursor',
      answer phrase cursor = .refused diagnostic cursor' → diagnostic.cause.Ordinary)
    {recipe : Recipe α} {cursor cursor' : Cursor} {diagnostic : Diagnostic}
    (ordinary : recipe.OrdinaryAt cursor.current)
    (ran : recipe.run answer cursor = .refused diagnostic cursor') : diagnostic.cause.Ordinary := by
  induction recipe generalizing cursor with
  | yield value => cases ran
  | refuse cause =>
      cases ran
      exact ordinary
  | peek next ih => exact ih _ ordinary ran
  | readToken fault next ih =>
      obtain ⟨own, behind⟩ := ordinary
      rw [run_readToken] at ran
      split at ran
      · rename_i cause wrong
        cases ran
        exact own cause wrong
      · rename_i sound
        exact ih _ (behind sound _) ran
  | readPhrase phrase fault next ih =>
      rw [run_readPhrase] at ran
      split at ran
      · rename_i value middle inner
        obtain ⟨own, behind⟩ := ordinary value
        split at ran
        · rename_i cause wrong
          cases ran
          exact own cause wrong
        · rename_i sound
          exact ih _ (behind sound _) ran
      · rename_i refused middle inner
        cases ran
        exact answers _ _ _ _ inner
      · cases ran

end Recipe

/-! ## Tables that were built -/

/-- The rule never says of its own accord that a rule is missing. -/
def TypeInfixRule.Ordinary (rule : TypeInfixRule) : Prop :=
  ∀ left power current, (rule left power).OrdinaryAt current

namespace TypeInfixRule

open Recipe

theorem listOf_ordinary : listOf.Ordinary := fun _ _ current =>
  (fair_take.bind fun _ => fair_return _).ordinaryAt current

theorem rightSide_ordinary : rightSide.Ordinary := fun _ power current =>
  (fair_take.bind fun _ => fair_ask (.type power)).ordinaryAt current

theorem listOfRightSide_ordinary : listOfRightSide.Ordinary := fun _ power current =>
  (fair_take.bind fun _ => (fair_ask (.type power.weaker)).bind fun _ => fair_return _).ordinaryAt
    current

end TypeInfixRule

/-- To say never of its own accord that a rule is missing. -/
def Requirement.ordinary : Requirement where
  statement recipe := ∀ current, recipe.OrdinaryAt current
  prefixForm recipe := ∀ current, recipe.OrdinaryAt current
  infixForm recipe := ∀ left power current, (recipe left power).OrdinaryAt current
  typePrefix recipe := ∀ current, recipe.OrdinaryAt current
  typeInfix rule := rule.Ordinary

/-- What is asked of an entry: nothing, unless it brings a recipe of its own. -/
def Entry.Ordinary (entry : Entry) : Prop :=
  match entry with
  | .statement _ _ | .prefixForm _ _ | .infixForm _ _ _ | .typePrefix _ _ => True
  | _ => entry.Meets .ordinary

theorem Entry.Ordinary.meets {entry : Entry} (ordinary : entry.Ordinary) :
    entry.Meets .ordinary := by
  cases entry with
  | statement kind rule | prefixForm kind rule | typePrefix kind rule =>
      exact fun current => rule.fair.ordinaryAt current
  | infixForm kind power rule => exact fun _ _ current => (rule.fair _ _).ordinaryAt current
  | typeInfix | ownStatement | ownPrefix | ownInfix | ownTypePrefix => exact ordinary

/-- Whatever has a rule in infix position binds there, and the other way round. -/
structure Tables.Coupled (tables : Tables) : Prop where
  infixRule : ∀ kind, tables.infixRule kind = none ↔ tables.infixPower kind = none
  typeInfixRule : ∀ kind, tables.typeInfixRule kind = none ↔ tables.typeInfixPower kind = none

/-- Every recipe that the tables hold is ordinary. -/
abbrev Tables.Ordinary (tables : Tables) : Prop := tables.Meet .ordinary

namespace Tables

variable {tables : Tables} {entry : Entry} {entries : List Entry}

theorem assign_eq_none_iff {α β : Type} {first : TokenKind → Option α}
    {second : TokenKind → Option β} {value : α} {value' : β} (kind : TokenKind)
    (same : ∀ other, first other = none ↔ second other = none) (other : TokenKind) :
    assign first kind value other = none ↔ assign second kind value' other = none := by
  unfold assign
  split
  · simp
  · exact same other

theorem Coupled.empty : Tables.empty.Coupled where
  infixRule _ := iff_of_true rfl rfl
  typeInfixRule _ := iff_of_true rfl rfl

theorem Coupled.insert (coupled : tables.Coupled) (entry : Entry) :
    (tables.insert entry).Coupled := by
  cases entry with
  | statement | prefixForm | typePrefix | ownStatement | ownPrefix | ownTypePrefix =>
      exact { coupled with }
  | infixForm kind power recipe | ownInfix kind power recipe =>
      exact { coupled with infixRule := assign_eq_none_iff kind coupled.infixRule }
  | typeInfix kind power rule =>
      exact { coupled with typeInfixRule := assign_eq_none_iff kind coupled.typeInfixRule }

theorem Coupled.extend (coupled : tables.Coupled) (entries : List Entry) :
    (tables.extend entries).Coupled := by
  refine List.foldlRecOn entries Tables.insert coupled ?_
  intro tables coupled entry _
  exact coupled.insert entry

theorem Coupled.language : Tables.language.Coupled := Coupled.empty.extend languageEntries

theorem Ordinary.extend (ordinary : tables.Ordinary) (own : ∀ entry ∈ entries, entry.Ordinary) :
    (tables.extend entries).Ordinary :=
  Meet.extend ordinary fun entry member => (own entry member).meets

theorem Ordinary.language : Tables.language.Ordinary :=
  Ordinary.extend Meet.empty (by simp [languageEntries, Entry.Ordinary])

end Tables

/-! ## Phrases -/

section Phrases

variable {tables : Tables} (coupled : tables.Coupled) (ordinary : tables.Ordinary)

include coupled ordinary

theorem Phrase.ordinaryAt (phrase : Phrase) (current : Token) :
    (phrase.recipe tables).OrdinaryAt current := by
  cases phrase with
  | expression least =>
      refine Recipe.ordinaryAt_kind_bind ?_
      split
      · refine Recipe.Fair.ordinaryAt ?_ current
        exact Recipe.fair_refuseKind fun _ _ => rfl
      · rename_i recipe found
        exact (ordinary.prefixRule found current).bind fun left later =>
          (Recipe.fair_ask (.expressionTail least left)).ordinaryAt later
  | expressionTail least left =>
      refine Recipe.ordinaryAt_kind_bind ?_
      split
      · rename_i tighter
        split
        · rename_i none
          exact absurd ((coupled.infixRule _).mp none) (Tables.infixPower_ne_none tighter)
        · rename_i recipe found
          exact (ordinary.infixRule found _ _ current).bind fun whole later =>
            (Recipe.fair_ask (.expressionTail least whole)).ordinaryAt later
      · trivial
  | type least =>
      refine Recipe.ordinaryAt_kind_bind ?_
      split
      · refine Recipe.Fair.ordinaryAt ?_ current
        exact Recipe.fair_refuseKind fun _ _ => rfl
      · rename_i recipe found
        exact (ordinary.typePrefixRule found current).bind fun left later =>
          (Recipe.fair_ask (.typeTail least left)).ordinaryAt later
  | typeTail least left =>
      refine Recipe.ordinaryAt_kind_bind ?_
      split
      · rename_i tighter
        split
        · rename_i none
          exact absurd tighter
            (Tables.not_lt_typePower_of_none ((coupled.typeInfixRule _).mp none))
        · rename_i rule found
          exact (ordinary.typeInfixRule found _ _ current).bind fun whole later =>
            (Recipe.fair_ask (.typeTail least whole)).ordinaryAt later
      · trivial
  | statement =>
      refine Recipe.ordinaryAt_kind_bind ?_
      split
      · exact (StatementRule.fair .expression).ordinaryAt current
      · rename_i recipe found
        exact ordinary.statementRule found current
  -- The other phrases do not look at tables, so they are those of the language.
  | statements => exact (Phrase.fair Tables.Paired.language .statements).ordinaryAt current
  | conditional => exact (Phrase.fair Tables.Paired.language .conditional).ordinaryAt current
  | arguments close =>
      exact (Phrase.fair Tables.Paired.language (.arguments close)).ordinaryAt current
  | parameters => exact (Phrase.fair Tables.Paired.language .parameters).ordinaryAt current

theorem ordinary_of_answer {levels : Nat} {phrase : Phrase} {cursor cursor' : Cursor}
    {diagnostic : Diagnostic}
    (refused : answer tables levels phrase cursor = .refused diagnostic cursor') :
    diagnostic.cause.Ordinary := by
  induction levels generalizing phrase cursor cursor' diagnostic with
  | zero => cases refused
  | succ levels ih =>
      exact (phrase.ordinaryAt coupled ordinary _).of_run (fun _ _ _ _ inner => ih inner) refused

theorem ordinary_of_readStatements {levels : Nat} {cursor : Cursor} {diagnostic : Diagnostic}
    (refused : (readStatements tables levels cursor).ending = .refused diagnostic) :
    diagnostic.cause.Ordinary := by
  induction levels generalizing cursor with
  | zero => cases refused
  | succ levels ih =>
      unfold readStatements at refused
      split at refused
      · split at refused
        · exact ih refused
        · rename_i first
          cases refused
          exact ordinary_of_answer coupled ordinary first
        · cases refused
      · cases refused

end Phrases

/-- **No operator is without its rule.** The tables are those of the language or none, with any
further entries in any order. In both pairs of tables, the kinds with a rule are those with a
power. Let the recipes that entries bring of their own be ordinary. Wherever a cursor stands, no
phrase (an expression or a type at any power, a statement, a tail), no block and no program is
refused because a rule is missing, whatever the number of levels. -/
theorem infix_rules_never_missing {tables : Tables} {entries : List Entry}
    (built : tables = Tables.empty.extend entries ∨ tables = Tables.language.extend entries) :
    (∀ kind, (tables.infixRule kind = none ↔ tables.infixPower kind = none) ∧
      (tables.typeInfixRule kind = none ↔ tables.typeInfixPower kind = none)) ∧
    ((∀ entry ∈ entries, entry.Ordinary) →
      (∀ levels phrase cursor diagnostic cursor',
        answer tables levels phrase cursor = .refused diagnostic cursor' →
          diagnostic.cause.Ordinary) ∧
      (∀ levels cursor diagnostic cursor',
        Recipe.block.run (answer tables levels) cursor = .refused diagnostic cursor' →
          diagnostic.cause.Ordinary) ∧
      (∀ levels cursor diagnostic,
        (readStatements tables levels cursor).ending = .refused diagnostic →
          diagnostic.cause.Ordinary) ∧
      ∀ tokens diagnostic, parseWith tables tokens = .refused diagnostic →
        diagnostic.cause.Ordinary) := by
  have coupled : tables.Coupled := by
    rcases built with rfl | rfl
    · exact Tables.Coupled.empty.extend entries
    · exact Tables.Coupled.language.extend entries
  refine ⟨fun kind => ⟨coupled.infixRule kind, coupled.typeInfixRule kind⟩, ?_⟩
  intro own
  have ordinary : tables.Ordinary := by
    rcases built with rfl | rfl
    · exact Tables.Ordinary.extend Tables.Meet.empty own
    · exact Tables.Ordinary.language.extend own
  refine ⟨?_, ?_, ?_, ?_⟩
  · intro levels phrase cursor diagnostic cursor' refused
    exact ordinary_of_answer coupled ordinary refused
  · intro levels cursor diagnostic cursor' refused
    exact (Recipe.fair_block.ordinaryAt _).of_run
      (fun _ _ _ _ inner => ordinary_of_answer coupled ordinary inner) refused
  · intro levels cursor diagnostic refused
    exact ordinary_of_readStatements coupled ordinary refused
  · intro tokens diagnostic refused
    exact ordinary_of_readStatements coupled ordinary (ending_of_parseWith refused)

/-- A statement of one's own, a lone semicolon; and an operator on types that is inserted twice,
the second time to read a right side that is not there. -/
theorem type_operator_not_missing :
    let nothing : Recipe Statement := do
      let _ ← Recipe.take
      return .block []
    let entries : List Entry :=
      [.ownStatement .semicolon nothing, .typeInfix .question .call .listOf,
        .typeInfix .question .unary .rightSide, .typeInfix .not .member .listOfRightSide]
    let tables := Tables.language.extend entries
    let tokens : List Token :=
      [⟨.semicolon, ";"⟩, ⟨.letWord, "let"⟩, ⟨.identifier, "x"⟩, ⟨.colon, ":"⟩,
        ⟨.identifier, "t"⟩, ⟨.question, "?"⟩, ⟨.semicolon, ";"⟩]
    let missing : Diagnostic := ⟨.expectedType .semicolon, .token 6⟩
    (∀ kind, (tables.infixRule kind = none ↔ tables.infixPower kind = none) ∧
      (tables.typeInfixRule kind = none ↔ tables.typeInfixPower kind = none)) ∧
    parseWith tables tokens = .refused missing ∧ missing.cause.Ordinary := by
  intro nothing entries tables tokens missing
  obtain ⟨keys, unmissed⟩ := @infix_rules_never_missing tables entries (.inr rfl)
  have own : ∀ entry ∈ entries, entry.Ordinary := by
    simp only [entries, List.forall_mem_cons]
    exact ⟨(Recipe.fair_take.bind fun _ => Recipe.fair_return _).ordinaryAt,
      TypeInfixRule.listOf_ordinary, TypeInfixRule.rightSide_ordinary,
      TypeInfixRule.listOfRightSide_ordinary, by simp⟩
  have refused : parseWith tables tokens = .refused missing := by cbv
  obtain ⟨-, -, -, program⟩ := unmissed own
  exact ⟨keys, refused, program tokens missing refused⟩

end ScriptReader
