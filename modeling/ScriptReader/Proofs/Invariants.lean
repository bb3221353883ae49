/- # ScriptReader.Proofs.Invariants — what holds of every node of a tree

A tree that is read under any tables keeps to them (`parseWith_lawful`): operators are of
kinds whose rule makes such a node, declarations have what their kind needs, and what
stands behind `else` is a block or a condition. Nothing is assumed of the tables; a rule
may be carried out on a token that it was not written for.

At the end of input a cursor may stay, so what is read is not always a part of the
stream. What a recipe yields is therefore told from the recipe itself and from what its
phrases yield (`Recipe.Ensures`), along its runs.
-/
import ScriptReader.Program
import ScriptReader.Proofs.Requirements
import ScriptReader.Proofs.WellFormed

namespace ScriptReader

set_option autoImplicit false

/-! ## Nodes -/

/-- A place in a tree. -/
inductive Node where
  | expression (expr : Expr)
  | statement (statement : Statement)

section Nodes

variable (property : Node → Prop)

mutual

/-- The property holds of the expression and of every node inside it. -/
def Expr.All : Expr → Prop
  | .number value => property (.expression (.number value))
  | .text value => property (.expression (.text value))
  | .symbol name => property (.expression (.symbol name))
  | .binary left operator right =>
    property (.expression (.binary left operator right)) ∧ left.All ∧ right.All
  | .assignment target operator value =>
    property (.expression (.assignment target operator value)) ∧ target.All ∧ value.All
  | .range lower upper => property (.expression (.range lower upper)) ∧ lower.All ∧ upper.All
  | .operation operator operand =>
    property (.expression (.operation operator operand)) ∧ operand.All
  | .member object name => property (.expression (.member object name)) ∧ object.All
  | .element object index => property (.expression (.element object index)) ∧ object.All ∧ index.All
  | .call callee arguments =>
    property (.expression (.call callee arguments)) ∧ callee.All ∧ allExprs arguments
  | .creation callee arguments =>
    property (.expression (.creation callee arguments)) ∧ callee.All ∧ allExprs arguments
  | .array elements => property (.expression (.array elements)) ∧ allExprs elements
  | .function signature body =>
    property (.expression (.function signature body)) ∧ allStatements body

def allExprs : List Expr → Prop
  | [] => True
  | expr :: rest => expr.All ∧ allExprs rest

def allOptionalExpr : Option Expr → Prop
  | none => True
  | some expr => expr.All

/-- The property holds of the statement and of every node inside it. -/
def Statement.All : Statement → Prop
  | .block body => property (.statement (.block body)) ∧ allStatements body
  | .declaration name constant value type =>
    property (.statement (.declaration name constant value type)) ∧ allOptionalExpr value
  | .expression value => property (.statement (.expression value)) ∧ value.All
  | .function name signature body =>
    property (.statement (.function name signature body)) ∧ allStatements body
  | .conditional condition consequent alternative =>
    property (.statement (.conditional condition consequent alternative)) ∧ condition.All ∧
      allStatements consequent ∧ allAlternative alternative
  | .importing name source => property (.statement (.importing name source))
  | .foreach item index iterable body =>
    property (.statement (.foreach item index iterable body)) ∧ iterable.All ∧ allStatements body
  | .classDeclaration name body =>
    property (.statement (.classDeclaration name body)) ∧ allStatements body
  | .returning value => property (.statement (.returning value)) ∧ allOptionalExpr value
  | .loop condition body =>
    property (.statement (.loop condition body)) ∧ condition.All ∧ allStatements body

def allStatements : List Statement → Prop
  | [] => True
  | statement :: rest => statement.All ∧ allStatements rest

def allAlternative : Option Statement → Prop
  | none => True
  | some statement => statement.All

end

end Nodes

/-- What a node owes to the tables it was read under. -/
def Node.Lawful (tables : Tables) : Node → Prop
  | .expression (.binary _ operator _) => tables.infixRule operator.kind = some Recipe.binary
  | .expression (.assignment _ operator _) =>
    tables.infixRule operator.kind = some Recipe.assignment
  | .expression (.operation operator _) => tables.prefixRule operator.kind = some Recipe.operation
  | .statement (.declaration _ constant value type) =>
    (type ≠ none ∨ value ≠ none) ∧ (constant → value ≠ none)
  | .statement (.conditional _ _ alternative) =>
    ∀ statement, alternative = some statement → statement.isAlternative
  | .expression _ | .statement _ => True

/-- What is said of the value of each phrase. A tail keeps to the tables where its left side
does. -/
def Phrase.Lawful (tables : Tables) : (phrase : Phrase) → phrase.Value → Prop
  | .expression _, value => value.All (Node.Lawful tables)
  | .expressionTail _ left, value =>
    left.All (Node.Lawful tables) → value.All (Node.Lawful tables)
  | .statement, (read : Statement) => read.All (Node.Lawful tables)
  | .statements, body => allStatements (Node.Lawful tables) body
  | .conditional, (read : Statement) => read.isAlternative ∧ read.All (Node.Lawful tables)
  | .arguments _, contents => allExprs (Node.Lawful tables) contents
  | .type _, _ | .typeTail _ _, _ | .parameters, _ => True

/-! ## What recipes ensure -/

namespace Recipe

variable {α β : Type} {known : (phrase : Phrase) → phrase.Value → Prop}

/-- Whatever the recipe yields from the current token on has the property, if phrases yield
what is known of them. No token but the current one is known. -/
def Ensures (known : (phrase : Phrase) → phrase.Value → Prop) (property : α → Prop) :
    Recipe α → Token → Prop
  | .yield value, _ => property value
  | .refuse _, _ => True
  | .peek next, current => (next current).Ensures known property current
  | .readToken fault next, current =>
    fault current = none → ∀ later, (next current).Ensures known property later
  | .readPhrase phrase fault next, _ =>
    ∀ value, known phrase value → fault value = none →
      ∀ later, (next value).Ensures known property later

section Steps

variable {property : β → Prop} {between : α → Prop} {current : Token}

theorem Ensures.bind {recipe : Recipe α} {next : α → Recipe β}
    (first : recipe.Ensures known between current)
    (second : ∀ value later, between value → (next value).Ensures known property later) :
    (recipe >>= next).Ensures known property current := by
  rw [bind_eq]
  induction recipe generalizing current with
  | yield value => exact second value current first
  | refuse cause => trivial
  | peek next' ih => exact ih current first
  | readToken fault next' ih => exact fun sound later => ih current (first sound later)
  | readPhrase phrase fault next' ih =>
      exact fun value holds sound later => ih value (first value holds sound later)

theorem ensures_true (recipe : Recipe α) (current : Token) :
    recipe.Ensures known (fun _ => True) current := by
  induction recipe generalizing current with
  | yield value => trivial
  | refuse cause => trivial
  | peek next ih => exact ih current current
  | readToken fault next ih => exact fun _ later => ih current later
  | readPhrase phrase fault next ih => exact fun value _ _ later => ih value later

theorem ensures_take : take.Ensures known (· = current) current := fun _ _ => rfl

theorem ensures_kind_bind {next : TokenKind → Recipe β}
    (behind : (next current.kind).Ensures known property current) :
    (kind >>= next).Ensures known property current :=
  behind

theorem ensures_ask (phrase : Phrase) : (ask phrase).Ensures known (known phrase) current :=
  fun _ holds _ _ => holds

/-- What was read before goes on to something else, whatever it was. -/
theorem ensures_behind {recipe : Recipe α} {next : α → Recipe β}
    (second : ∀ value later, (next value).Ensures known property later) :
    (recipe >>= next).Ensures known property current :=
  (ensures_true recipe current).bind fun value later _ => second value later

theorem ensures_ifKind {wanted : TokenKind} {there elsewhere : Recipe β}
    (first : current.kind = wanted → there.Ensures known property current)
    (second : elsewhere.Ensures known property current) :
    (ifKind wanted there elsewhere).Ensures known property current := by
  change Ensures known property (if current.kind = wanted then there else elsewhere) current
  split
  · rename_i same
    exact first same
  · exact second

theorem ensures_optional {mark : TokenKind} {content : Recipe α}
    (inside : ∀ later, content.Ensures known between later) :
    (optional mark content).Ensures known
      (fun result => ∀ value, result = some value → between value) current := by
  refine ensures_ifKind (fun _ => ensures_behind fun _ later => (inside later).bind ?_) ?_
  · rintro value _ holds _ ⟨⟩
    exact holds
  · intro value given
    cases given

theorem ensures_made {make : Except Cause β}
    (holds : ∀ value, make = .ok value → property value) :
    (made make).Ensures known property current := by
  cases make with
  | ok value => exact holds value rfl
  | error cause => trivial

theorem ensures_block : block.Ensures known (known .statements) current :=
  ensures_behind fun _ _ => (ensures_ask .statements).bind fun _ _ holds =>
    ensures_behind fun _ _ => holds

theorem ensures_enclosed {opening closing : TokenKind} :
    (enclosed opening closing).Ensures known (known (.arguments closing)) current :=
  ensures_behind fun _ _ => (ensures_ask (.arguments closing)).bind fun _ _ holds =>
    ensures_behind fun _ _ => holds

theorem ensures_functionRest :
    functionRest.Ensures known (fun rest => known .statements rest.2) current :=
  ensures_behind fun _ _ => ensures_behind fun _ _ => ensures_behind fun _ _ =>
    ensures_behind fun _ _ => ensures_block.bind fun _ _ holds => holds

/-- Without a value, the variable is no constant and has a type. -/
theorem ensures_initialValue {constant : Bool} {name : String} {type : Option TypeExpr} :
    (initialValue constant name type).Ensures known
      (fun value => (value = none → constant = false ∧ type ≠ none) ∧
        ∀ expr, value = some expr → known (.expression .assignment) expr) current := by
  change Ensures known _ (if current.kind = .semicolon then _ else _) current
  split
  · split
    · trivial
    · rename_i variable'
      split
      · trivial
      · rename_i typed
        refine ⟨fun _ => ⟨by simpa using variable', typed⟩, ?_⟩
        intro expr given
        cases given
  · refine ensures_behind fun _ _ => (ensures_ask _).bind fun value _ holds => ⟨?_, ?_⟩
    · intro missing
      cases missing
    · rintro _ ⟨⟩
      exact holds

end Steps

/-- What a recipe ensures holds of what a run of it yields. -/
theorem Ensures.of_run {answer : (phrase : Phrase) → Cursor → Outcome phrase.Value}
    (answers : ∀ phrase cursor value cursor', answer phrase cursor = .accepted value cursor' →
      known phrase value)
    {property : α → Prop} {recipe : Recipe α} {cursor cursor' : Cursor} {result : α}
    (ensures : recipe.Ensures known property cursor.current)
    (ran : recipe.run answer cursor = .accepted result cursor') : property result := by
  induction recipe generalizing cursor with
  | yield value =>
      cases ran
      exact ensures
  | refuse cause => cases ran
  | peek next ih => exact ih _ ensures ran
  | readToken fault next ih =>
      rw [run_readToken] at ran
      split at ran
      · cases ran
      · rename_i sound
        exact ih _ (ensures sound _) ran
  | readPhrase phrase fault next ih =>
      rw [run_readPhrase] at ran
      split at ran
      · rename_i value middle inner
        split at ran
        · cases ran
        · rename_i sound
          exact ih _ (ensures value (answers _ _ _ _ inner) sound _) ran
      · cases ran
      · cases ran

end Recipe

/-! ## Every rule is lawful -/

section Rules

open Recipe

variable {tables : Tables} {current : Token}

theorem all_of_ofToken {token : Token} {value : Expr} (made : ofToken token = .ok value) :
    value.All (Node.Lawful tables) := by
  unfold ofToken at made
  split at made
  · split at made
    · cases made
      trivial
    · cases made
  · cases made
    trivial
  · cases made
    trivial
  · cases made

theorem PrefixRule.ensures_lawful {rule : PrefixRule}
    (found : tables.prefixRule current.kind = some rule.recipe) :
    rule.recipe.Ensures (Phrase.Lawful tables) (Expr.All (Node.Lawful tables)) current := by
  cases rule with
  | primary => exact fun _ _ => ensures_made fun value made => all_of_ofToken made
  | operation =>
      refine ensures_take.bind ?_
      rintro operator later rfl
      exact (ensures_ask _).bind fun operand _ holds => ⟨found, holds⟩
  | grouping =>
      exact ensures_behind fun _ _ => (ensures_ask _).bind fun _ _ holds =>
        ensures_behind fun _ _ => holds
  | array => exact ensures_enclosed.bind fun elements _ holds => ⟨trivial, holds⟩
  | function =>
      exact ensures_behind fun _ _ => ensures_functionRest.bind fun rest _ holds => ⟨trivial, holds⟩
  | creation =>
      refine ensures_behind fun _ _ value holds _ _ => ensures_made ?_
      intro creation made
      unfold ofCall at made
      split at made
      · cases made
        exact ⟨trivial, holds.2⟩
      · cases made

theorem InfixRule.ensures_lawful {rule : InfixRule} {left : Expr} {power : Power}
    (found : tables.infixRule current.kind = some rule.recipe) :
    (rule.recipe left power).Ensures (Phrase.Lawful tables)
      (fun value => left.All (Node.Lawful tables) → value.All (Node.Lawful tables)) current := by
  cases rule with
  | binary | assignment =>
      refine ensures_take.bind ?_
      rintro operator later rfl
      exact (ensures_ask _).bind fun right _ holds lawful => ⟨found, lawful, holds⟩
  | range =>
      exact ensures_behind fun _ _ => (ensures_ask _).bind fun upper _ holds lawful =>
        ⟨trivial, lawful, holds⟩
  | call => exact ensures_enclosed.bind fun arguments _ holds lawful => ⟨trivial, lawful, holds⟩
  | member =>
      refine ensures_behind fun operator later => ?_
      split
      · exact (ensures_ask _).bind fun index _ holds => ensures_behind fun _ _ lawful =>
          ⟨trivial, lawful, holds⟩
      · exact ensures_behind fun name _ lawful => ⟨trivial, lawful⟩

theorem ensures_lawful_declaration :
    declaration.Ensures (Phrase.Lawful tables) (Statement.All (Node.Lawful tables)) current := by
  refine ensures_behind fun opening _ => ensures_behind fun name _ => ensures_behind fun type _ =>
    ensures_initialValue.bind fun value _ given => ensures_behind fun _ _ => ?_
  cases value with
  | none =>
      obtain ⟨variable', typed⟩ := given.1 rfl
      refine ⟨⟨.inl typed, ?_⟩, trivial⟩
      intro constant
      rw [variable'] at constant
      cases constant
  | some value => exact ⟨⟨.inr (by simp), fun _ => by simp⟩, given.2 value rfl⟩

theorem StatementRule.ensures_lawful (rule : StatementRule) :
    rule.recipe.Ensures (Phrase.Lawful tables) (Statement.All (Node.Lawful tables)) current := by
  cases rule with
  | anyStatement => exact ensures_ask .statement
  | expression =>
      exact (ensures_ask _).bind fun value _ holds => ensures_behind fun _ _ => ⟨trivial, holds⟩
  | block => exact ensures_block.bind fun body _ holds => ⟨trivial, holds⟩
  | declaration => exact ensures_lawful_declaration
  | function =>
      exact ensures_behind fun _ _ => ensures_behind fun name _ =>
        ensures_functionRest.bind fun rest _ holds => ⟨trivial, holds⟩
  | conditional => exact fun _ holds _ _ => holds.2
  | importing =>
      exact ensures_behind fun _ _ => ensures_behind fun name _ => ensures_behind fun source _ =>
        ensures_behind fun _ _ => trivial
  | foreach =>
      exact ensures_behind fun _ _ => ensures_behind fun item _ => ensures_behind fun index _ =>
        ensures_behind fun _ _ => (ensures_ask _).bind fun iterable _ collection =>
          ensures_block.bind fun body _ holds => ⟨trivial, collection, holds⟩
  | classDeclaration =>
      exact ensures_behind fun _ _ => ensures_behind fun name _ =>
        ensures_block.bind fun body _ holds => ⟨trivial, holds⟩
  | returning =>
      have content : ∀ later, (ifKind .semicolon (.yield none) (do
          let value ← Recipe.expression .lowest
          return some value)).Ensures (Phrase.Lawful tables) (allOptionalExpr (Node.Lawful tables))
          later := by
        intro later
        exact ensures_ifKind (fun _ => trivial) ((ensures_ask _).bind fun value _ holds => holds)
      exact ensures_behind fun _ later => (content later).bind fun value _ holds =>
        ensures_behind fun _ _ => ⟨trivial, holds⟩
  | loop =>
      exact ensures_behind fun _ _ => (ensures_ask _).bind fun condition _ tested =>
        ensures_block.bind fun body _ holds => ⟨trivial, tested, holds⟩

theorem ensures_lawful_conditional :
    conditionalPhrase.Ensures (Phrase.Lawful tables) (Phrase.Lawful tables .conditional)
      current := by
  have branch : ∀ later, (ifKind .ifWord Recipe.conditional blockStatement).Ensures
      (Phrase.Lawful tables) (Phrase.Lawful tables .conditional) later := by
    intro later
    refine ensures_ifKind (fun _ => ensures_ask .conditional) ?_
    exact ensures_block.bind fun body _ holds => ⟨rfl, trivial, holds⟩
  refine ensures_behind fun _ _ => (ensures_ask _).bind fun condition _ tested =>
    ensures_block.bind fun consequent _ holds =>
      (ensures_optional branch).bind fun other _ second => ?_
  refine ⟨rfl, fun statement given => (second statement given).1, tested, holds, ?_⟩
  cases other with
  | none => trivial
  | some statement => exact (second statement rfl).2

theorem Phrase.ensures_lawful (native : tables.Native) (phrase : Phrase) :
    (phrase.recipe tables).Ensures (Phrase.Lawful tables) (Phrase.Lawful tables phrase)
      current := by
  cases phrase with
  | expression least =>
      refine ensures_kind_bind ?_
      split
      · trivial
      · rename_i recipe found
        obtain ⟨rule, rfl⟩ := native.prefixRule found
        exact (PrefixRule.ensures_lawful found).bind fun left _ before =>
          (ensures_ask (.expressionTail least left)).bind fun _ _ behind => behind before
  | expressionTail least left =>
      refine ensures_kind_bind ?_
      split
      · split
        · trivial
        · rename_i recipe found
          obtain ⟨rule, rfl⟩ := native.infixRule found
          exact (InfixRule.ensures_lawful found).bind fun whole _ grown =>
            (ensures_ask (.expressionTail least whole)).bind fun _ _ behind before =>
              behind (grown before)
      · exact fun before => before
  | type least | typeTail least left | parameters => exact ensures_true _ current
  | statement =>
      refine ensures_kind_bind ?_
      split
      · exact StatementRule.ensures_lawful .expression
      · rename_i recipe found
        obtain ⟨rule, rfl⟩ := native.statementRule found
        exact rule.ensures_lawful
  | statements =>
      refine ensures_kind_bind ?_
      split
      · trivial
      · exact (ensures_ask .statement).bind fun first _ holds =>
          (ensures_ask .statements).bind fun rest _ others => ⟨holds, others⟩
  | conditional => exact ensures_lawful_conditional
  | arguments close =>
      refine ensures_kind_bind ?_
      split
      · trivial
      · exact (ensures_ask (.expression .assignment)).bind fun first _ holds =>
          ensures_behind fun _ _ => (ensures_ask (.arguments close)).bind fun rest _ others =>
            ⟨holds, others⟩

end Rules

/-! ## Every tree is lawful -/

section Programs

variable {tables : Tables}

theorem lawful_of_answer (native : tables.Native) {levels : Nat} {phrase : Phrase} {cursor cursor' : Cursor}
    {value : phrase.Value}
    (answered : answer tables levels phrase cursor = .accepted value cursor') :
    phrase.Lawful tables value := by
  induction levels generalizing phrase cursor cursor' with
  | zero => cases answered
  | succ levels ih => exact (phrase.ensures_lawful native).of_run (fun _ _ _ _ inner => ih inner) answered

theorem allStatements_of_readStatements (native : tables.Native) (levels : Nat) (cursor : Cursor) :
    allStatements (Node.Lawful tables) (readStatements tables levels cursor).statements := by
  induction levels generalizing cursor with
  | zero => trivial
  | succ levels ih =>
      unfold readStatements
      split
      · split
        · rename_i statement cursor' answered
          exact ⟨lawful_of_answer native answered, ih cursor'⟩
        · trivial
        · trivial
      · trivial

/-- **Every node of a tree keeps to the tables that it was read under.** The tables hold rules of
the language for any kinds of token: no entry is asked to fit the tokens that call for it.
Whatever the number of levels, this holds of the statements that are read, also in front of a
refusal, and so of every program that is accepted. -/
theorem parseWith_lawful (native : tables.Native) (tokens : List Token) :
    (∀ levels, allStatements (Node.Lawful tables)
      (readStatements tables levels (.start tokens)).statements) ∧
    ∀ body, parseWith tables tokens = .accepted body →
      allStatements (Node.Lawful tables) body := by
  refine ⟨fun levels => allStatements_of_readStatements native levels (.start tokens), ?_⟩
  intro body accepted
  unfold parseWith Progress.verdict at accepted
  split at accepted
  · cases accepted
    exact allStatements_of_readStatements native _ _
  · cases accepted
  · cases accepted

/-- Two signs that the language has no rule for, and a condition behind `else`. -/
theorem inserted_operators_lawful :
    let tables := Tables.language.extend
      [.prefixForm .plusPlus .operation, .infixForm .question .additive .binary]
    let tokens : List Token :=
      [⟨.ifWord, "if"⟩, ⟨.identifier, "a"⟩, ⟨.openCurly, "\x7b"⟩, ⟨.closeCurly, "\x7d"⟩,
        ⟨.elseWord, "else"⟩, ⟨.ifWord, "if"⟩, ⟨.plusPlus, "++"⟩, ⟨.identifier, "b"⟩,
        ⟨.question, "?"⟩, ⟨.identifier, "c"⟩, ⟨.openCurly, "\x7b"⟩, ⟨.closeCurly, "\x7d"⟩]
    let tested : Expr :=
      .binary (.operation ⟨.plusPlus, "++"⟩ (.symbol "b")) ⟨.question, "?"⟩ (.symbol "c")
    let body : List Statement :=
      [.conditional (.symbol "a") [] (some (.conditional tested [] none))]
    parseWith tables tokens = .accepted body ∧ allStatements (Node.Lawful tables) body := by
  intro tables tokens tested body
  have accepted : parseWith tables tokens = .accepted body := by cbv
  have native : tables.Native := Tables.Native.language.extend (by decide)
  obtain ⟨-, lawful⟩ := parseWith_lawful native tokens
  exact ⟨accepted, lawful body accepted⟩

end Programs

end ScriptReader
