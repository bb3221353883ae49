/- # ScriptReader.Proofs.Supplying — what is owed can be supplied

Wherever reading may stop inside a phrase, tokens can be supplied that satisfy the
rest of it: a name where an expression or a type is due, a bracket or a semicolon
where something is to be closed, nothing where more is only possible.

`Fills` says that recipes can be satisfied with tokens that suit what was read just
before. `Recipe.Completable` says of a recipe that this can be done wherever it may
stop. Every recipe of the grammar is completable (`Phrase.completable`), apart from
that of creations, which may turn out to be no calls when it is too late.
-/
import ScriptReader.Proofs.Bordering

namespace ScriptReader

set_option autoImplicit false

/-! ## Supplying what is owed -/

/-- A token of the kind, in its own spelling if there is one. -/
abbrev Token.supplied (kind : TokenKind) : Token := ⟨kind, kind.spelling?.getD "x"⟩

/-- In front of anything that `behind` allows, tokens can be supplied that all of the recipes
read, and `front` allows what stands there then. The same tokens serve all of them, since a
recipe goes on with a value that is yet to be read. -/
def Fills {ι β : Type} (front behind : List Token → Prop) (recipes : ι → Recipe β) : Prop :=
  ∀ left, behind left → ∃ added, front (added ++ left) ∧
    ∀ i, ∃ value, (recipes i).Reads (Phrase.Reads .language) (added ++ left) value left

/-- Whatever stands ahead. -/
def Anything : List Token → Prop := fun _ => True

/-- A token of another kind stands ahead, as `EndsStatement` has it for `else`. -/
def OtherThan (mark : TokenKind) (ahead : List Token) : Prop :=
  ∃ token rest, ahead = token :: rest ∧ token.kind ≠ mark

theorem OtherThan.ne_nil {mark : TokenKind} (ahead : List Token) (other : OtherThan mark ahead) :
    ahead ≠ [] := by
  obtain ⟨token, rest, rfl, -⟩ := other
  simp

theorem otherThan_supplied {mark kind : TokenKind} (differs : kind ≠ mark) (left : List Token) :
    OtherThan mark (.supplied kind :: left) :=
  ⟨_, left, rfl, differs⟩

theorem Fills.bind {ι α β : Type} {front middle behind : List Token → Prop}
    {recipes : ι → Recipe α} {next : ι → α → Recipe β} (first : Fills front middle recipes)
    (second : Fills middle behind fun pair : ι × α => next pair.1 pair.2) :
    Fills front behind fun i => recipes i >>= next i := by
  intro left allowed
  obtain ⟨later, between, read'⟩ := second left allowed
  obtain ⟨sooner, before, read⟩ := first (later ++ left) between
  refine ⟨sooner ++ later, by rwa [List.append_assoc], ?_⟩
  intro i
  obtain ⟨value, read⟩ := read i
  obtain ⟨result, read'⟩ := read' (i, value)
  rw [List.append_assoc]
  exact ⟨result, Recipe.reads_bind.mpr ⟨value, later ++ left, read, read'⟩⟩

theorem Fills.comp {ι κ β : Type} {front behind : List Token → Prop} {recipes : ι → Recipe β}
    (fills : Fills front behind recipes) (choose : κ → ι) :
    Fills front behind fun k => recipes (choose k) := by
  intro left allowed
  obtain ⟨added, before, read⟩ := fills left allowed
  exact ⟨added, before, fun k => read (choose k)⟩

/-- What can be supplied in front of more can be supplied in front of less. -/
theorem Fills.mono {ι β : Type} {front behind behind' : List Token → Prop}
    {recipes : ι → Recipe β} (fills : Fills front behind recipes)
    (fewer : ∀ left, behind' left → behind left) : Fills front behind' recipes :=
  fun left allowed => fills left (fewer left allowed)

namespace Recipe

variable {α β ι : Type} {front middle behind behind' : List Token → Prop}

/-- Wherever the recipe may stop once it has read something, what is left of it can be
satisfied in front of anything that `behind` allows. No creation is read. -/
def Completable (behind : List Token → Prop) : Recipe α → Prop
  | .yield _ => True
  | .refuse _ => True
  | .peek next => ∀ token, token.kind ≠ .newWord → (next token).Completable behind
  | .readToken fault next => ∀ token, fault token = none →
    Fills Anything behind (fun _ : Unit => next token) ∧ (next token).Completable behind
  | .readPhrase phrase fault next =>
    (∀ value, fault value = none) ∧ Fills phrase.Follows behind next ∧
      ∀ value, (next value).Completable behind

theorem Completable.mono {recipe : Recipe α} (completable : recipe.Completable behind)
    (fewer : ∀ left, behind' left → behind left) : recipe.Completable behind' := by
  induction recipe with
  | yield value => trivial
  | refuse cause => trivial
  | peek next ih => exact fun token other => ih token (completable token other)
  | readToken fault next ih =>
      intro token sound
      obtain ⟨fills, later⟩ := completable token sound
      exact ⟨fills.mono fewer, ih token later⟩
  | readPhrase phrase fault next ih =>
      obtain ⟨sound, fills, later⟩ := completable
      exact ⟨sound, fills.mono fewer, fun value => ih value (later value)⟩

theorem Completable.closed {recipe : Recipe α} (completable : recipe.Completable Anything) :
    recipe.Completable behind :=
  completable.mono fun _ _ => trivial

/-- The recipes can be supplied for, and each of them can be completed. -/
structure Completes (front behind : List Token → Prop) (recipes : ι → Recipe α) : Prop where
  fills : Fills front behind recipes
  completable : ∀ i, (recipes i).Completable behind

theorem Completable.bind {recipe : Recipe α} {next : α → Recipe β}
    (first : recipe.Completable middle) (second : Completes middle behind next) :
    (recipe >>= next).Completable behind := by
  rw [bind_eq]
  induction recipe with
  | yield value => exact second.completable value
  | refuse cause => trivial
  | peek next' ih => exact fun token other => ih token (first token other)
  | readToken fault next' ih =>
      intro token sound
      obtain ⟨fills, completable⟩ := first token sound
      exact ⟨fills.bind (second.fills.comp Prod.snd), ih token completable⟩
  | readPhrase phrase fault next' ih =>
      obtain ⟨sound, fills, completable⟩ := first
      exact ⟨sound, fills.bind (second.fills.comp Prod.snd), fun value =>
        ih value (completable value)⟩

theorem Completes.bind {recipes : ι → Recipe α} {next : ι → α → Recipe β}
    (first : Completes front middle recipes)
    (second : Completes middle behind fun pair : ι × α => next pair.1 pair.2) :
    Completes front behind fun i => recipes i >>= next i where
  fills := first.fills.bind second.fills
  completable i := (first.completable i).bind
    ⟨second.fills.comp (Prod.mk i), fun value => second.completable (i, value)⟩

theorem Completes.comp {κ : Type} {recipes : ι → Recipe α}
    (completes : Completes front behind recipes) (choose : κ → ι) :
    Completes front behind fun k => recipes (choose k) where
  fills := completes.fills.comp choose
  completable k := completes.completable (choose k)

theorem Completes.mono {recipes : ι → Recipe α} (completes : Completes front behind recipes)
    (fewer : ∀ left, behind' left → behind left) : Completes front behind' recipes where
  fills := completes.fills.mono fewer
  completable i := (completes.completable i).mono fewer

theorem Completes.anywhere {recipes : ι → Recipe α} (completes : Completes front behind recipes) :
    Completes Anything behind recipes where
  fills left allowed := by
    obtain ⟨added, -, read⟩ := completes.fills left allowed
    exact ⟨added, trivial, read⟩
  completable := completes.completable

/-! ### Recipes step by step -/

section Steps

variable {expected mark opening closing : TokenKind}

theorem completes_return {values : ι → α} :
    Completes behind behind fun i => (pure (values i) : Recipe α) where
  fills _ allowed := ⟨[], allowed, fun i => ⟨values i, rfl, rfl⟩⟩
  completable _ := trivial

theorem completable_take : take.Completable Anything := by
  intro token _
  refine ⟨?_, trivial⟩
  intro left _
  exact ⟨[], trivial, fun _ => ⟨token, rfl, rfl⟩⟩

theorem completable_tokenAs {make : Token → Except Cause α} :
    (tokenAs make).Completable Anything := by
  intro token sound
  change faultOf (make token) = none at sound
  change Fills Anything Anything (fun _ : Unit => made (make token)) ∧
    (made (make token)).Completable Anything
  cases made' : make token with
  | error cause =>
      rw [made'] at sound
      cases sound
  | ok value =>
      refine ⟨?_, trivial⟩
      intro left _
      exact ⟨[], trivial, fun _ => ⟨value, rfl, rfl⟩⟩

theorem completable_kind_bind {next : TokenKind → Recipe α}
    (after : ∀ kind, kind ≠ .newWord → (next kind).Completable behind) :
    (kind >>= next).Completable behind :=
  fun token other => after token.kind other

theorem completable_ifKind {there elsewhere : Recipe α} (first : there.Completable behind)
    (second : elsewhere.Completable behind) :
    (ifKind expected there elsewhere).Completable behind := by
  intro token _
  dsimp only
  split
  · exact first
  · exact second

theorem completable_expect : (expect expected).Completable Anything := by
  intro token _
  dsimp only
  split
  · exact completable_take
  · trivial

theorem completable_expectText : (expectText expected).Completable Anything :=
  completable_expect.bind completes_return

/-- A token that is due is supplied. -/
theorem completes_expect (here : ∀ left, front (.supplied expected :: left)) :
    Completes front Anything fun _ : ι => expect expected where
  fills left _ := ⟨[.supplied expected], here left, fun _ => ⟨_, reads_expect.mpr ⟨rfl, rfl⟩⟩⟩
  completable _ := completable_expect

theorem completes_expectText (here : ∀ left, front (.supplied expected :: left)) :
    Completes front Anything fun _ : ι => expectText expected :=
  (completes_expect here).bind completes_return

theorem completable_ask {phrase : Phrase} : (ask phrase).Completable phrase.Follows :=
  ⟨fun _ => rfl, fun _ follows => ⟨[], follows, fun value => ⟨value, rfl, rfl⟩⟩, fun _ => trivial⟩

/-- Some phrases may be left out. -/
theorem completes_ask_of_idle (phrase : Phrase) (weaker : ∀ left, phrase.Follows left → front left)
    (idle : ∀ left, phrase.Follows left → ∃ value, Phrase.Reads .language phrase left value left) :
    Completes front phrase.Follows fun _ : ι => ask phrase where
  fills left follows := by
    obtain ⟨value, read⟩ := idle left follows
    exact ⟨[], weaker left follows, fun _ => ⟨value, reads_ask.mpr read⟩⟩
  completable _ := completable_ask

theorem completes_statements (weaker : ∀ left, EndsList .closeCurly left → front left) :
    Completes front (EndsList .closeCurly) fun _ : ι => statements :=
  completes_ask_of_idle .statements weaker fun _ ends => ⟨[], Phrase.reads_statements_of_ends ends⟩

theorem completes_arguments
    (weaker : ∀ left, EndsList closing left ∧ Stops .lowest left → front left) :
    Completes front (fun left => EndsList closing left ∧ Stops .lowest left)
      fun _ : ι => arguments closing :=
  completes_ask_of_idle (.arguments closing) weaker fun _ ends =>
    ⟨[], Phrase.reads_arguments_of_ends ends.1⟩

theorem completes_parameters (weaker : ∀ left, EndsList .closeParen left → front left) :
    Completes front (EndsList .closeParen) fun _ : ι => parameters :=
  completes_ask_of_idle .parameters weaker fun _ ends => ⟨[], Phrase.reads_parameters_of_ends ends⟩

/-- An expression may end where it stands. -/
theorem completes_expressionTail {least : Power} :
    Completes (Stops .lowest) (Stops .lowest) (expressionTail least) where
  fills _ stops := ⟨[], stops, fun first => ⟨first, reads_expressionTail.mpr
    (Phrase.reads_tail_of_stops (stops.mono (Nat.zero_le _)))⟩⟩
  completable _ := completable_ask

theorem completes_typeTail {least : Power} : Completes (· ≠ []) (· ≠ []) (typeTail least) where
  fills _ some := ⟨[], some, fun first => ⟨first, reads_typeTail.mpr
    (Phrase.reads_typeTail_of_ne_nil some)⟩⟩
  completable _ := completable_ask

theorem reads_supplied_name {least : Power} {left : List Token} (stops : Stops .lowest left) :
    Phrase.Reads .language (.expression least) (.supplied .identifier :: left) (.symbol "x")
      left := by
  have name : PrefixRule.primary.recipe.Reads (Phrase.Reads .language)
      (.supplied .identifier :: left) (.symbol "x") left :=
    reads_primary.mpr ⟨_, rfl, rfl⟩
  exact Phrase.reads_expression_of_prefixRule .primary (by decide) name
    (Phrase.reads_tail_of_stops (stops.mono (Nat.zero_le _)))

/-- Where an expression is due, a name is supplied. -/
theorem completes_expression {least : ι → Power}
    (here : ∀ left, front (.supplied .identifier :: left)) :
    Completes front (Stops .lowest) fun i => expression (least i) where
  fills left stops := ⟨[.supplied .identifier], here left, fun _ => ⟨.symbol "x",
    reads_expression.mpr (reads_supplied_name stops)⟩⟩
  completable _ := completable_ask

/-- Where a type is due, a name is supplied. -/
theorem completes_type {least : Power} (here : ∀ left, front (.supplied .identifier :: left)) :
    Completes front (· ≠ []) fun _ : ι => type least where
  fills left some := by
    refine ⟨[.supplied .identifier], here left, fun i => ⟨.name "x", ?_⟩⟩
    have name : TypePrefixRule.name.recipe.Reads (Phrase.Reads .language)
        (.supplied .identifier :: left) (.name "x") left :=
      reads_typeName.mpr ⟨_, rfl, rfl⟩
    exact reads_type.mpr (Phrase.reads_type_of_prefixRule .name (by decide) name some)
  completable _ := completable_ask

/-- Where a recipe goes two ways, the tokens supplied lead the other way than the mark. -/
theorem completes_ifKind {there elsewhere : Recipe α} (first : there.Completable behind)
    (second : Completes (OtherThan mark) behind fun _ : Unit => elsewhere) :
    Completes (OtherThan mark) behind fun _ : ι => ifKind mark there elsewhere where
  fills left allowed := by
    obtain ⟨added, ⟨token, rest, whole, other⟩, read⟩ := second.fills left allowed
    obtain ⟨value, read⟩ := read ()
    refine ⟨added, ⟨token, rest, whole, other⟩, fun _ => ⟨value, ?_⟩⟩
    exact reads_ifKind.mpr ⟨token, rest, whole, by rwa [if_neg other]⟩
  completable _ := completable_ifKind first (second.completable ())

/-- What is optional is left out in front of any other token. -/
theorem completes_optional {content : Recipe α}
    (inside : Completes Anything (OtherThan mark) fun _ : Unit => content) :
    Completes Anything (OtherThan mark) fun _ : ι => optional mark content :=
  (completes_ifKind (completable_take.bind ((inside.comp fun _ => ()).bind completes_return))
    completes_return).anywhere

theorem completes_typeMark :
    Completes Anything (OtherThan .colon) fun _ : ι => optional .colon (type .lowest) :=
  completes_optional ((completes_type fun _ => trivial).mono OtherThan.ne_nil)

theorem completes_marked :
    Completes Anything (OtherThan mark) fun _ : ι => optional mark (expectText expected) :=
  completes_optional ((completes_expectText fun _ => trivial).mono fun _ _ => trivial)

theorem completes_block (here : ∀ left, front (.supplied .openCurly :: left)) :
    Completes front Anything fun _ : ι => block :=
  (completes_expect here).bind <| (completes_statements fun _ _ => trivial).bind <|
    (completes_expect fun _ => endsList_close).bind completes_return

theorem completable_block : block.Completable Anything := by
  have blocks : Completes Anything Anything fun _ : Unit => block :=
    completes_block fun _ => trivial
  exact blocks.completable ()

theorem completable_enclosed (closes : Tables.language.power closing = .lowest) :
    (enclosed opening closing).Completable Anything :=
  completable_expect.bind <| (completes_arguments fun _ _ => trivial).bind <|
    (completes_expect fun _ => ⟨endsList_close, stops_of_kind closes⟩).bind completes_return

/-- Where a list may end, no comma is due. -/
theorem completes_separator (weaker : ∀ left, behind left → front left)
    (ends : ∀ left, behind left → EndsList closing left) :
    Completes front behind fun _ : ι => separator closing where
  fills left allowed := ⟨[], weaker left allowed,
    fun _ => ⟨(), reads_separator_of_ends (ends left allowed)⟩⟩
  completable _ := by
    intro token _
    dsimp only
    split
    · trivial
    · exact (completable_expect.bind completes_return).closed

theorem completes_functionRest : Completes Anything Anything fun _ : ι => functionRest :=
  (completes_expect fun _ => trivial).bind <| (completes_parameters fun _ _ => trivial).bind <|
    (completes_expect fun _ => endsList_close).bind <| completes_typeMark.bind <|
      (completes_block (otherThan_supplied (by decide))).bind completes_return

/-- A value is supplied to every declaration, also where it could do without. -/
theorem completes_initialValue {constant : ι → Bool} {name : ι → String}
    {type : ι → Option TypeExpr} : Completes (OtherThan .colon) (Stops .lowest)
      fun i => initialValue (constant i) (name i) (type i) where
  fills left stops := by
    refine ⟨[.supplied .assignment, .supplied .identifier], otherThan_supplied (by decide) _,
      fun i => ⟨some (.symbol "x"), ?_⟩⟩
    exact reads_initialValue.mpr (.inr ⟨_, _, .symbol "x", rfl, reads_supplied_name stops, rfl⟩)
  completable i := by
    intro token _
    dsimp only
    split
    · split
      · trivial
      · split <;> trivial
    · exact completable_expect.bind ((completes_expression fun _ => trivial).bind completes_return)

/-- Between `return` and its semicolon, nothing need be supplied. -/
theorem completes_returned :
    Completes Anything (fun left => ∃ text rest, left = ⟨.semicolon, text⟩ :: rest)
      fun _ : ι => ifKind .semicolon (.yield none) do
        let value ← expression .lowest
        return some value where
  fills left semicolon := by
    obtain ⟨text, rest, rfl⟩ := semicolon
    refine ⟨[], trivial, fun _ => ⟨none, reads_ifKind.mpr ⟨_, rest, rfl, ?_⟩⟩⟩
    rw [if_pos rfl]
    exact ⟨rfl, rfl⟩
  completable _ := by
    have last : Completes (Stops .lowest) (Stops .lowest)
        fun value : Expr => (pure (some value) : Recipe (Option Expr)) := completes_return
    have asked : (expression .lowest).Completable (Stops .lowest) := completable_ask
    refine completable_ifKind trivial ((asked.bind last).mono ?_)
    rintro left ⟨text, rest, rfl⟩
    exact stops_of_kind rfl

end Steps

end Recipe

/-! ## Rules -/

open Recipe

theorem PrefixRule.completable (rule : PrefixRule) (other : rule ≠ .creation) :
    rule.recipe.Completable (Stops .lowest) := by
  cases rule with
  | primary => exact completable_tokenAs.closed
  | operation =>
      exact completable_take.bind <| (completes_expression fun _ => trivial).bind completes_return
  | grouping =>
      exact Completable.closed <| completable_expect.bind <|
        (completes_expression fun _ => trivial).bind <|
          (completes_expect fun _ => stops_of_kind rfl).bind completes_return
  | array => exact ((completable_enclosed rfl).bind completes_return).closed
  | function =>
      exact (completable_expect.bind (completes_functionRest.bind completes_return)).closed
  | creation => exact absurd rfl other

theorem InfixRule.completable (rule : InfixRule) (left : Expr) (power : Power) :
    (rule.recipe left power).Completable (Stops .lowest) := by
  cases rule with
  | binary | assignment | range =>
      exact completable_take.bind <| (completes_expression fun _ => trivial).bind completes_return
  | call => exact ((completable_enclosed rfl).bind completes_return).closed
  | member =>
      have any : (Recipe.member left).Completable Anything := by
        intro operator _
        dsimp only [Recipe.bind]
        split
        · have element : Completes Anything Anything fun _ : Unit => (do
              let index ← expression .lowest
              let _ ← expect .closeBracket
              return .element left index : Recipe Expr) :=
            (completes_expression fun _ => trivial).bind <|
              (completes_expect fun _ => stops_of_kind rfl).bind completes_return
          exact ⟨element.fills, element.completable ()⟩
        · have property : Completes Anything Anything fun _ : Unit => (do
              let property ← expectText .identifier
              return .member left property : Recipe Expr) :=
            (completes_expectText fun _ => trivial).bind completes_return
          exact ⟨property.fills, property.completable ()⟩
      exact any.closed

theorem TypePrefixRule.completable (rule : TypePrefixRule) :
    rule.recipe.Completable (· ≠ []) := by
  cases rule with
  | name => exact (completable_expectText.bind completes_return).closed
  | list =>
      exact completable_expect.bind <| (completes_expect fun _ => trivial).bind <|
        (completes_type fun _ => trivial).bind completes_return

theorem Recipe.completable_expressionStatement : expressionStatement.Completable Anything := by
  have asked : (expression .lowest).Completable (Stops .lowest) := completable_ask
  exact asked.bind <| (completes_expect fun _ => stops_of_kind rfl).bind completes_return

theorem Recipe.completable_blockStatement : blockStatement.Completable Anything :=
  completable_block.bind completes_return

theorem StatementRule.completable (rule : StatementRule) :
    rule.recipe.Completable EndsStatement := by
  cases rule with
  | anyStatement => exact completable_ask
  | conditional => exact completable_ask
  | expression => exact completable_expressionStatement.closed
  | block => exact completable_blockStatement.closed
  | declaration =>
      exact Completable.closed <| completable_take.bind <|
        (completes_expectText fun _ => trivial).bind <| completes_typeMark.bind <|
          completes_initialValue.bind <|
            (completes_expect fun _ => stops_of_kind rfl).bind completes_return
  | function =>
      exact Completable.closed <| completable_take.bind <|
        (completes_expectText fun _ => trivial).bind <| completes_functionRest.bind completes_return
  | importing =>
      exact Completable.closed <| completable_take.bind <|
        (completes_expectText fun _ => trivial).bind <| completes_marked.bind <|
          (completes_expect (otherThan_supplied (by decide))).bind completes_return
  | foreach =>
      exact Completable.closed <| completable_take.bind <|
        (completes_expectText fun _ => trivial).bind <| completes_marked.bind <|
          (completes_expect (otherThan_supplied (by decide))).bind <|
            (completes_expression fun _ => trivial).bind <|
              (completes_block fun _ => stops_of_kind rfl).bind completes_return
  | classDeclaration =>
      exact Completable.closed <| completable_take.bind <|
        (completes_expectText fun _ => trivial).bind <|
          (completes_block fun _ => trivial).bind completes_return
  | returning =>
      exact Completable.closed <| completable_take.bind <| completes_returned.bind <|
        (completes_expect fun _ => ⟨_, _, rfl⟩).bind completes_return
  | loop =>
      exact Completable.closed <| completable_take.bind <|
        (completes_expression fun _ => trivial).bind <|
          (completes_block fun _ => stops_of_kind rfl).bind completes_return

theorem Recipe.completable_conditionalPhrase : conditionalPhrase.Completable EndsStatement := by
  have blockStatements : Completes (OtherThan .ifWord) (OtherThan .elseWord)
      fun _ : Unit => blockStatement :=
    ((completes_block (otherThan_supplied (by decide))).bind completes_return).mono
      fun _ _ => trivial
  have again : Recipe.conditional.Completable (OtherThan .elseWord) := completable_ask
  have otherwise : Completes Anything (OtherThan .elseWord)
      fun _ : Unit => ifKind .ifWord Recipe.conditional blockStatement :=
    (completes_ifKind again blockStatements).anywhere
  exact completable_take.bind <| (completes_expression fun _ => trivial).bind <|
    (completes_block fun _ => stops_of_kind rfl).bind <| (completes_optional otherwise).bind
      completes_return

/-- Every recipe of the grammar can be completed in front of whatever may follow the phrase. -/
theorem Phrase.completable (phrase : Phrase) :
    (phrase.recipe .language).Completable phrase.Follows := by
  cases phrase with
  | expression least =>
      refine completable_kind_bind fun first other => ?_
      split
      · exact fun _ _ => trivial
      · rename_i recipe found
        obtain ⟨rule, member, rfl⟩ := Tables.language_prefixRule_iff.mp found
        have creates : rule ≠ .creation := by
          rintro rfl
          exact other (List.mem_singleton.mp member)
        exact (rule.completable creates).bind completes_expressionTail
  | expressionTail least left =>
      refine completable_kind_bind fun next _ => ?_
      split
      · split
        · exact fun _ _ => trivial
        · rename_i recipe found
          obtain ⟨rule, -, rfl⟩ := Tables.language_infixRule_iff.mp found
          exact (rule.completable _ _).bind completes_expressionTail
      · trivial
  | type least =>
      refine completable_kind_bind fun first _ => ?_
      split
      · exact fun _ _ => trivial
      · rename_i recipe found
        obtain ⟨rule, -, rfl⟩ := Tables.language_typePrefixRule_iff.mp found
        exact rule.completable.bind completes_typeTail
  | typeTail least left =>
      refine completable_kind_bind fun next _ => ?_
      rw [if_neg (Tables.not_lt_typePower_of_none (Tables.language_typeInfixPower next))]
      trivial
  | statement =>
      refine completable_kind_bind fun first _ => ?_
      split
      · exact completable_expressionStatement.closed
      · rename_i recipe found
        obtain ⟨rule, -, rfl⟩ := Tables.language_statementRule_iff.mp found
        exact rule.completable
  | statements =>
      refine completable_kind_bind fun next _ => ?_
      split
      · trivial
      · exact completable_ask.bind <|
          (completes_statements fun _ => EndsList.endsStatement).bind completes_return
  | conditional => exact completable_conditionalPhrase
  | arguments close =>
      refine completable_kind_bind fun next _ => ?_
      split
      · trivial
      · exact completable_ask.bind <|
          (completes_separator (fun _ => And.right) fun _ => And.left).bind <|
            (completes_arguments fun _ ends => ends).bind completes_return
  | parameters =>
      refine completable_kind_bind fun next _ => ?_
      split
      · trivial
      · exact completable_expectText.bind <| (completes_expect fun _ => trivial).bind <|
          (completes_type fun _ => trivial).bind <|
            (completes_separator (fun _ => EndsList.ne_nil) fun _ ends => ends).bind <|
              (completes_parameters fun _ ends => ends).bind completes_return

end ScriptReader
