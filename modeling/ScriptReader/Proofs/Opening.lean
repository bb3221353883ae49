/- # ScriptReader.Proofs.Opening — what a recipe does first

Two things can be seen of a recipe without running it. `Recipe.Careful` says that
it never reads the end of input. `Recipe.Opens` says that before it asks for a
phrase it reads a token, or that the first phrase it asks for is of smaller rank
and reads one itself. Every rule has both properties in front of any token but
the end of input, and so has every phrase under tables that are
`Tables.Grounded`. Tables stay grounded when admissible entries are inserted.
-/
import ScriptReader.Grammar.Phrases
import ScriptReader.Proofs.Requirements

namespace ScriptReader

set_option autoImplicit false

/-! ## What is seen of a recipe -/

/-- Phrases that begin by reading a token, whichever it is, may not begin at the end of
input. -/
def Phrase.StartsAt : Phrase → Token → Prop
  | .conditional, current => current.kind ≠ .endOfInput
  | _, _ => True

/-- Whether at least one token is read for the phrase. -/
def Phrase.advances : Phrase → Bool
  | .expression _ | .type _ | .statement | .conditional => true
  | _ => false

/-- How many phrases can be begun, one inside the other, before a token is read. -/
def Phrase.rank : Phrase → Nat
  | .statements => 2
  | .statement | .arguments _ => 1
  | _ => 0

theorem Phrase.rank_le (phrase : Phrase) : phrase.rank ≤ 2 := by
  cases phrase <;> simp [rank]

namespace Recipe

variable {α β : Type}

/-- In front of the token, the recipe does not read the end of input, whatever follows. -/
def Careful : Recipe α → Token → Prop
  | .yield _, _ => True
  | .refuse _, _ => True
  | .peek next, current => (next current).Careful current
  | .readToken _ next, current =>
    current.kind ≠ .endOfInput ∧ ∀ later, (next current).Careful later
  | .readPhrase phrase _ next, current =>
    phrase.StartsAt current ∧ ∀ value later, (next value).Careful later

/-- In front of the token, the recipe reads it, or asks first for a phrase of smaller rank
that reads it; an idle recipe may instead do nothing. -/
def Opens (idle : Bool) (rank : Nat) : Recipe α → Token → Prop
  | .yield _, _ => idle = true
  | .refuse _, _ => True
  | .peek next, current => (next current).Opens idle rank current
  | .readToken _ _, _ => True
  | .readPhrase phrase _ _, _ => phrase.rank < rank ∧ phrase.advances = true

/-! ### Recipes step by step -/

theorem Careful.bind {recipe : Recipe α} {next : α → Recipe β} {current : Token}
    (first : recipe.Careful current) (second : ∀ value later, (next value).Careful later) :
    (recipe >>= next).Careful current := by
  rw [bind_eq]
  induction recipe generalizing current with
  | yield value => exact second value current
  | refuse cause => trivial
  | peek next' ih => exact ih current first
  | readToken fault next' ih => exact ⟨first.1, fun later => ih current (first.2 later)⟩
  | readPhrase phrase fault next' ih =>
      exact ⟨first.1, fun value later => ih value (first.2 value later)⟩

/-- A recipe that reads something opens whatever follows it. -/
theorem Opens.bind {idle : Bool} {rank : Nat} {recipe : Recipe α} {next : α → Recipe β}
    {current : Token} (first : recipe.Opens false rank current) :
    (recipe >>= next).Opens idle rank current := by
  rw [bind_eq]
  induction recipe generalizing current with
  | yield value => exact absurd first (by simp [Opens])
  | refuse cause => trivial
  | peek next' ih => exact ih current first
  | readToken fault next' ih => trivial
  | readPhrase phrase fault next' ih => exact first

section Steps

variable {current : Token} {expected opening closing : TokenKind}

theorem careful_take (open' : current.kind ≠ .endOfInput) : take.Careful current :=
  ⟨open', fun _ => trivial⟩

theorem careful_kind_bind {next : TokenKind → Recipe α} :
    (kind >>= next).Careful current ↔ (next current.kind).Careful current := Iff.rfl

theorem careful_expect (open' : expected ≠ .endOfInput) :
    (expect expected).Careful current := by
  change Recipe.Careful (if current.kind = expected then take else _) current
  split
  · rename_i same
    exact careful_take (same ▸ open')
  · trivial

theorem careful_expectText (open' : expected ≠ .endOfInput) :
    (expectText expected).Careful current :=
  .bind (careful_expect open') fun _ _ => trivial

theorem careful_ifKind {wanted : TokenKind} {there elsewhere : Recipe α}
    (first : there.Careful current) (second : elsewhere.Careful current) :
    (ifKind wanted there elsewhere).Careful current := by
  change Recipe.Careful (if current.kind = wanted then there else elsewhere) current
  split
  · exact first
  · exact second

theorem careful_optional {content : Recipe α} (open' : expected ≠ .endOfInput)
    (inside : ∀ later, content.Careful later) :
    (optional expected content).Careful current := by
  change Recipe.Careful (if current.kind = expected then _ else _) current
  split
  · rename_i same
    exact .bind (careful_take (same ▸ open')) fun _ later =>
      .bind (inside later) fun _ _ => trivial
  · trivial

theorem careful_ask {phrase : Phrase} (starts : phrase.StartsAt current) :
    (ask phrase).Careful current :=
  ⟨starts, fun _ _ => trivial⟩

theorem careful_tokenAs {make : Token → Except Cause α} (open' : current.kind ≠ .endOfInput) :
    (tokenAs make).Careful current := by
  refine ⟨open', ?_⟩
  intro later
  dsimp only
  cases make current <;> trivial

theorem careful_phraseAs {phrase : Phrase} {make : phrase.Value → Except Cause α}
    (starts : phrase.StartsAt current) : (phraseAs phrase make).Careful current := by
  refine ⟨starts, ?_⟩
  intro value later
  dsimp only
  cases make value <;> trivial

theorem careful_block : block.Careful current :=
  .bind (careful_expect (by decide)) fun _ _ =>
    .bind (careful_ask trivial) fun _ _ =>
      .bind (careful_expect (by decide)) fun _ _ => trivial

theorem careful_enclosed (open' : opening ≠ .endOfInput) (close : closing ≠ .endOfInput) :
    (enclosed opening closing).Careful current :=
  .bind (careful_expect open') fun _ _ =>
    .bind (careful_ask trivial) fun _ _ =>
      .bind (careful_expect close) fun _ _ => trivial

theorem careful_separator : (separator closing).Careful current := by
  change Recipe.Careful (if current.kind = .endOfInput ∨ current.kind = closing then _ else _) current
  split
  · trivial
  · exact .bind (careful_expect (by decide)) fun _ _ => trivial

theorem careful_functionRest : functionRest.Careful current :=
  .bind (careful_expect (by decide)) fun _ _ =>
    .bind (careful_ask trivial) fun _ _ =>
      .bind (careful_expect (by decide)) fun _ _ =>
        .bind (careful_optional (by decide) fun _ => careful_ask trivial) fun _ _ =>
          .bind careful_block fun _ _ => trivial

theorem careful_initialValue {constant : Bool} {name : String} {type : Option TypeExpr} :
    (initialValue constant name type).Careful current := by
  change Recipe.Careful (if current.kind = .semicolon then _ else _) current
  split
  · split
    · trivial
    · split <;> trivial
  · exact .bind (careful_expect (by decide)) fun _ _ => .bind (careful_ask trivial) fun _ _ => trivial

/-- Behind `else`, another condition begins only at `if`. -/
theorem careful_alternative :
    (ifKind .ifWord conditional blockStatement).Careful current := by
  change Recipe.Careful (if current.kind = .ifWord then conditional else blockStatement) current
  split
  · rename_i same
    exact careful_ask (by simp [Phrase.StartsAt, same])
  · exact .bind careful_block fun _ _ => trivial

variable {idle : Bool} {rank : Nat}

theorem opens_kind_bind {next : TokenKind → Recipe α} :
    (kind >>= next).Opens idle rank current ↔ (next current.kind).Opens idle rank current := Iff.rfl

theorem opens_expect : (expect expected).Opens idle rank current := by
  change Recipe.Opens idle rank (if current.kind = expected then take else _) current
  split <;> trivial

theorem opens_expectText : (expectText expected).Opens idle rank current := .bind opens_expect

theorem opens_block : block.Opens idle rank current := .bind opens_expect

theorem opens_enclosed : (enclosed opening closing).Opens idle rank current := .bind opens_expect

end Steps

end Recipe

/-! ### Rules -/

open Recipe

theorem PrefixRule.careful (rule : PrefixRule) {current : Token}
    (open' : current.kind ≠ .endOfInput) : rule.recipe.Careful current := by
  cases rule with
  | primary => exact careful_tokenAs open'
  | operation =>
      exact .bind (careful_take open') fun _ _ => .bind (careful_ask trivial) fun _ _ => trivial
  | grouping =>
      exact .bind (careful_expect (by decide)) fun _ _ =>
        .bind (careful_ask trivial) fun _ _ => .bind (careful_expect (by decide)) fun _ _ => trivial
  | array => exact .bind (careful_enclosed (by decide) (by decide)) fun _ _ => trivial
  | function =>
      exact .bind (careful_expect (by decide)) fun _ _ => .bind careful_functionRest fun _ _ => trivial
  | creation => exact .bind (careful_expect (by decide)) fun _ _ => careful_phraseAs trivial

theorem PrefixRule.opens (rule : PrefixRule) (current : Token) :
    rule.recipe.Opens false 0 current := by
  cases rule with
  | primary | operation => trivial
  | grouping | function | creation => exact .bind opens_expect
  | array => exact .bind opens_enclosed

theorem InfixRule.careful (rule : InfixRule) (left : Expr) (power : Power) {current : Token}
    (open' : current.kind ≠ .endOfInput) : (rule.recipe left power).Careful current := by
  cases rule with
  | binary | assignment | range =>
      exact .bind (careful_take open') fun _ _ => .bind (careful_ask trivial) fun _ _ => trivial
  | call => exact .bind (careful_enclosed (by decide) (by decide)) fun _ _ => trivial
  | member =>
      refine .bind (careful_take open') fun operator _ => ?_
      split
      · exact .bind (careful_ask trivial) fun _ _ => .bind (careful_expect (by decide)) fun _ _ => trivial
      · exact .bind (careful_expectText (by decide)) fun _ _ => trivial

theorem InfixRule.opens (rule : InfixRule) (left : Expr) (power : Power) (current : Token) :
    (rule.recipe left power).Opens false 0 current := by
  cases rule with
  | binary | assignment | range | member => trivial
  | call => exact .bind opens_enclosed

theorem TypePrefixRule.careful (rule : TypePrefixRule) (current : Token) :
    rule.recipe.Careful current := by
  cases rule with
  | name => exact .bind (careful_expectText (by decide)) fun _ _ => trivial
  | list =>
      exact .bind (careful_expect (by decide)) fun _ _ =>
        .bind (careful_expect (by decide)) fun _ _ => .bind (careful_ask trivial) fun _ _ => trivial

theorem TypePrefixRule.opens (rule : TypePrefixRule) (current : Token) :
    rule.recipe.Opens false 0 current := by
  cases rule with
  | name => exact .bind opens_expectText
  | list => exact .bind opens_expect

theorem StatementRule.careful (rule : StatementRule) {current : Token}
    (open' : current.kind ≠ .endOfInput) : rule.recipe.Careful current := by
  cases rule with
  | anyStatement => exact careful_ask trivial
  | conditional => exact careful_ask open'
  | expression =>
      exact .bind (careful_ask trivial) fun _ _ => .bind (careful_expect (by decide)) fun _ _ => trivial
  | block => exact .bind careful_block fun _ _ => trivial
  | declaration =>
      exact .bind (careful_take open') fun _ _ =>
        .bind (careful_expectText (by decide)) fun _ _ =>
          .bind (careful_optional (by decide) fun _ => careful_ask trivial) fun _ _ =>
            .bind careful_initialValue fun _ _ => .bind (careful_expect (by decide)) fun _ _ => trivial
  | function =>
      exact .bind (careful_take open') fun _ _ =>
        .bind (careful_expectText (by decide)) fun _ _ => .bind careful_functionRest fun _ _ => trivial
  | importing =>
      exact .bind (careful_take open') fun _ _ =>
        .bind (careful_expectText (by decide)) fun _ _ =>
          .bind (careful_optional (by decide) fun _ => careful_expectText (by decide)) fun _ _ =>
            .bind (careful_expect (by decide)) fun _ _ => trivial
  | foreach =>
      exact .bind (careful_take open') fun _ _ =>
        .bind (careful_expectText (by decide)) fun _ _ =>
          .bind (careful_optional (by decide) fun _ => careful_expectText (by decide)) fun _ _ =>
            .bind (careful_expect (by decide)) fun _ _ =>
              .bind (careful_ask trivial) fun _ _ => .bind careful_block fun _ _ => trivial
  | classDeclaration =>
      exact .bind (careful_take open') fun _ _ =>
        .bind (careful_expectText (by decide)) fun _ _ => .bind careful_block fun _ _ => trivial
  | returning =>
      exact .bind (careful_take open') fun _ _ =>
        .bind (careful_ifKind trivial (.bind (careful_ask trivial) fun _ _ => trivial)) fun _ _ =>
          .bind (careful_expect (by decide)) fun _ _ => trivial
  | loop =>
      exact .bind (careful_take open') fun _ _ =>
        .bind (careful_ask trivial) fun _ _ => .bind careful_block fun _ _ => trivial

/-- Every rule but the one that starts over reads a token before it asks for a statement. -/
theorem StatementRule.opens (rule : StatementRule) (forward : rule ≠ .anyStatement)
    (current : Token) : rule.recipe.Opens false 1 current := by
  cases rule with
  | anyStatement => exact absurd rfl forward
  | conditional => exact ⟨by decide, rfl⟩
  | expression => exact ⟨by decide, rfl⟩
  | block => exact .bind opens_block
  | declaration | function | importing | foreach | classDeclaration | returning | loop => trivial

/-! ### Tables -/

/-- What binds tighter than something has a power of its own. -/
theorem Tables.infixPower_ne_none {tables : Tables} {least : Power} {kind : TokenKind}
    (tighter : least < tables.power kind) : tables.infixPower kind ≠ none := by
  intro none
  rw [Tables.power, none] at tighter
  exact absurd tighter (Nat.not_lt_zero _)

theorem Tables.not_lt_typePower_of_none {tables : Tables} {least : Power} {kind : TokenKind}
    (none : tables.typeInfixPower kind = none) : ¬ least < tables.typePower kind := by
  rw [Tables.typePower, none]
  exact Nat.not_lt_zero _

/-- The rules are those of the language; nothing begins at the end of input, no statement starts
over, and types have no infix rules. -/
structure Tables.Grounded (tables : Tables) : Prop where
  native : tables.Native
  statementRule : tables.statementRule .endOfInput = none
  prefixRule : tables.prefixRule .endOfInput = none
  infixRule : tables.infixRule .endOfInput = none
  infixPower : tables.infixPower .endOfInput = none
  typeInfixPower : ∀ kind, tables.typeInfixPower kind = none
  forward : ∀ {kind recipe}, tables.statementRule kind = some recipe →
    ∃ rule : StatementRule, rule ≠ .anyStatement ∧ rule.recipe = recipe

/-- Entries of the language's rules for any kind but the end of input, other than the statement
rule that starts over. -/
def Entry.Admissible : Entry → Prop
  | .statement kind rule => kind ≠ .endOfInput ∧ rule ≠ .anyStatement
  | .prefixForm kind _ | .infixForm kind _ _ | .typePrefix kind _ => kind ≠ .endOfInput
  | .typeInfix _ _ _ => False
  | .ownStatement _ _ | .ownPrefix _ _ | .ownInfix _ _ _ | .ownTypePrefix _ _ => False

instance : DecidablePred Entry.Admissible
  | .statement kind rule => inferInstanceAs (Decidable (kind ≠ .endOfInput ∧ rule ≠ .anyStatement))
  | .prefixForm kind _ | .infixForm kind _ _ | .typePrefix kind _ =>
    inferInstanceAs (Decidable (kind ≠ .endOfInput))
  | .typeInfix _ _ _ | .ownStatement _ _ | .ownPrefix _ _ | .ownInfix _ _ _ | .ownTypePrefix _ _ =>
    inferInstanceAs (Decidable False)

theorem Entry.Admissible.native {entry : Entry} (admissible : entry.Admissible) :
    entry.Native := by
  cases entry with
  | statement | prefixForm | infixForm | typePrefix | typeInfix => trivial
  | ownStatement | ownPrefix | ownInfix | ownTypePrefix => exact admissible

namespace Tables.Grounded

variable {tables : Tables}

theorem empty : Tables.empty.Grounded where
  native := Tables.Meet.empty
  statementRule := rfl
  prefixRule := rfl
  infixRule := rfl
  infixPower := rfl
  typeInfixPower _ := rfl
  forward found := by cases found

theorem insert (grounded : tables.Grounded) {entry : Entry} (admissible : entry.Admissible) :
    (tables.insert entry).Grounded := by
  have native := grounded.native.insert admissible.native.meets
  -- An entry for another kind leaves the end of input as it is.
  have still {α : Type} {entries : TokenKind → Option α} {kind : TokenKind} {value : α}
      (open' : kind ≠ .endOfInput) (before : entries .endOfInput = none) :
      assign entries kind value .endOfInput = none := (assign_of_ne open'.symm).trans before
  cases entry with
  | statement kind rule =>
      exact { grounded with
        native
        statementRule := still admissible.1 grounded.statementRule
        forward := of_assign ⟨rule, admissible.2, rfl⟩ grounded.forward }
  | prefixForm kind rule =>
      exact { grounded with native, prefixRule := still admissible grounded.prefixRule }
  | infixForm kind power rule =>
      exact { grounded with
        native
        infixRule := still admissible grounded.infixRule
        infixPower := still admissible grounded.infixPower }
  | typePrefix kind rule => exact { grounded with native }
  | typeInfix | ownStatement | ownPrefix | ownInfix | ownTypePrefix => exact admissible.elim

theorem extend (grounded : tables.Grounded) {entries : List Entry}
    (admissible : ∀ entry ∈ entries, entry.Admissible) : (tables.extend entries).Grounded := by
  refine List.foldlRecOn entries Tables.insert grounded ?_
  intro tables grounded entry member
  exact grounded.insert (admissible entry member)

theorem language : Tables.language.Grounded := empty.extend (by decide)

/-- What binds tighter than something is not the end of input. -/
theorem kind_ne_of_lt_power (grounded : tables.Grounded) {least : Power} {kind : TokenKind}
    (tighter : least < tables.power kind) : kind ≠ .endOfInput := by
  rintro rfl
  exact Tables.infixPower_ne_none tighter grounded.infixPower

end Tables.Grounded

/-! ### Phrases -/

namespace Phrase

variable {tables : Tables}

theorem careful (grounded : tables.Grounded) (phrase : Phrase) {current : Token}
    (starts : phrase.StartsAt current) : (phrase.recipe tables).Careful current := by
  cases phrase with
  | expression least =>
      refine careful_kind_bind.mpr ?_
      split
      · trivial
      · rename_i recipe found
        obtain ⟨rule, rfl⟩ := grounded.native.prefixRule found
        have open' : current.kind ≠ .endOfInput := by
          intro ends
          rw [ends, grounded.prefixRule] at found
          cases found
        exact .bind (rule.careful open') fun _ _ => careful_ask trivial
  | expressionTail least left =>
      refine careful_kind_bind.mpr ?_
      split
      · rename_i tighter
        split
        · trivial
        · rename_i recipe found
          obtain ⟨rule, rfl⟩ := grounded.native.infixRule found
          exact .bind (rule.careful _ _ (grounded.kind_ne_of_lt_power tighter)) fun _ _ =>
            careful_ask trivial
      · trivial
  | type least =>
      refine careful_kind_bind.mpr ?_
      split
      · trivial
      · rename_i recipe found
        obtain ⟨rule, rfl⟩ := grounded.native.typePrefixRule found
        exact .bind (rule.careful current) fun _ _ => careful_ask trivial
  | typeTail least left =>
      refine careful_kind_bind.mpr ?_
      rw [if_neg (Tables.not_lt_typePower_of_none (grounded.typeInfixPower _))]
      trivial
  | statement =>
      refine careful_kind_bind.mpr ?_
      split
      · exact .bind (careful_ask trivial) fun _ _ => .bind (careful_expect (by decide)) fun _ _ => trivial
      · rename_i recipe found
        obtain ⟨rule, rfl⟩ := grounded.native.statementRule found
        have open' : current.kind ≠ .endOfInput := by
          intro ends
          rw [ends, grounded.statementRule] at found
          cases found
        exact rule.careful open'
  | statements =>
      refine careful_kind_bind.mpr ?_
      split
      · trivial
      · exact .bind (careful_ask trivial) fun _ _ => .bind (careful_ask trivial) fun _ _ => trivial
  | conditional =>
      exact .bind (careful_take starts) fun _ _ =>
        .bind (careful_ask trivial) fun _ _ =>
          .bind careful_block fun _ _ =>
            .bind (careful_optional (by decide) fun _ => careful_alternative) fun _ _ => trivial
  | arguments close =>
      refine careful_kind_bind.mpr ?_
      split
      · trivial
      · exact .bind (careful_ask trivial) fun _ _ =>
          .bind careful_separator fun _ _ => .bind (careful_ask trivial) fun _ _ => trivial
  | parameters =>
      refine careful_kind_bind.mpr ?_
      split
      · trivial
      · exact .bind (careful_expectText (by decide)) fun _ _ =>
          .bind (careful_expect (by decide)) fun _ _ =>
            .bind (careful_ask trivial) fun _ _ =>
              .bind careful_separator fun _ _ => .bind (careful_ask trivial) fun _ _ => trivial

theorem opens (grounded : tables.Grounded) (phrase : Phrase) (current : Token) :
    (phrase.recipe tables).Opens (!phrase.advances) phrase.rank current := by
  cases phrase with
  | expression least =>
      refine opens_kind_bind.mpr ?_
      split
      · trivial
      · rename_i recipe found
        obtain ⟨rule, rfl⟩ := grounded.native.prefixRule found
        exact .bind (rule.opens current)
  | expressionTail least left =>
      refine opens_kind_bind.mpr ?_
      split
      · split
        · trivial
        · rename_i recipe found
          obtain ⟨rule, rfl⟩ := grounded.native.infixRule found
          exact .bind (rule.opens _ _ current)
      · rfl
  | type least =>
      refine opens_kind_bind.mpr ?_
      split
      · trivial
      · rename_i recipe found
        obtain ⟨rule, rfl⟩ := grounded.native.typePrefixRule found
        exact .bind (rule.opens current)
  | typeTail least left =>
      refine opens_kind_bind.mpr ?_
      rw [if_neg (Tables.not_lt_typePower_of_none (grounded.typeInfixPower _))]
      rfl
  | statement =>
      refine opens_kind_bind.mpr ?_
      split
      · exact ⟨by decide, rfl⟩
      · rename_i recipe found
        obtain ⟨rule, forward, rfl⟩ := grounded.forward found
        exact rule.opens forward current
  | statements =>
      refine opens_kind_bind.mpr ?_
      split
      · rfl
      · exact ⟨by decide, rfl⟩
  | conditional => trivial
  | arguments close =>
      refine opens_kind_bind.mpr ?_
      split
      · rfl
      · exact ⟨Nat.zero_lt_one, rfl⟩
  | parameters =>
      refine opens_kind_bind.mpr ?_
      split
      · rfl
      · exact .bind opens_expectText

end Phrase

end ScriptReader
