/- # ScriptReader.Proofs.Numerals — the numbers of a text

What the scanner takes for a number is a numeral: digits, and perhaps a point and more
digits. It is read as a number that is not `nan` and has no sign, though it may be
infinite (`exists_ofNumeral?_of_isNumeral`). So no text is refused for a number that
cannot be read.

The numbers in a tree are among its items (`Expr.all_numeric`), and each item was kept of
a token (`Keeps.exists_token`). A text is therefore read as a tree without `nan`, and such
trees are equal to themselves (`equalStatements_self_iff`). Streams that no text was cut
into can hold other numbers.
-/
import ScriptReader.Proofs.Blame
import ScriptReader.Proofs.Invariants
import ScriptReader.Proofs.Keeping
import ScriptReader.Proofs.Layout

namespace ScriptReader

set_option autoImplicit false

open Lexeme (IsNumeral IsDigits isDigit_iff)
open Text (EndsRun endsRun_nil endsRun_cons takeWhile_run dropWhile_run)

/-! ## Numerals -/

namespace Binary64

theorem nearest_sign (negative' : Bool) (numerator denominator : Nat) :
    nearest negative' numerator denominator ≠ .nan ∧
      (nearest negative' numerator denominator).negative = negative' := by
  unfold nearest zero
  dsimp only
  (repeat' split) <;> exact ⟨by simp, rfl⟩

/-- What digits and a power of ten stand for is a number, and it has the given sign. -/
theorem ofDecimal_sign (negative' : Bool) (digits : Nat) (scale : Int) :
    ofDecimal negative' digits scale ≠ .nan ∧
      (ofDecimal negative' digits scale).negative = negative' := by
  unfold ofDecimal
  split
  · exact ⟨by simp [zero], rfl⟩
  · split
    · exact ⟨by simp, rfl⟩
    · exact nearest_sign _ _ _

end Binary64

namespace Numeral

variable {c : Char} {digits decimals text : List Char}

theorem splitSign_of_isDigit (digit : c.isDigit = true) (rest : List Char) :
    splitSign (c :: rest) = (false, c :: rest) := by
  unfold splitSign
  split
  · rename_i same
    cases same
    exact absurd digit (by decide)
  · rename_i same
    cases same
    exact absurd digit (by decide)
  · rfl

theorem toLower_of_isDigit (digit : c.isDigit = true) : c.toLower = c := by
  obtain ⟨low, high⟩ := isDigit_iff.mp digit
  unfold Char.toLower
  rw [dif_neg]
  intro upper
  have := UInt32.le_iff_toNat_le.mp upper.1
  change 65 ≤ c.toNat at this
  omega

/-- A text that begins with a digit spells neither a name of infinity nor `nan`. -/
theorem value?_of_isDigit (digit : c.isDigit = true) (rest : List Char) :
    value? (c :: rest) =
      (decimal? (c :: rest)).map fun parts => .ofDecimal false parts.1 parts.2 := by
  have differs : ∀ word : String, word.toList.head?.any Char.isDigit = false →
      String.ofList ((c :: rest).map Char.toLower) ≠ word := by
    rintro word other rfl
    simp [toLower_of_isDigit digit, digit] at other
  unfold value?
  rw [splitSign_of_isDigit digit]
  dsimp only
  rw [if_neg, if_neg (differs "nan" (by decide))]
  rintro (same | same)
  · exact differs "inf" (by decide) same
  · exact differs "infinity" (by decide) same

theorem span_digits {rest : List Char} (all : ∀ c ∈ digits, c.isDigit = true)
    (ends : EndsRun Char.isDigit rest) : (digits ++ rest).span Char.isDigit = (digits, rest) := by
  rw [List.span_eq_takeWhile_dropWhile, takeWhile_run all ends, dropWhile_run all ends]

theorem exists_decimal?_of_isNumeral (numeral : IsNumeral text) :
    ∃ parts, decimal? text = some parts := by
  cases numeral with
  | whole some =>
      have front := span_digits some.2 endsRun_nil
      rw [List.append_nil] at front
      unfold decimal?
      rw [front]
      dsimp only [splitFraction]
      rw [List.append_nil, if_neg some.1]
      exact ⟨_, rfl⟩
  | @decimal digits decimals some more =>
      have front := span_digits some.2 (endsRun_cons.mpr (by decide) : EndsRun _ ('.' :: decimals))
      have back : splitFraction ('.' :: decimals) = (decimals, []) := by
        have run := span_digits more.2 endsRun_nil
        rwa [List.append_nil] at run
      unfold decimal?
      rw [front]
      dsimp only
      rw [back]
      dsimp only
      rw [if_neg (by simp [some.1])]
      exact ⟨_, rfl⟩

end Numeral

/-- A numeral of the scanner stands for a number that has no sign. -/
theorem exists_ofNumeral?_of_isNumeral {text : String} (numeral : IsNumeral text.toList) :
    ∃ value, Binary64.ofNumeral? text = some value ∧ value ≠ .nan ∧ value.negative = false := by
  obtain ⟨⟨digits, scale⟩, parts⟩ := Numeral.exists_decimal?_of_isNumeral numeral
  obtain ⟨first, others, opens, digit⟩ := numeral.exists_cons
  refine ⟨.ofDecimal false digits scale, ?_, Binary64.ofDecimal_sign _ _ _⟩
  rw [opens] at parts
  rw [Binary64.ofNumeral?, opens, Numeral.value?_of_isDigit digit, parts, Option.map_some]

/-! ## Trees that equal themselves -/

/-- Where the node is a number, it has the property. -/
def Node.Numeric (property : Binary64 → Prop) : Node → Prop
  | .expression (.number value) => property value
  | .expression _ | .statement _ => True

theorem Binary64.equal_self_iff {value : Binary64} : value.equal value = true ↔ value ≠ .nan := by
  cases value <;> simp [Binary64.equal]

mutual

/-- A tree equals itself exactly if no `nan` occurs in it. -/
theorem Expr.equal_self_iff :
    ∀ expr : Expr, expr.equal expr = true ↔ expr.All (Node.Numeric (· ≠ .nan))
  | .number value => by simp [Expr.equal, Expr.All, Node.Numeric, Binary64.equal_self_iff]
  | .text value | .symbol value => by simp [Expr.equal, Expr.All, Node.Numeric]
  | .binary left operator right | .assignment left operator right => by
    simp [Expr.equal, Expr.All, Node.Numeric, left.equal_self_iff, right.equal_self_iff]
  | .range left right | .element left right => by
    simp [Expr.equal, Expr.All, Node.Numeric, left.equal_self_iff, right.equal_self_iff]
  | .operation operator operand => by
    simp [Expr.equal, Expr.All, Node.Numeric, operand.equal_self_iff]
  | .member object name => by
    simp [Expr.equal, Expr.All, Node.Numeric, object.equal_self_iff]
  | .call callee arguments | .creation callee arguments => by
    simp [Expr.equal, Expr.All, Node.Numeric, callee.equal_self_iff, equalExprs_self_iff arguments]
  | .array elements => by
    simp [Expr.equal, Expr.All, Node.Numeric, equalExprs_self_iff elements]
  | .function signature body => by
    simp [Expr.equal, Expr.All, Node.Numeric, equalStatements_self_iff body]

theorem equalExprs_self_iff :
    ∀ exprs : List Expr, equalExprs exprs exprs = true ↔ allExprs (Node.Numeric (· ≠ .nan)) exprs
  | [] => by simp [equalExprs, allExprs]
  | expr :: rest => by
    simp [equalExprs, allExprs, expr.equal_self_iff, equalExprs_self_iff rest]

theorem equalOptionalExpr_self_iff : ∀ value : Option Expr,
    equalOptionalExpr value value = true ↔ allOptionalExpr (Node.Numeric (· ≠ .nan)) value
  | none => by simp [equalOptionalExpr, allOptionalExpr]
  | some expr => by simp [equalOptionalExpr, allOptionalExpr, expr.equal_self_iff]

theorem Statement.equal_self_iff : ∀ statement : Statement,
    statement.equal statement = true ↔ statement.All (Node.Numeric (· ≠ .nan))
  | .block body | .function _ _ body | .classDeclaration _ body => by
    simp [Statement.equal, Statement.All, Node.Numeric, equalStatements_self_iff body]
  | .declaration _ _ value _ => by
    simp [Statement.equal, Statement.All, Node.Numeric, equalOptionalExpr_self_iff value]
  | .expression value => by
    simp [Statement.equal, Statement.All, Node.Numeric, value.equal_self_iff]
  | .conditional condition consequent alternative => by
    simp [Statement.equal, Statement.All, Node.Numeric, condition.equal_self_iff,
      equalStatements_self_iff consequent, equalOptionalStatement_self_iff alternative, and_assoc]
  | .importing _ _ => by simp [Statement.equal, Statement.All, Node.Numeric]
  | .foreach _ _ iterable body => by
    simp [Statement.equal, Statement.All, Node.Numeric, iterable.equal_self_iff,
      equalStatements_self_iff body]
  | .returning value => by
    simp [Statement.equal, Statement.All, Node.Numeric, equalOptionalExpr_self_iff value]
  | .loop condition body => by
    simp [Statement.equal, Statement.All, Node.Numeric, condition.equal_self_iff,
      equalStatements_self_iff body]

theorem equalStatements_self_iff : ∀ body : List Statement,
    equalStatements body body = true ↔ allStatements (Node.Numeric (· ≠ .nan)) body
  | [] => by simp [equalStatements, allStatements]
  | statement :: rest => by
    simp [equalStatements, allStatements, statement.equal_self_iff, equalStatements_self_iff rest]

theorem equalOptionalStatement_self_iff : ∀ alternative : Option Statement,
    equalOptionalStatement alternative alternative = true ↔
      allAlternative (Node.Numeric (· ≠ .nan)) alternative
  | none => by simp [equalOptionalStatement, allAlternative]
  | some statement => by simp [equalOptionalStatement, allAlternative, statement.equal_self_iff]

end

/-! ## Numbers among the items -/

/-- Where the item is a number, it has the property. -/
def Item.Numeric (property : Binary64 → Prop) : Item → Prop
  | .number value => property value
  | .name _ | .operator _ | .mark _ => True

section Numbers

variable {property : Binary64 → Prop}

mutual

/-- Every number in a tree is among its items. -/
theorem Expr.all_numeric : ∀ {expr : Expr}, (∀ item ∈ expr.items, item.Numeric property) →
    expr.All (Node.Numeric property)
  | .number _, numeric => numeric _ List.mem_cons_self
  | .text _, _ | .symbol _, _ => trivial
  | .binary _ _ _, numeric | .assignment _ _ _, numeric | .range _ _, numeric => by
    obtain ⟨first, second⟩ := List.forall_mem_append.mp numeric
    exact ⟨trivial, Expr.all_numeric first, Expr.all_numeric (List.forall_mem_cons.mp second).2⟩
  | .operation _ _, numeric => ⟨trivial, Expr.all_numeric (List.forall_mem_cons.mp numeric).2⟩
  | .member _ _, numeric => ⟨trivial, Expr.all_numeric (List.forall_mem_append.mp numeric).1⟩
  | .element _ _, numeric => by
    obtain ⟨first, second⟩ := List.forall_mem_append.mp numeric
    exact ⟨trivial, Expr.all_numeric first, Expr.all_numeric second⟩
  | .call _ _, numeric | .creation _ _, numeric => by
    obtain ⟨first, second⟩ := List.forall_mem_append.mp numeric
    exact ⟨trivial, Expr.all_numeric first, allExprs_numeric second⟩
  | .array _, numeric => ⟨trivial, allExprs_numeric numeric⟩
  | .function _ _, numeric =>
    ⟨trivial, allStatements_numeric (List.forall_mem_append.mp numeric).2⟩

theorem allExprs_numeric : ∀ {exprs : List Expr},
    (∀ item ∈ exprsItems exprs, item.Numeric property) → allExprs (Node.Numeric property) exprs
  | [], _ => trivial
  | _ :: _, numeric => by
    obtain ⟨first, others⟩ := List.forall_mem_append.mp numeric
    exact ⟨Expr.all_numeric first, allExprs_numeric others⟩

theorem allOptionalExpr_numeric : ∀ {value : Option Expr},
    (∀ item ∈ optionalItems value, item.Numeric property) →
      allOptionalExpr (Node.Numeric property) value
  | none, _ => trivial
  | some _, numeric => Expr.all_numeric numeric

theorem allAssigned_numeric : ∀ {value : Option Expr},
    (∀ item ∈ assignedItems value, item.Numeric property) →
      allOptionalExpr (Node.Numeric property) value
  | none, _ => trivial
  | some _, numeric => Expr.all_numeric (List.forall_mem_cons.mp numeric).2

theorem Statement.all_numeric : ∀ {statement : Statement},
    (∀ item ∈ statement.items, item.Numeric property) → statement.All (Node.Numeric property)
  | .block _, numeric => ⟨trivial, allStatements_numeric numeric⟩
  | .declaration _ _ _ _, numeric =>
    ⟨trivial, allAssigned_numeric (List.forall_mem_append.mp numeric).2⟩
  | .expression _, numeric => ⟨trivial, Expr.all_numeric numeric⟩
  | .function _ _ _, numeric =>
    ⟨trivial, allStatements_numeric (List.forall_mem_append.mp numeric).2⟩
  | .conditional _ _ _, numeric => by
    obtain ⟨front, third⟩ := List.forall_mem_append.mp numeric
    obtain ⟨first, second⟩ := List.forall_mem_append.mp front
    exact ⟨trivial, Expr.all_numeric first, allStatements_numeric second,
      allAlternative_numeric third⟩
  | .importing _ _, _ => trivial
  | .foreach _ _ _ _, numeric => by
    obtain ⟨front, second⟩ := List.forall_mem_append.mp numeric
    obtain ⟨-, first⟩ := List.forall_mem_append.mp front
    exact ⟨trivial, Expr.all_numeric first, allStatements_numeric second⟩
  | .classDeclaration _ _, numeric =>
    ⟨trivial, allStatements_numeric (List.forall_mem_cons.mp numeric).2⟩
  | .returning _, numeric => ⟨trivial, allOptionalExpr_numeric numeric⟩
  | .loop _ _, numeric => by
    obtain ⟨first, second⟩ := List.forall_mem_append.mp numeric
    exact ⟨trivial, Expr.all_numeric first, allStatements_numeric second⟩

theorem allStatements_numeric : ∀ {body : List Statement},
    (∀ item ∈ statementsItems body, item.Numeric property) →
      allStatements (Node.Numeric property) body
  | [], _ => trivial
  | _ :: _, numeric => by
    obtain ⟨first, others⟩ := List.forall_mem_append.mp numeric
    exact ⟨Statement.all_numeric first, allStatements_numeric others⟩

theorem allAlternative_numeric : ∀ {alternative : Option Statement},
    (∀ item ∈ alternativeItems alternative, item.Numeric property) →
      allAlternative (Node.Numeric property) alternative
  | none, _ => trivial
  | some _, numeric => Statement.all_numeric numeric

end

/-- Every item was kept of a token that was passed. -/
theorem Keeps.exists_token {ahead left : List Token} {items : List Item}
    (keeps : Keeps ahead left items) : ∀ item ∈ items, ∃ token ∈ ahead, token.Means item := by
  obtain ⟨passed, rfl, means⟩ := keeps
  have inside : ∀ token ∈ tellingTokens passed, token ∈ passed ++ left := fun token member =>
    List.mem_append_left left (List.mem_of_mem_filter member)
  generalize tellingTokens passed = telling at means inside
  induction means with
  | nil =>
      intro item member
      cases member
  | @cons token item tokens items meant _ ih =>
      have others := ih fun token member => inside token (List.mem_cons_of_mem _ member)
      exact List.forall_mem_cons.mpr ⟨⟨token, inside token List.mem_cons_self, meant⟩, others⟩

end Numbers

/-! ## Texts -/

/-- The numbers among the tokens can be read, and none is `nan` or has a sign. -/
def ReadableNumbers (tokens : List Token) : Prop :=
  ∀ token ∈ tokens, token.kind = .number →
    ∃ value, Binary64.ofNumeral? token.text = some value ∧ value ≠ .nan ∧ value.negative = false

theorem readableNumbers_of_tokenize {source : String} {tokens : List Token}
    (scanned : tokenize source = .ok tokens) : ReadableNumbers tokens := by
  obtain ⟨words, rfl, canonical⟩ := exists_canonical_of_tokenize scanned
  rintro ⟨kind, text⟩ member rfl
  rcases List.mem_append.mp member with inside | last
  · exact exists_ofNumeral?_of_isNumeral (canonical _ inside)
  · cases List.mem_singleton.mp last

theorem ReadableNumbers.closeStream {tokens : List Token} (readable : ReadableNumbers tokens) :
    ReadableNumbers (Cursor.closeStream tokens) := by
  unfold Cursor.closeStream
  split
  · exact readable
  · refine List.forall_mem_append.mpr ⟨readable, List.forall_mem_singleton.mpr ?_⟩
    intro number
    cases number

/-- **The numbers of a text can be read.** Each stands for a number that is not `nan` and has no
sign; no text is refused for a number; and the tree of a text that is accepted has no `nan` in it
and equals itself. -/
theorem parseSource_numbers (source : String) :
    (∀ tokens, tokenize source = .ok tokens → ReadableNumbers tokens) ∧
    (∀ text place, parseSource source ≠ .refused ⟨.unreadableNumber text, place⟩) ∧
    ∀ body, parseSource source = .accepted body →
      allStatements (Node.Numeric (· ≠ .nan)) body ∧
        (parseSource source).equal (parseSource source) = true := by
  refine ⟨fun tokens scanned => readableNumbers_of_tokenize scanned, ?_, ?_⟩
  · intro text place refused
    unfold parseSource parseSourceWith at refused
    split at refused
    · rename_i scanned
      cases refused
      cases (line?_of_tokenize scanned).1
    · rename_i tokens scanned
      obtain ⟨before, current, behind, stream, -, same, unreadable⟩ :=
        pointsInto_of_parseWith Tables.Paired.language refused
      have member : current ∈ Cursor.closeStream tokens := by simp [stream]
      have number : current.kind = .number := by rw [same]
      obtain ⟨value, found, -⟩ :=
        (readableNumbers_of_tokenize scanned).closeStream current member number
      rw [same, unreadable] at found
      cases found
  · intro body accepted
    have numeric : allStatements (Node.Numeric (· ≠ .nan)) body := by
      unfold parseSource parseSourceWith at accepted
      split at accepted
      · cases accepted
      · rename_i tokens scanned
        have reads := (parseWith_eq_accepted_iff Tables.Grounded.language).mp accepted
        obtain ⟨_, _, -, row⟩ := readsProgram_iff.mp reads
        refine allStatements_numeric ?_
        intro item member
        obtain ⟨token, inside, means⟩ := (keeps_of_readsRow row).exists_token item member
        cases item with
        | name | operator | mark => trivial
        | number value =>
            obtain ⟨value', found, proper, -⟩ :=
              (readableNumbers_of_tokenize scanned).closeStream token inside means.1
            rw [means.2] at found
            cases found
            exact proper
    refine ⟨numeric, ?_⟩
    rw [accepted]
    exact (equalStatements_self_iff body).mpr numeric

/-- A declaration with two numbers, one of them inside a call. -/
theorem declared_difference_numbers :
    let source := "let x = 1.5 - f(20);"
    let tokens : List Token :=
      [⟨.letWord, "let"⟩, ⟨.identifier, "x"⟩, ⟨.assignment, "="⟩, ⟨.number, "1.5"⟩, ⟨.dash, "-"⟩,
        ⟨.identifier, "f"⟩, ⟨.openParen, "("⟩, ⟨.number, "20"⟩, ⟨.closeParen, ")"⟩,
        ⟨.semicolon, ";"⟩, ⟨.endOfInput, "EOF"⟩]
    (tokenize source = .ok tokens ∧ ReadableNumbers tokens) ∧
      ∃ body, parseSource source = .accepted body ∧
        allStatements (Node.Numeric (· ≠ .nan)) body ∧
          (parseSource source).equal (parseSource source) = true := by
  intro source tokens
  obtain ⟨readable, -, numeric⟩ := parseSource_numbers source
  have scanned : tokenize source = .ok tokens := by decide +kernel
  have accepted : (parseSource source).isAccepted = true := by decide +kernel
  refine ⟨⟨scanned, readable tokens scanned⟩, ?_⟩
  cases outcome : parseSource source with
  | accepted body =>
      refine ⟨body, rfl, ?_⟩
      rw [← outcome]
      exact numeric body outcome
  | refused diagnostic =>
      rw [outcome] at accepted
      cases accepted
  | exhausted =>
      rw [outcome] at accepted
      cases accepted

end ScriptReader
