/- # ScriptReader.Proofs.Parentheses — parentheses leave no trace

A statement that stands for an expression is that expression up to its semicolon: no
other form of statement gives an expression, so the expression begins with the first
token and ends in front of the semicolon (`reads_expression_of_accepted`).

What ends an expression there may be exchanged for the parenthesis that closes a group,
and then for whatever stands behind the group. So an expression in parentheses is read
where the expression itself would be, with the same value, and any number of pairs around
it can be added one by one (`parse_enclose`).

The other way round this fails: in parentheses the expression does not begin the statement,
and a first token that would begin a statement of another form is read as an expression.
-/
import ScriptReader.Proofs.Composition

namespace ScriptReader

set_option autoImplicit false

/-- The tokens in pairs of parentheses, of which the first is outermost. -/
def enclose (pairs : List (String × String)) (tokens : List Token) : List Token :=
  pairs.foldr
    (fun pair inside => ⟨.openParen, pair.1⟩ :: (inside ++ [⟨.closeParen, pair.2⟩])) tokens

section Expressions

variable {tokens ahead left : List Token} {value : Expr} {closing : String}

/-- A statement of a form of its own is no expression. -/
theorem StatementRule.ne_expression {rule : StatementRule} {kind : TokenKind}
    {statement : Statement} (found : kind ∈ rule.kinds)
    (read : rule.recipe.Reads (Phrase.Reads .language) ahead statement left) :
    statement ≠ .expression value := by
  rintro rfl
  cases rule with
  | anyStatement | expression => cases found
  | block =>
      obtain ⟨body, -, same⟩ := Recipe.reads_blockStatement.mp read
      cases same
  | declaration =>
      obtain ⟨_, _, _, _, _, _, _, -, -, -, same⟩ := Recipe.reads_declaration.mp read
      cases same
  | function =>
      obtain ⟨_, _, _, _, _, -, -, same⟩ := Recipe.reads_functionDeclaration.mp read
      cases same
  | conditional =>
      have read := Phrase.reads_iff.mp (Recipe.reads_conditional.mp read)
      obtain ⟨_, _, _, _, _, _, _, -, -, -, -, same⟩ := Recipe.reads_conditionalPhrase.mp read
      cases same
  | importing =>
      obtain ⟨_, _, _, _, _, -, -, same⟩ := Recipe.reads_importing.mp read
      cases same
  | foreach =>
      obtain ⟨_, _, _, _, _, _, _, _, _, -, -, -, -, same⟩ := Recipe.reads_foreach.mp read
      cases same
  | classDeclaration =>
      obtain ⟨_, _, _, _, -, -, same⟩ := Recipe.reads_classDeclaration.mp read
      cases same
  | returning =>
      rcases Recipe.reads_returning.mp read with ⟨_, _, -, same⟩ | ⟨_, _, _, _, _, -, -, -, same⟩
      · cases same
      · cases same
  | loop =>
      obtain ⟨_, _, _, _, _, -, -, -, same⟩ := Recipe.reads_loop.mp read
      cases same

/-- A statement that is an expression ends in a semicolon, in front of which the expression
ends. -/
theorem reads_expression_of_statement
    (read : Phrase.Reads .language .statement ahead (.expression value) left) :
    ∃ closing, Phrase.Reads .language (.expression .lowest) ahead value
      (⟨.semicolon, closing⟩ :: left) := by
  obtain ⟨_, _, -, ⟨-, read⟩ | ⟨_, found, read⟩⟩ :=
    Recipe.reads_statementPhrase.mp (Phrase.reads_iff.mp read)
  · obtain ⟨content, closing, read, same⟩ := Recipe.reads_expressionStatement.mp read
    cases same
    exact ⟨closing, read⟩
  · obtain ⟨rule, member, rfl⟩ := Tables.language_statementRule_iff.mp found
    exact absurd rfl (StatementRule.ne_expression member read)

/-- The expression of a program is read in front of anything that ends an expression, as it is in
front of its semicolon. -/
theorem reads_expression_of_accepted (endless : ∀ token ∈ tokens, token.kind ≠ .endOfInput)
    (accepted : parse (tokens ++ [⟨.semicolon, closing⟩]) = .accepted [.expression value])
    (stops : Stops .lowest left) :
    Phrase.Reads .language (.expression .lowest) (tokens ++ left) value left := by
  have endless' : ∀ token ∈ tokens ++ [⟨.semicolon, closing⟩], token.kind ≠ .endOfInput := by
    intro token member
    rcases List.mem_append.mp member with inside | last
    · exact endless token inside
    · rw [List.mem_singleton.mp last]
      simp
  have row := readsRow_of_accepted endless' accepted
  rw [List.append_assoc, List.singleton_append] at row
  generalize whole : tokens ++ [⟨.semicolon, closing⟩, .endOfInput] = stream at row
  obtain _ | ⟨-, read, ⟨⟩⟩ := row
  obtain ⟨closing', read⟩ := reads_expression_of_statement read
  obtain ⟨spent, same⟩ := read.suffix
  obtain ⟨rfl, -⟩ : spent = tokens ∧ _ := List.append_inj' (same.trans whole.symm) rfl
  rw [← same] at read
  exact read.in_front_of stops

/-- What is read as an expression is a program of one expression, unless its first token begins a
statement of a form of its own. -/
theorem accepted_of_reads_expression {token : Token} {rest : List Token}
    (plain : Tables.language.statementRule token.kind = none)
    (read : Phrase.Reads .language (.expression .lowest)
      (token :: rest ++ [⟨.semicolon, closing⟩]) value [⟨.semicolon, closing⟩]) :
    parse (token :: rest ++ [⟨.semicolon, closing⟩]) = .accepted [.expression value] := by
  obtain ⟨_, _, begins, other⟩ := Phrase.exists_head_of_reads_expression read
  cases begins
  have statement : Phrase.Reads .language .statement
      (token :: rest ++ [⟨.semicolon, closing⟩]) (.expression value) [] :=
    Phrase.reads_iff.mpr (Recipe.reads_statementPhrase.mpr ⟨_, _, rfl, .inl
      ⟨plain, Recipe.reads_expressionStatement.mpr ⟨value, closing, read, rfl⟩⟩⟩)
  have row : ReadsRow .language (token :: rest ++ [⟨.semicolon, closing⟩] ++ [])
      [.expression value] [] := by
    rw [List.append_nil]
    exact .more (TokenKind.ne_of_not_mem_endings other (by decide)) statement (.done [])
  exact accepted_of_readsRow row

/-! ## Groups -/

/-- An expression in parentheses is read where the expression itself is. -/
theorem reads_group {opening closing : String}
    (read : ∀ {left}, Stops .lowest left →
      Phrase.Reads .language (.expression .lowest) (tokens ++ left) value left)
    (stops : Stops .lowest left) :
    Phrase.Reads .language (.expression .lowest)
      (⟨.openParen, opening⟩ :: (tokens ++ [⟨.closeParen, closing⟩]) ++ left) value left := by
  have closes : Stops .lowest (⟨.closeParen, closing⟩ :: left) := stops_of_kind rfl
  rw [List.cons_append, List.append_assoc]
  exact Phrase.reads_expression_of_prefixRule .grouping (by decide)
    (Recipe.reads_grouping.mpr ⟨opening, _, closing, rfl, read closes⟩)
    (Phrase.reads_tail_of_stops stops)

/-- By induction on the pairs: each one is read around what was read inside it. -/
theorem reads_enclose (pairs : List (String × String))
    (read : ∀ {left}, Stops .lowest left →
      Phrase.Reads .language (.expression .lowest) (tokens ++ left) value left)
    (stops : Stops .lowest left) :
    Phrase.Reads .language (.expression .lowest) (enclose pairs tokens ++ left) value left := by
  induction pairs generalizing left with
  | nil => exact read stops
  | cons pair pairs ih => exact reads_group ih stops

end Expressions

/-- **Parentheses leave no trace.** A program of one expression is the same program with any number
of pairs of parentheses around the expression. -/
theorem parse_enclose {tokens : List Token} {value : Expr} {closing : String}
    (endless : ∀ token ∈ tokens, token.kind ≠ .endOfInput)
    (accepted : parse (tokens ++ [⟨.semicolon, closing⟩]) = .accepted [.expression value])
    (pairs : List (String × String)) :
    parse (enclose pairs tokens ++ [⟨.semicolon, closing⟩]) = .accepted [.expression value] := by
  cases pairs with
  | nil => exact accepted
  | cons pair pairs =>
      have stops : Stops .lowest [⟨.semicolon, closing⟩] := stops_of_kind rfl
      have read := reads_enclose (pair :: pairs)
        (reads_expression_of_accepted endless accepted) stops
      exact accepted_of_reads_expression rfl read

/-- Two pairs around `a = new b ( fn ( ) { c ; } )`. -/
theorem enclosed_creation_accepted :
    let creation : List Token :=
      [⟨.identifier, "a"⟩, ⟨.assignment, "="⟩, ⟨.newWord, "new"⟩, ⟨.identifier, "b"⟩,
        ⟨.openParen, "("⟩, ⟨.fnWord, "fn"⟩, ⟨.openParen, "("⟩, ⟨.closeParen, ")"⟩,
        ⟨.openCurly, "\x7b"⟩, ⟨.identifier, "c"⟩, ⟨.semicolon, ";"⟩, ⟨.closeCurly, "\x7d"⟩,
        ⟨.closeParen, ")"⟩]
    let value : Expr := .assignment (.symbol "a") ⟨.assignment, "="⟩
      (.creation (.symbol "b") [.function ⟨[], none⟩ [.expression (.symbol "c")]])
    (∀ token ∈ creation, token.kind ≠ .endOfInput) ∧
      parse (creation ++ [⟨.semicolon, ";"⟩]) = .accepted [.expression value] ∧
      parse (enclose [("(", ")"), ("(", ")")] creation ++ [⟨.semicolon, ";"⟩]) =
        .accepted [.expression value] := by
  intro creation value
  have endless : ∀ token ∈ creation, token.kind ≠ .endOfInput := by decide
  have accepted : parse (creation ++ [⟨.semicolon, ";"⟩]) = .accepted [.expression value] := by cbv
  exact ⟨endless, accepted, parse_enclose endless accepted [("(", ")"), ("(", ")")]⟩

/-- A function literal is an expression only in parentheses: without them a declaration begins. -/
example :
    let literal : List Token :=
      [⟨.fnWord, "fn"⟩, ⟨.openParen, "("⟩, ⟨.closeParen, ")"⟩, ⟨.openCurly, "\x7b"⟩,
        ⟨.closeCurly, "\x7d"⟩]
    parse (enclose [("(", ")")] literal ++ [⟨.semicolon, ";"⟩]) =
        .accepted [.expression (.function ⟨[], none⟩ [])] ∧
      parse (literal ++ [⟨.semicolon, ";"⟩]) =
        .refused ⟨.unexpected .identifier .openParen, .token 1⟩ :=
  ⟨by cbv, by cbv⟩

end ScriptReader
