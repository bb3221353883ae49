/- # ScriptReader.Proofs.RoundTrip — parsing inverts printing

Every well-formed program is read from the tokens it is written with, whatever texts
its numbers are written with (`parse_statementsTokens`). The induction is over all
trees at once, one case for each form; what a form needs of its parts is proved in
`ScriptReader.Proofs.Rereading`. Since trees that are read are well formed, every
program that is accepted can be written down and read again.
-/
import ScriptReader.Proofs.Acceptance
import ScriptReader.Proofs.Rereading

namespace ScriptReader

set_option autoImplicit false

/-! ## Well-formed trees are read from their tokens -/

section Trees

variable (spelling : Spelling)

theorem Statement.exists_tokens_eq_cons {statement : Statement} (second : statement.isAlternative) :
    ∃ token rest, statement.tokens spelling = token :: rest ∧ token.kind ∈ [.ifWord, .openCurly] := by
  cases statement with
  | block body => exact ⟨_, _, rfl, by decide⟩
  | conditional condition consequent alternative => exact ⟨_, _, rfl, by decide⟩
  | _ => cases second

mutual

/-- A well-formed expression is read from its tokens. -/
theorem Expr.readAs_tokens : ∀ expr : Expr, expr.WellFormed → ReadAs (expr.tokens spelling) expr
  | .number value, spellable => readAs_number (spelling.reads value spellable)
  | .text _, _ => readAs_token (by decide) rfl
  | .symbol _, _ => readAs_token (by decide) rfl
  | .binary left _ right, ⟨found, first, second⟩ =>
    readAs_join .binary rfl found (left.readAs_tokens first) (right.readAs_tokens second)
  | .assignment target _ value, ⟨found, first, second⟩ =>
    readAs_join .assignment rfl found (target.readAs_tokens first) (value.readAs_tokens second)
  | .range lower upper, ⟨first, second⟩ =>
    readAs_join .range rfl (by decide) (lower.readAs_tokens first) (upper.readAs_tokens second)
  | .operation _ operand, ⟨found, wellFormed⟩ =>
    readAs_operation found (operand.readAs_tokens wellFormed)
  | .member object _, wellFormed => readAs_member (object.readAs_tokens wellFormed)
  | .element object index, ⟨first, second⟩ =>
    readAs_element (object.readAs_tokens first) (index.readAs_tokens second)
  | .call callee arguments, ⟨first, others⟩ =>
    readAs_call (callee.readAs_tokens first) (readAsList_exprsTokens arguments others)
  | .creation callee arguments, ⟨first, others⟩ =>
    readAs_creation (callee.readAs_tokens first) (readAsList_exprsTokens arguments others)
  | .array elements, wellFormed => readAs_array (readAsList_exprsTokens elements wellFormed)
  | .function signature body, wellFormed =>
    readAs_function signature (readAsBody_statementsTokens body wellFormed)

theorem readAsList_exprsTokens : ∀ exprs : List Expr, wellFormedExprs exprs →
    ReadAsList (exprsTokens spelling exprs) exprs
  | [], _ => readAsList_nil
  | expr :: rest, ⟨first, others⟩ =>
    readAsList_cons (expr.readAs_tokens first) (readAsList_exprsTokens rest others)

theorem rel_optionalExprTokens : ∀ value : Option Expr, wellFormedOptionalExpr value →
    Option.Rel ReadAs (optionalExprTokens spelling value) value
  | none, _ => .none
  | some expr, wellFormed => .some (expr.readAs_tokens wellFormed)

/-- A well-formed statement is read from its tokens. -/
theorem Statement.readAs_tokens : ∀ statement : Statement, statement.WellFormed →
    ReadAsStatement (statement.tokens spelling) statement
  | .block body, wellFormed =>
    readAsStatement_block (readAsBody_statementsTokens body wellFormed)
  | .declaration name _ value _, ⟨settled, assigned, wellFormed⟩ =>
    readAsStatement_declaration name settled assigned (rel_optionalExprTokens value wellFormed)
  | .expression value, wellFormed => readAsStatement_expression (value.readAs_tokens wellFormed)
  | .function name signature body, wellFormed =>
    readAsStatement_function name signature (readAsBody_statementsTokens body wellFormed)
  | .conditional condition consequent alternative, ⟨tested, inner, second⟩ =>
    readAsStatement_conditional (condition.readAs_tokens tested)
      (readAsBody_statementsTokens consequent inner) (rel_alternativeTokens alternative second)
  | .importing name source, _ => readAsStatement_importing name source
  | .foreach item index iterable body, ⟨collection, inner⟩ =>
    readAsStatement_foreach item index (iterable.readAs_tokens collection)
      (readAsBody_statementsTokens body inner)
  | .classDeclaration name body, wellFormed =>
    readAsStatement_classDeclaration name (readAsBody_statementsTokens body wellFormed)
  | .returning value, wellFormed =>
    readAsStatement_returning (rel_optionalExprTokens value wellFormed)
  | .loop condition body, ⟨tested, inner⟩ =>
    readAsStatement_loop (condition.readAs_tokens tested) (readAsBody_statementsTokens body inner)

theorem readAsBody_statementsTokens : ∀ body : List Statement, wellFormedStatements body →
    ReadAsBody (statementsTokens spelling body) body
  | [], _ => readAsBody_nil
  | statement :: rest, ⟨first, others⟩ =>
    readAsBody_cons (statement.readAs_tokens first) (readAsBody_statementsTokens rest others)

theorem rel_alternativeTokens : ∀ alternative : Option Statement,
    wellFormedAlternative alternative →
    Option.Rel ReadAsAlternative (alternativeTokens spelling alternative) alternative
  | none, _ => .none
  | some statement, ⟨second, wellFormed⟩ =>
    .some ⟨statement.readAs_tokens wellFormed, statement.exists_tokens_eq_cons spelling second⟩

end

end Trees

/-! ## Programs -/

variable {spelling : Spelling}

theorem wellFormed_of_readsProgram {ahead : List Token} {body : List Statement}
    (reads : ReadsProgram .language ahead body) : wellFormedStatements body := by
  induction reads with
  | done _ => trivial
  | more _ read _ ih => exact ⟨read.sound, ih⟩

/-- No end of input is written within a statement, since none could be read there. -/
theorem ReadAsStatement.endless {content : List Token} {statement : Statement}
    (read : ReadAsStatement content statement) : ∀ token ∈ content, token.kind ≠ .endOfInput := by
  have whole := read [.endOfInput] ⟨_, _, rfl, nofun⟩
  obtain ⟨spent, same, derives⟩ := whole.derived
  have spelled : content = spent := List.append_cancel_right same
  rw [spelled]
  exact derives.endless trivial

theorem endless_statementsTokens {body : List Statement} (wellFormed : wellFormedStatements body) :
    ∀ token ∈ statementsTokens spelling body, token.kind ≠ .endOfInput := by
  induction body with
  | nil => simp [statementsTokens]
  | cons statement rest ih =>
      obtain ⟨first, others⟩ := wellFormed
      have read := statement.readAs_tokens spelling first
      intro token member
      rcases List.mem_append.mp member with here | later
      · exact read.endless token here
      · exact ih others token later

theorem readsProgram_statementsTokens {body : List Statement}
    (wellFormed : wellFormedStatements body) :
    ReadsProgram .language (statementsTokens spelling body ++ [.endOfInput]) body := by
  induction body with
  | nil => exact .done rfl
  | cons statement rest ih =>
      obtain ⟨first, others⟩ := wellFormed
      have more := ih others
      have read := statement.readAs_tokens spelling first _ more.endsStatement
      rw [statementsTokens, List.append_assoc]
      exact .cons read more

/-- **Parsing inverts printing**, on every well-formed program and on every program that is
accepted. Trees are the same if they agree in every part, numbers by their representation, of
which `nan` has one. -/
theorem parse_statementsTokens (spelling : Spelling) :
    (∀ body, wellFormedStatements body →
      parse (statementsTokens spelling body) = .accepted body) ∧
    ∀ tokens body, parse tokens = .accepted body →
      parse (statementsTokens spelling body) = .accepted body := by
  have inverts : ∀ body, wellFormedStatements body →
      parse (statementsTokens spelling body) = .accepted body := by
    intro body wellFormed
    apply (parseWith_eq_accepted_iff Tables.Grounded.language).mpr
    rw [closeStream_of_endless (endless_statementsTokens wellFormed)]
    exact readsProgram_statementsTokens wellFormed
  refine ⟨inverts, ?_⟩
  intro tokens body accepted
  apply inverts body
  exact wellFormed_of_readsProgram ((parseWith_eq_accepted_iff Tables.Grounded.language).mp accepted)

/-- A returned sign, written; and a difference, as it was accepted and written. The number in it
lies between two that have no fraction of their own, and is written with a digit more. -/
theorem sign_and_difference_read_back :
    let dash : Token := ⟨.dash, "-"⟩
    let x : Token := ⟨.identifier, "x"⟩
    let tenth : Binary64 := .finite false 7205759403792794 (-56)
    let returned : List Statement := [.returning (some (.operation dash (.symbol "x")))]
    let difference : List Statement := [.expression (.binary (.symbol "x") dash (.number tenth))]
    (wellFormedStatements returned ∧
      parse (.ofKind .returnWord :: parenthesized (dash :: parenthesized [x]) ++
        [.ofKind .semicolon]) = .accepted returned) ∧
    parse [x, dash, ⟨.number, "0.1"⟩, .ofKind .semicolon] = .accepted difference ∧
      parse (parenthesized (parenthesized [x] ++ dash :: parenthesized [⟨.number, "0.10"⟩]) ++
        [.ofKind .semicolon]) = .accepted difference := by
  intro dash x tenth returned difference
  have reads : Binary64.ofNumeral? "0.10" = some tenth := by decide +kernel
  obtain ⟨spelling, written⟩ := exists_spelling reads
  obtain ⟨inverts, again⟩ := parse_statementsTokens spelling
  have wellFormed : wellFormedStatements returned := ⟨⟨by decide, trivial⟩, trivial⟩
  have accepted : parse [x, dash, ⟨.number, "0.1"⟩, .ofKind .semicolon] = .accepted difference := by
    unfold difference tenth dash x
    rfl
  refine ⟨⟨wellFormed, inverts returned wellFormed⟩, accepted, ?_⟩
  rw [← written]
  exact again _ difference accepted

end ScriptReader
