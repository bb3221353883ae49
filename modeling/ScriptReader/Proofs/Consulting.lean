/- # ScriptReader.Proofs.Consulting — which entries of the tables count

Wherever the cursor stands, the tables are asked for the kind of the current token and
for no other. So two tables with the same entries for the kinds that are ahead give the
same answer, with any number of levels (`answer_eq_of_agreeAt`), and a program is read
alike under tables that agree about its tokens and the end of input. Tables may be
extended for other kinds without any effect on it (`parse_consults_present_kinds`).

Nothing is assumed of the tables: entries for the end of input, rules on tokens that they
were not written for, and infix rules for types are all allowed.
-/
import ScriptReader.Proofs.Staying

namespace ScriptReader

set_option autoImplicit false

/-! ## Tables with the same entries -/

namespace Tables

/-- Both tables have the same entries for the kind. -/
structure AgreeAt (tables tables' : Tables) (kind : TokenKind) : Prop where
  statementRule : tables.statementRule kind = tables'.statementRule kind
  prefixRule : tables.prefixRule kind = tables'.prefixRule kind
  infixRule : tables.infixRule kind = tables'.infixRule kind
  infixPower : tables.infixPower kind = tables'.infixPower kind
  typePrefixRule : tables.typePrefixRule kind = tables'.typePrefixRule kind
  typeInfixRule : tables.typeInfixRule kind = tables'.typeInfixRule kind
  typeInfixPower : tables.typeInfixPower kind = tables'.typeInfixPower kind

namespace AgreeAt

variable {tables tables' tables'' : Tables} {kind : TokenKind}

theorem refl (tables : Tables) (kind : TokenKind) : tables.AgreeAt tables kind :=
  ⟨rfl, rfl, rfl, rfl, rfl, rfl, rfl⟩

theorem trans (first : tables.AgreeAt tables' kind) (second : tables'.AgreeAt tables'' kind) :
    tables.AgreeAt tables'' kind where
  statementRule := first.statementRule.trans second.statementRule
  prefixRule := first.prefixRule.trans second.prefixRule
  infixRule := first.infixRule.trans second.infixRule
  infixPower := first.infixPower.trans second.infixPower
  typePrefixRule := first.typePrefixRule.trans second.typePrefixRule
  typeInfixRule := first.typeInfixRule.trans second.typeInfixRule
  typeInfixPower := first.typeInfixPower.trans second.typeInfixPower

theorem power (agree : tables.AgreeAt tables' kind) : tables.power kind = tables'.power kind := by
  rw [Tables.power, Tables.power, agree.infixPower]

theorem typePower (agree : tables.AgreeAt tables' kind) :
    tables.typePower kind = tables'.typePower kind := by
  rw [Tables.typePower, Tables.typePower, agree.typeInfixPower]

end AgreeAt

end Tables

/-- The kind that an entry is for. -/
def Entry.kind : Entry → TokenKind
  | .statement kind _ | .prefixForm kind _ | .infixForm kind _ _ | .typePrefix kind _
  | .typeInfix kind _ _ | .ownStatement kind _ | .ownPrefix kind _ | .ownInfix kind _ _
  | .ownTypePrefix kind _ => kind

namespace Tables

theorem agreeAt_insert (tables : Tables) {entry : Entry} {kind : TokenKind}
    (different : kind ≠ entry.kind) : (tables.insert entry).AgreeAt tables kind := by
  have same := AgreeAt.refl tables kind
  cases entry with
  | statement _ _ | ownStatement _ _ =>
      exact { same with statementRule := assign_of_ne different }
  | prefixForm _ _ | ownPrefix _ _ =>
      exact { same with prefixRule := assign_of_ne different }
  | infixForm _ _ _ | ownInfix _ _ _ =>
      exact { same with
        infixRule := assign_of_ne different
        infixPower := assign_of_ne different }
  | typePrefix _ _ | ownTypePrefix _ _ =>
      exact { same with typePrefixRule := assign_of_ne different }
  | typeInfix _ _ _ =>
      exact { same with
        typeInfixRule := assign_of_ne different
        typeInfixPower := assign_of_ne different }

theorem agreeAt_extend (tables : Tables) {entries : List Entry} {kind : TokenKind}
    (different : ∀ entry ∈ entries, kind ≠ entry.kind) :
    (tables.extend entries).AgreeAt tables kind := by
  refine List.foldlRecOn (motive := fun later => later.AgreeAt tables kind) entries Tables.insert
    (.refl tables kind) ?_
  intro later agree entry member
  exact (later.agreeAt_insert (different entry member)).trans agree

end Tables

/-! ## The same answers -/

namespace Recipe

theorem run_kind_bind {α : Type} {answer : (phrase : Phrase) → Cursor → Outcome phrase.Value}
    (next : TokenKind → Recipe α) (cursor : Cursor) :
    (kind >>= next).run answer cursor = (next cursor.kind).run answer cursor := rfl

/-- A run asks for answers from the cursor on, and for no others. -/
theorem run_congr {α : Type} {answer answer' : (phrase : Phrase) → Cursor → Outcome phrase.Value}
    (stays : ∀ phrase cursor value cursor', answer phrase cursor = .accepted value cursor' →
      cursor.Leads cursor')
    {recipe : Recipe α} {cursor : Cursor}
    (same : ∀ phrase later, cursor.Leads later → answer phrase later = answer' phrase later) :
    recipe.run answer cursor = recipe.run answer' cursor := by
  induction recipe generalizing cursor with
  | yield value => rfl
  | refuse cause => rfl
  | peek next ih => exact ih _ same
  | readToken fault next ih =>
      rw [run_readToken, run_readToken]
      cases fault cursor.current with
      | some cause => rfl
      | none =>
          refine ih _ ?_
          intro phrase later leads
          exact same phrase later (cursor.leads_next.trans leads)
  | readPhrase phrase fault next ih =>
      rw [run_readPhrase, run_readPhrase, ← same phrase cursor (.refl _)]
      cases inner : answer phrase cursor with
      | refused diagnostic cursor' => rfl
      | exhausted => rfl
      | accepted value cursor' =>
          have step := stays _ _ _ _ inner
          dsimp only
          cases fault value with
          | some cause => rfl
          | none => exact ih _ fun phrase later leads => same phrase later (step.trans leads)

end Recipe

section Agreeing

variable {tables tables' : Tables} {cursor : Cursor}

/-- The recipe of a phrase consults the tables about the current token. -/
theorem Phrase.run_recipe_of_agreeAt (agree : tables.AgreeAt tables' cursor.kind) (phrase : Phrase)
    (answer : (phrase : Phrase) → Cursor → Outcome phrase.Value) :
    (phrase.recipe tables).run answer cursor = (phrase.recipe tables').run answer cursor := by
  cases phrase with
  | expression least =>
      simp only [Phrase.recipe, Recipe.expressionPhrase, Recipe.run_kind_bind, agree.prefixRule]
  | expressionTail least left =>
      simp only [Phrase.recipe, Recipe.expressionTailPhrase, Recipe.run_kind_bind, agree.power,
        agree.infixRule]
  | type least =>
      simp only [Phrase.recipe, Recipe.typePhrase, Recipe.run_kind_bind, agree.typePrefixRule]
  | typeTail least left =>
      simp only [Phrase.recipe, Recipe.typeTailPhrase, Recipe.run_kind_bind, agree.typePower,
        agree.typeInfixRule]
  | statement =>
      simp only [Phrase.recipe, Recipe.statementPhrase, Recipe.run_kind_bind, agree.statementRule]
  | statements | conditional | arguments | parameters => rfl

/-- Tables that agree about the tokens ahead give the same answer. -/
theorem answer_eq_of_agreeAt {levels : Nat} {phrase : Phrase}
    (agree : ∀ token ∈ cursor.ahead, tables.AgreeAt tables' token.kind) :
    answer tables levels phrase cursor = answer tables' levels phrase cursor := by
  induction levels generalizing phrase cursor with
  | zero => rfl
  | succ levels ih =>
      have here := agree cursor.current List.mem_cons_self
      change (phrase.recipe tables).run (answer tables levels) cursor =
        (phrase.recipe tables').run (answer tables' levels) cursor
      rw [Phrase.run_recipe_of_agreeAt here]
      refine Recipe.run_congr (fun _ _ _ _ inner => leads_of_answer inner) ?_
      intro phrase later leads
      exact ih fun token member => agree token (leads.1.subset member)

theorem readStatements_eq_of_agreeAt {levels : Nat}
    (agree : ∀ token ∈ cursor.ahead, tables.AgreeAt tables' token.kind) :
    readStatements tables levels cursor = readStatements tables' levels cursor := by
  induction levels generalizing cursor with
  | zero => rfl
  | succ levels ih =>
      rw [readStatements, readStatements, ← answer_eq_of_agreeAt agree]
      split
      · cases first : answer tables levels .statement cursor with
        | refused diagnostic cursor' => rfl
        | exhausted => rfl
        | accepted statement cursor' =>
            have leads := leads_of_answer first
            dsimp only
            rw [ih fun token member => agree token (leads.1.subset member)]
      · rfl

end Agreeing

/-! ## Programs -/

/-- A token of the stream that is read was given, or is the end of input. -/
theorem kind_mem_of_mem_closeStream {tokens : List Token} {token : Token}
    (member : token ∈ Cursor.closeStream tokens) :
    token.kind = .endOfInput ∨ token.kind ∈ tokens.map Token.kind := by
  unfold Cursor.closeStream at member
  split at member
  · exact .inr (List.mem_map_of_mem member)
  · rcases List.mem_append.mp member with given | added
    · exact .inr (List.mem_map_of_mem given)
    · rw [List.mem_singleton.mp added]
      exact .inl rfl

/-- **Entries for kinds that do not occur are irrelevant.** Under tables that have the same
entries for the kinds of the tokens and for the end of input, a program is read alike: whatever
the number of levels, the same statements are read and the reading ends in the same way. So
either both readings never settle, or they settle with the same verdict. In particular, entries
for further kinds change nothing. -/
theorem parse_consults_present_kinds (tables : Tables) (tokens : List Token) :
    (∀ tables' : Tables,
      (∀ kind, kind = .endOfInput ∨ kind ∈ tokens.map Token.kind → tables.AgreeAt tables' kind) →
        (∀ levels, readStatements tables levels (.start tokens) =
          readStatements tables' levels (.start tokens)) ∧
        parseWith tables tokens = parseWith tables' tokens) ∧
    ∀ entries : List Entry,
      (∀ entry ∈ entries, entry.kind ≠ .endOfInput ∧ entry.kind ∉ tokens.map Token.kind) →
        (∀ levels, readStatements (tables.extend entries) levels (.start tokens) =
          readStatements tables levels (.start tokens)) ∧
        parseWith (tables.extend entries) tokens = parseWith tables tokens := by
  have alike : ∀ tables tables' : Tables,
      (∀ kind, kind = .endOfInput ∨ kind ∈ tokens.map Token.kind → tables.AgreeAt tables' kind) →
        (∀ levels, readStatements tables levels (.start tokens) =
          readStatements tables' levels (.start tokens)) ∧
        parseWith tables tokens = parseWith tables' tokens := by
    intro tables tables' agree
    have same : ∀ levels, readStatements tables levels (.start tokens) =
        readStatements tables' levels (.start tokens) := by
      intro levels
      refine readStatements_eq_of_agreeAt fun token member => agree token.kind ?_
      rw [Cursor.start_eq_facing, Cursor.ahead_facing (Cursor.closeStream_ne_nil tokens)] at member
      exact kind_mem_of_mem_closeStream member
    refine ⟨same, ?_⟩
    rw [parseWith, readProgram, same, parseWith, readProgram]
  refine ⟨alike tables, ?_⟩
  intro entries absent
  refine alike _ _ fun kind present => tables.agreeAt_extend fun entry member => ?_
  rintro rfl
  exact present.elim (absent entry member).1 (absent entry member).2

/-- Further entries, a rule for types among them, for a program that is accepted; and for tables
under which the same program is never settled. -/
theorem further_entries_consulted_nowhere :
    let further : List Entry :=
      [.prefixForm .plusPlus .operation, .infixForm .question .additive .binary,
        .typeInfix .question .unary .rightSide]
    let endless := Tables.language.extend [.statement .identifier .anyStatement]
    let tokens : List Token := [⟨.identifier, "x"⟩, ⟨.semicolon, ";"⟩]
    (∀ entry ∈ further, entry.kind ≠ .endOfInput ∧ entry.kind ∉ tokens.map Token.kind) ∧
      parseWith (Tables.language.extend further) tokens =
        .accepted [.expression (.symbol "x")] ∧
      parseWith (endless.extend further) tokens = .exhausted := by
  intro further endless tokens
  have absent : ∀ entry ∈ further,
      entry.kind ≠ .endOfInput ∧ entry.kind ∉ tokens.map Token.kind := by decide
  have accepted : parseWith .language tokens = .accepted [.expression (.symbol "x")] := by cbv
  have unsettled : parseWith endless tokens = .exhausted := by cbv
  obtain ⟨-, same⟩ := (parse_consults_present_kinds .language tokens).2 further absent
  obtain ⟨-, same'⟩ := (parse_consults_present_kinds endless tokens).2 further absent
  exact ⟨absent, same.trans accepted, same'.trans unsettled⟩

end ScriptReader
