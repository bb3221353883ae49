/- # ScriptReader.Proofs.Tracing — what a log tells of a program

A log has a line for each milestone that reading a text passes. The lines name no
tokens, but they tell what was parsed: a refused stream is a program, whose statements
are those of the log, in front of a stream that is refused in its first statement
(`parse_refused_split`). The two parts are parsed here one by one, so the log of a
refused text is the log of the program that stands in front.

Each form of statement has a name of its own (`Statement.Named`), and these are the names
in a log (`named_formName`).

The number of lines that is written counts the line feeds of the whole text, wherever
they stand (`scan_lines_eq`), in 32 bits.
-/
import ScriptReader.Trace
import ScriptReader.Proofs.Composition
import ScriptReader.Proofs.Refusing
import ScriptReader.Proofs.Scanning

namespace ScriptReader

set_option autoImplicit false

/-! ## Where a refused stream is divided -/

/-- What is left of a stream behind some of its tokens is the stream of what is left of the
tokens. -/
theorem exists_closeStream_eq_append {tokens before stop : List Token}
    (endless : ∀ token ∈ before, token.kind ≠ .endOfInput)
    (stream : Cursor.closeStream tokens = before ++ stop) (some : stop ≠ []) :
    ∃ after, tokens = before ++ after ∧ Cursor.closeStream after = stop := by
  obtain ⟨after, rfl⟩ := prefix_of_closeStream_eq stream some
  rw [closeStream_append endless] at stream
  exact ⟨after, rfl, List.append_cancel_left stream⟩

/-- **A refused stream is a program in front of a refused statement.** What was read of the
stream is the program; what stands behind it is refused for the same reason at the same token,
before anything of it was read. -/
theorem parse_refused_split {tokens : List Token} {diagnostic : Diagnostic}
    (refused : parse tokens = .refused diagnostic) :
    ∃ before after body index, tokens = before ++ after ∧
      diagnostic.place = .token (before.length + index) ∧
      parse before = .accepted body ∧ readProgram .language tokens = ⟨body, .refused diagnostic⟩ ∧
      readProgram .language after = ⟨[], .refused ⟨diagnostic.cause, .token index⟩⟩ := by
  obtain ⟨passed, stop, stream, some, place, body, token, rest, row, goesOn, inside⟩ :=
    (parseWith_eq_refused_iff .language).mp refused
  obtain ⟨before, divided⟩ := row.suffix
  have row' : ReadsRow .language (before ++ token :: rest) body (token :: rest) := divided ▸ row
  obtain ⟨after, rfl, behind⟩ := exists_closeStream_eq_append (endless_of_readsRow row')
    (stream.trans divided.symm) (List.cons_ne_nil _ _)
  -- The refusal points into what stands behind the row.
  obtain ⟨within, ahead⟩ := inside.suffix
  have length : passed.length = before.length + within.length := by
    have lengths := congrArg List.length divided
    rw [← ahead] at lengths
    simp only [List.length_append] at lengths
    omega
  refine ⟨before, after, body, within.length, rfl, by rw [place, length],
    accepted_of_readsRow row', ?_, ?_⟩
  · have progress := readProgram_of_row .language stream (stream ▸ row) goesOn inside some
    rw [progress, ← place]
  · have stream' : Cursor.closeStream after = within ++ stop := behind.trans ahead.symm
    have empty : ReadsRow .language (Cursor.closeStream after) [] (token :: rest) :=
      behind ▸ .done _
    exact readProgram_of_row .language stream' empty goesOn inside some

/-! ## Lines -/

/-- A text that is scanned has a line more than line feeds, as far as 32 bits go. -/
theorem scan_lines_eq {source : String} {scanned : Scan.Scanned}
    (accepted : scan source = .ok scanned) :
    scanned.lines.toNat = (1 + Text.lineFeeds source.toList) % 2 ^ 32 := by
  obtain ⟨tokens, last, reaches, none, rfl⟩ := Scan.scanFrom_eq_ok_iff.mp accepted
  obtain ⟨passed, whole, place⟩ := reaches.exists_place
  rw [none, List.append_nil] at whole
  change source.toList = passed at whole
  rw [whole]
  exact (Place.source.inj place).2

/-! ## Names -/

/-- A statement goes by a name: there is one for each form. -/
inductive Statement.Named : Statement → String → Prop
  | block {body : List Statement} : Named (.block body) "BlockStmt"
  | declaration {name : String} {constant : Bool} {value : Option Expr} {type : Option TypeExpr} :
      Named (.declaration name constant value type) "VarDeclStmt"
  | expression {value : Expr} : Named (.expression value) "ExpressionStmt"
  | function {name : String} {signature : Signature} {body : List Statement} :
      Named (.function name signature body) "FnDeclStmt"
  | conditional {condition : Expr} {consequent : List Statement}
      {alternative : Option Statement} :
      Named (.conditional condition consequent alternative) "IfStmt"
  | importing {name source : String} : Named (.importing name source) "ImportStmt"
  | foreach {item : String} {index : Option String} {iterable : Expr} {body : List Statement} :
      Named (.foreach item index iterable body) "ForeachStmt"
  | classDeclaration {name : String} {body : List Statement} :
      Named (.classDeclaration name body) "ClassDeclStmt"
  | returning {value : Option Expr} : Named (.returning value) "ReturnStmt"
  | loop {condition : Expr} {body : List Statement} : Named (.loop condition body) "WhileStmt"

theorem Statement.named_formName (statement : Statement) : statement.Named statement.formName := by
  cases statement <;> constructor

/-- The names of some statements, one by one. -/
theorem forall₂_named_formNames (body : List Statement) :
    List.Forall₂ Statement.Named body (body.map Statement.formName) :=
  List.forall₂_map_right_iff.mpr (List.forall₂_same.mpr fun statement _ => statement.named_formName)

/-! ## The log -/

/-- A line of a log: the span that it opens, if it opens one, and its named values. -/
abbrev LogLine := Option String × List (String × String)

def Milestone.written (milestone : Milestone) : LogLine := (milestone.span?, milestone.fields)

/-- What is written while a text is read. -/
def sourceLog (source : String) : List LogLine := (traceSource source).map Milestone.written

/-- The line that a log begins with: how many bytes are scanned. -/
def scanningLine (source : String) : LogLine :=
  (some "tokenize", [("source_len", toString (Text.byteSize source.toList))])

/-- The lines about a text that was scanned: how many tokens and lines were found, and that
parsing begins. -/
def scannedLines (tokens : List Token) (lines : Nat) : List LogLine :=
  [(none, [("message", "tokenized source"), ("tokens", toString tokens.length),
      ("lines", toString lines)]),
    (some "parse_with_lookups", [("token_count", toString tokens.length)])]

/-- The line for a statement of the form with the given name. -/
def statementLine (name : String) : LogLine :=
  (none, [("message", "parsed statement"), ("statement", name)])

/-- The line that ends the log of a program. -/
def programLine (body : List Statement) : LogLine :=
  (none, [("message", "parsed program"), ("statements", toString body.length)])

theorem written_of_complete (body : List Statement) :
    (Progress.mk body .complete).milestones.map Milestone.written =
      (body.map Statement.formName).map statementLine ++ [programLine body] := by
  rw [Progress.milestones, List.map_append, List.map_map, List.map_map]
  rfl

theorem written_of_refused (body : List Statement) (diagnostic : Diagnostic) :
    (Progress.mk body (.refused diagnostic)).milestones.map Milestone.written =
      (body.map Statement.formName).map statementLine := by
  rw [Progress.milestones, List.append_nil, List.map_map, List.map_map]
  rfl

variable {source : String} {tokens : List Token} {diagnostic : Diagnostic}

theorem sourceLog_of_error (refused : tokenize source = .error diagnostic) :
    sourceLog source = [scanningLine source] := by
  unfold tokenize at refused
  cases result : scan source with
  | ok scanned =>
      rw [result] at refused
      cases refused
  | error diagnostic' =>
      simp only [sourceLog, traceSource, result]
      rfl

theorem sourceLog_of_ok (accepted : tokenize source = .ok tokens) :
    sourceLog source =
      scanningLine source :: scannedLines tokens ((1 + Text.lineFeeds source.toList) % 2 ^ 32) ++
        (readProgram .language tokens).milestones.map Milestone.written := by
  unfold tokenize at accepted
  cases result : scan source with
  | error diagnostic' =>
      rw [result] at accepted
      cases accepted
  | ok scanned =>
      rw [result] at accepted
      cases accepted
      rw [← scan_lines_eq result]
      simp only [sourceLog, traceSource, result]
      rfl

/-- **The log tells what was parsed, of a refused text, too.** A text that is not scanned leaves
nothing but the line that scanning began. Of any other text the log counts the tokens, with the
one that ends them, and the lines, and names each statement by its form. If the text is accepted,
these are the statements of the program, and their number stands behind them. If it is refused,
at a token, they are the statements of a program that stands in front of that token; what is
left of the stream is refused alone, in its first statement, for the same reason at the same
token. There is a line more than line feeds; it is counted in 32 bits, which is enough for fewer
than `2 ^ 32 - 1` line feeds. -/
theorem log_tells_what_was_parsed (source : String) :
    (∀ diagnostic, tokenize source = .error diagnostic →
      sourceLog source = [scanningLine source]) ∧
    ∀ tokens, tokenize source = .ok tokens →
      tokens.getLast? = some .endOfInput ∧
      ∃ lines, lines = (1 + Text.lineFeeds source.toList) % 2 ^ 32 ∧
        (1 + Text.lineFeeds source.toList < 2 ^ 32 →
          lines = 1 + Text.lineFeeds source.toList) ∧
      ∃ body names closing, List.Forall₂ Statement.Named body names ∧
        sourceLog source =
          scanningLine source :: scannedLines tokens lines ++ names.map statementLine ++ closing ∧
        (parseSource source = .accepted body ∧ closing = [programLine body] ∨
          ∃ cause index before after, parseSource source = .refused ⟨cause, .token index⟩ ∧
            closing = [] ∧ tokens = before ++ after ∧ before.length ≤ index ∧
            parse before = .accepted body ∧
            parse after = .refused ⟨cause, .token (index - before.length)⟩ ∧
            (readProgram .language after).statements = []) := by
  refine ⟨fun diagnostic refused => sourceLog_of_error refused, ?_⟩
  intro tokens accepted
  obtain ⟨found, last, -, -, closed⟩ := tokenize_eq_ok_iff.mp accepted
  have parsed : parseSource source = parse tokens := by
    rw [parseSource, parseSourceWith, accepted]
    rfl
  refine ⟨by rw [closed, List.getLast?_concat], _, rfl, Nat.mod_eq_of_lt, ?_⟩
  rw [sourceLog_of_ok accepted, parsed]
  cases verdict : parse tokens with
  | exhausted =>
      have spent := Progress.verdict_eq_exhausted_iff.mp verdict
      exact absurd spent (readProgram_settles .language tokens)
  | accepted body =>
      have progress := Progress.verdict_eq_accepted_iff.mp verdict
      refine ⟨body, _, _, forall₂_named_formNames body, ?_, .inl ⟨rfl, rfl⟩⟩
      rw [progress, written_of_complete, List.append_assoc]
  | refused diagnostic =>
      obtain ⟨cause, place⟩ := diagnostic
      obtain ⟨before, after, body, index, whole, here, first, progress, behind⟩ :=
        parse_refused_split verdict
      dsimp only at here
      subst here
      refine ⟨body, _, [], forall₂_named_formNames body, ?_, .inr ⟨cause, _, before, after, rfl, rfl,
        whole, Nat.le_add_right _ _, first, ?_, by rw [behind]⟩⟩
      · rw [progress, written_of_refused, List.append_nil]
      · rw [Nat.add_sub_cancel_left]
        exact Progress.verdict_eq_refused_iff.mpr (by rw [behind])

/-- A sign that no rule begins with, and a statement of each form in front of a declaration without
its value. -/
theorem log_of_unfinished_declaration :
    let source := "\x7b a; \x7d let b = a; b; fn c() \x7b \x7d if b \x7b \x7d import d;\n" ++
      "foreach e in b \x7b \x7d class f \x7b \x7d return; while b \x7b \x7d\nlet g = ;"
    let names := ["BlockStmt", "VarDeclStmt", "ExpressionStmt", "FnDeclStmt", "IfStmt",
      "ImportStmt", "ForeachStmt", "ClassDeclStmt", "ReturnStmt", "WhileStmt"]
    let cause := Cause.expectedExpression .semicolon
    sourceLog "a #" = [(some "tokenize", [("source_len", "3")])] ∧
      parseSource source = .refused ⟨cause, .token 43⟩ ∧
      sourceLog source =
        (some "tokenize", [("source_len", "111")]) ::
          (none, [("message", "tokenized source"), ("tokens", "45"), ("lines", "3")]) ::
          (some "parse_with_lookups", [("token_count", "45")]) :: names.map statementLine ∧
      ∃ body before after, List.Forall₂ Statement.Named body names ∧
        tokenize source = .ok (before ++ after) ∧ before.length ≤ 43 ∧
        parse before = .accepted body ∧
        parse after = .refused ⟨cause, .token (43 - before.length)⟩ ∧
        (readProgram .language after).statements = [] := by
  intro source names cause
  have stray : tokenize "a #" = .error ⟨.unrecognised "#", .source 2 1⟩ := by decide +kernel
  have ending : (tokenize source).map (fun tokens => (readProgram .language tokens).ending) =
      .ok (.refused ⟨cause, .token 43⟩) := by decide +kernel
  have written : sourceLog source =
      (some "tokenize", [("source_len", "111")]) ::
        (none, [("message", "tokenized source"), ("tokens", "45"), ("lines", "3")]) ::
        (some "parse_with_lookups", [("token_count", "45")]) :: names.map statementLine := by
    decide +kernel
  obtain ⟨tokens, scanned, refusal⟩ : ∃ tokens, tokenize source = .ok tokens ∧
      (readProgram .language tokens).ending = .refused ⟨cause, .token 43⟩ := by
    cases result : tokenize source with
    | error diagnostic =>
        rw [result] at ending
        cases ending
    | ok tokens =>
        rw [result] at ending
        exact ⟨tokens, rfl, Except.ok.inj ending⟩
  have refused : parseSource source = .refused ⟨cause, .token 43⟩ := by
    rw [parseSource, parseSourceWith, scanned]
    exact Progress.verdict_eq_refused_iff.mpr refusal
  refine ⟨(log_tells_what_was_parsed "a #").1 _ stray, refused, written, ?_⟩
  obtain ⟨-, lines, -, -, body, found, closing, named, log, ⟨accepted, -⟩ | ⟨cause', index, before,
    after, refused', rfl, rfl, short, first, behind, none⟩⟩ :=
    (log_tells_what_was_parsed source).2 tokens scanned
  · rw [refused] at accepted
    cases accepted
  · rw [refused] at refused'
    cases refused'
    rw [written, List.append_nil] at log
    have rows : names.map statementLine = found.map statementLine :=
      congrArg (List.drop 3) log
    have injective : Function.Injective statementLine := fun name name' same => by
      simpa [statementLine] using same
    rw [← List.map_injective_iff.mpr injective rows] at named
    exact ⟨body, before, after, named, scanned, short, first, behind, none⟩

end ScriptReader
