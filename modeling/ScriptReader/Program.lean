/- # ScriptReader.Program — whole programs

A program is read statement by statement up to the end of input. What was read
before a refusal is kept in the progress; the verdict is the list of all
statements, or the refusal.
-/
import ScriptReader.Answering
import ScriptReader.Scan
import ScriptReader.Tree.Equality

namespace ScriptReader

set_option autoImplicit false

/-- How the reading of a program ends. -/
inductive Ending where
  | complete
  | refused (diagnostic : Diagnostic)
  | exhausted
  deriving DecidableEq, Repr

/-- The statements that were read, and how the reading ended. -/
structure Progress where
  statements : List Statement
  ending : Ending

/-- Read statements up to the end of input. -/
def readStatements (tables : Tables) : Nat → Cursor → Progress
  | 0, _ => ⟨[], .exhausted⟩
  | levels + 1, cursor =>
    if cursor.hasMore then
      match answer tables levels .statement cursor with
      | .accepted statement cursor' =>
        let progress := readStatements tables levels cursor'
        ⟨statement :: progress.statements, progress.ending⟩
      | .refused diagnostic _ => ⟨[], .refused diagnostic⟩
      | .exhausted => ⟨[], .exhausted⟩
    else ⟨[], .complete⟩

/-- Read a stream under tables, keeping what was read before a refusal. -/
def readProgram (tables : Tables) (tokens : List Token) : Progress :=
  readStatements tables (Cursor.start tokens).budget (.start tokens)

/-- What is made of a program: its statements, or why it is refused. -/
inductive Verdict where
  | accepted (body : List Statement)
  | refused (diagnostic : Diagnostic)
  | exhausted

def Progress.verdict (progress : Progress) : Verdict :=
  match progress.ending with
  | .complete => .accepted progress.statements
  | .refused diagnostic => .refused diagnostic
  | .exhausted => .exhausted

theorem Progress.verdict_eq_accepted_iff {progress : Progress} {body : List Statement} :
    progress.verdict = .accepted body ↔ progress = ⟨body, .complete⟩ := by
  obtain ⟨statements, ending⟩ := progress
  cases ending <;> simp [verdict]

theorem Progress.verdict_eq_refused_iff {progress : Progress} {diagnostic : Diagnostic} :
    progress.verdict = .refused diagnostic ↔ progress.ending = .refused diagnostic := by
  obtain ⟨statements, ending⟩ := progress
  cases ending <;> simp [verdict]

theorem Progress.verdict_eq_exhausted_iff {progress : Progress} :
    progress.verdict = .exhausted ↔ progress.ending = .exhausted := by
  obtain ⟨statements, ending⟩ := progress
  cases ending <;> simp [verdict]

/-- Whether a program was accepted. -/
def Verdict.isAccepted : Verdict → Bool
  | .accepted _ => true
  | _ => false

/-- Parse a stream under tables. -/
def parseWith (tables : Tables) (tokens : List Token) : Verdict :=
  (readProgram tables tokens).verdict

/-- Parse a stream as a program of the language. -/
def parse (tokens : List Token) : Verdict := parseWith .language tokens

/-- Tokenize a text and parse it under tables. -/
def parseSourceWith (tables : Tables) (source : String) : Verdict :=
  match tokenize source with
  | .error diagnostic => .refused diagnostic
  | .ok tokens => parseWith tables tokens

/-- Tokenize and parse a text as a program of the language. -/
def parseSource (source : String) : Verdict := parseSourceWith .language source

/-- Whether two verdicts are equal, comparing trees as `Statement.equal` does. -/
def Verdict.equal : Verdict → Verdict → Bool
  | .accepted body, .accepted body' => equalStatements body body'
  | .refused diagnostic, .refused diagnostic' => diagnostic == diagnostic'
  | _, _ => false

end ScriptReader
