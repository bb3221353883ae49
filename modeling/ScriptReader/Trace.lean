/- # ScriptReader.Trace — what reading a text reports along the way

Reading a text passes milestones: scanning begins, scanning is done, parsing
begins, each top-level statement is done, parsing is done. A refusal ends the
trace where it happens. `Milestone` holds the facts; level, span and fields are
how a log writes them down.
-/
import ScriptReader.Program

namespace ScriptReader

set_option autoImplicit false

/-- A point that the reading of a text has passed. -/
inductive Milestone where
  | scanning (bytes : Nat)
  | scanned (tokens : Nat) (lines : UInt32)
  | parsing (tokens : Nat)
  | parsed (form : String)
  | finished (statements : Nat)
  deriving DecidableEq, Repr

namespace Milestone

/-- How important a milestone is. -/
def level : Milestone → String
  | .scanning _ | .parsing _ => "INFO"
  | .scanned _ _ | .finished _ => "DEBUG"
  | .parsed _ => "TRACE"

/-- The name of the span that a milestone opens, if it opens one. -/
def span? : Milestone → Option String
  | .scanning _ => some "tokenize"
  | .parsing _ => some "parse_with_lookups"
  | _ => none

/-- The named values of a milestone; an event that opens no span has a message. -/
def fields : Milestone → List (String × String)
  | .scanning bytes => [("source_len", toString bytes)]
  | .scanned tokens lines =>
    [("message", "tokenized source"), ("tokens", toString tokens), ("lines", toString lines)]
  | .parsing tokens => [("token_count", toString tokens)]
  | .parsed form => [("message", "parsed statement"), ("statement", form)]
  | .finished statements =>
    [("message", "parsed program"), ("statements", toString statements)]

end Milestone

/-- The milestones of a program's reading. -/
def Progress.milestones (progress : Progress) : List Milestone :=
  progress.statements.map (fun statement => .parsed statement.formName) ++
    match progress.ending with
    | .complete => [.finished progress.statements.length]
    | _ => []

/-- The milestones of reading a text as a program of the language. -/
def traceSource (source : String) : List Milestone :=
  .scanning (Text.byteSize source.toList) ::
    match scan source with
    | .error _ => []
    | .ok scanned =>
      .scanned scanned.tokens.length scanned.lines :: .parsing scanned.tokens.length ::
        (readProgram .language scanned.tokens).milestones

end ScriptReader
