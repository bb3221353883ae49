/- # ScriptReader.Source.Report — a diagnostic beside the text it is about

A report names the cause, the file, and either the token it points at or the
line of the text with a caret below it. The line is shown without its leading
spaces and without white space at its end; the caret stands behind one dash for
each byte of the shown line in front of the offset.
-/
import ScriptReader.Diagnostic
import ScriptReader.Source.Line

namespace ScriptReader

set_option autoImplicit false

namespace Source

/-- A line as it is shown, and the number of leading spaces that were left out. -/
def shownLine (text : List Char) : List Char × Nat :=
  (Text.trimEnd Text.isBlank (text.dropWhile (· = ' ')), (text.takeWhile (· = ' ')).length)

/-- The three lines below the header: a margin, the line, and the caret. -/
def excerpt (spot : Spot) : List Char :=
  let number := (toString spot.line).toList
  let margin := '\n' :: List.replicate (number.length + 1) ' ' ++ ['|']
  let (shown, removed) := shownLine spot.text
  margin ++ ['\n'] ++ number ++ [' ', '|', ' '] ++ shown ++ margin ++ [' '] ++
    List.replicate (spot.column - removed) '-' ++ ['^']

end Source

namespace Diagnostic

/-- The first two lines of a report. -/
def header (diagnostic : Diagnostic) (file : String) : String :=
  "Error: " ++ diagnostic.cause.name ++ " (" ++ diagnostic.summary ++ ")\n-> " ++ file

/-- The report of a diagnostic about the text `source` of a file. -/
def report (diagnostic : Diagnostic) (source file : String) : String :=
  diagnostic.header file ++
    match diagnostic.place with
    | .token _ => " (at " ++ diagnostic.place.toText ++ ")"
    | .source offset _ =>
      match Source.lineAt? source.toList offset with
      | none => ""
      | some spot => String.ofList (Source.excerpt spot)

end Diagnostic

end ScriptReader
