/- # ScriptReader.Command.Answer — what the command says and how it exits

The answer to a command line is an exit code and the texts for the two output
streams. Reading a file can fail before its text is known; a text that is refused
is reported beside its line. A program without fault is shown as a tree spread
over lines, as a list of tokens, or not at all.
-/
import ScriptReader.Command.Arguments
import ScriptReader.Program
import ScriptReader.Source.Report
import ScriptReader.Tree.Outline

namespace ScriptReader.Command

set_option autoImplicit false

/-- Why there is no text to read. -/
inductive ReadFailure where
  | notFound | isDirectory | notDirectory | notText
  deriving DecidableEq, Repr

def ReadFailure.reason : ReadFailure → String
  | .notFound => "No such file or directory (os error 2)"
  | .isDirectory => "Is a directory (os error 21)"
  | .notDirectory => "Not a directory (os error 20)"
  | .notText => "stream did not contain valid UTF-8"

/-- The text that the bytes of a file hold. -/
def decode (bytes : ByteArray) : Except ReadFailure String :=
  match String.fromUTF8? bytes with
  | some text => .ok text
  | none => .error .notText

/-- Exit code and output of a command. -/
structure Answer where
  exit : Nat
  output : String
  errors : String
  deriving DecidableEq, Repr

namespace Answer

def success (output : String) : Answer := ⟨0, output, ""⟩

def failure (errors : String) : Answer := ⟨1, "", errors ++ "\n"⟩

/-- A command line that cannot be followed. -/
def misuse : Answer := ⟨2, "", ""⟩

def version : Answer := success "lumen 0.1.0\n"

end Answer

/-- One line for each token. -/
def tokenListing (tokens : List Token) : String :=
  tokens.foldl (fun listing token => listing ++ token.listing ++ "\n") ""

/-- The answer about the text of a file. -/
def answerText (file : String) (tokens quiet : Bool) (source : String) : Answer :=
  match tokenize source with
  | .error diagnostic => .failure (diagnostic.report source file)
  | .ok stream =>
    if tokens then .success (tokenListing stream)
    else
      match parse stream with
      | .accepted body =>
        .success (if quiet then "" else (programForm body).toLines ++ "\n")
      | .refused diagnostic => .failure (diagnostic.report source file)
      | .exhausted => .failure "Error: nested too deeply"

/-- The answer about a file, given what reading it comes to. -/
def answerFile (file : String) (tokens quiet : Bool) :
    Except ReadFailure ByteArray → Answer
  | .error failure => .failure ("Error: could not read " ++ file ++ ": " ++ failure.reason)
  | .ok bytes =>
    match decode bytes with
    | .error failure => .failure ("Error: could not read " ++ file ++ ": " ++ failure.reason)
    | .ok source => answerText file tokens quiet source

end ScriptReader.Command
