/- # ScriptReader.Command.Arguments — what the command line asks for

One file is named, `--tokens` lists its tokens, and `-q` or `--quiet` keeps the
tree to itself. Short options may share a dash, `--` ends the options, and a lone
dash is a file name. Arguments are taken one after the other: the first that is
misused settles the outcome, and so does a request for the version, whatever
comes later.
-/
namespace ScriptReader.Command

set_option autoImplicit false

/-- What has been asked for so far. -/
structure Request where
  file : Option String
  tokens : Bool
  quiet : Bool
  deriving DecidableEq, Repr

/-- What a whole command line asks for. -/
inductive Invocation where
  | read (file : String) (tokens quiet : Bool)
  | version
  | misuse
  deriving DecidableEq, Repr

/-- What one argument makes of a request: a fuller request, or a settled outcome. -/
abbrev Taken := Except Invocation Request

namespace Request

def nothing : Request := ⟨none, false, false⟩

/-- The one file may be named once, and its name is not empty. -/
def takeFile (request : Request) (file : String) : Taken :=
  if file = "" ∨ request.file.isSome then .error .misuse
  else .ok { request with file := some file }

def takeQuiet (request : Request) : Taken :=
  if request.quiet then .error .misuse else .ok { request with quiet := true }

def takeTokens (request : Request) : Taken :=
  if request.tokens then .error .misuse else .ok { request with tokens := true }

/-- Options behind a single dash, one character each. -/
def takeShort (request : Request) : List Char → Taken
  | [] => .ok request
  | option :: rest =>
    if option = 'q' then do
      let request ← request.takeQuiet
      request.takeShort rest
    else if option = 'V' then .error .version
    else .error .misuse

/-- One argument in front of `--`. -/
def takeArgument (request : Request) (argument : String) : Taken :=
  if argument = "--tokens" then request.takeTokens
  else if argument = "--quiet" then request.takeQuiet
  else if argument = "--version" then .error .version
  else
    match argument.toList with
    | '-' :: '-' :: _ => .error .misuse
    | '-' :: option :: rest => request.takeShort (option :: rest)
    | _ => request.takeFile argument

/-- All arguments; behind `--` every one is a file. -/
def takeAll (request : Request) : List String → Taken
  | [] => .ok request
  | argument :: rest =>
    if argument = "--" then rest.foldlM takeFile request
    else do
      let request ← request.takeArgument argument
      request.takeAll rest

end Request

/-- What a command line asks for. A file has to be named. -/
def invocation (arguments : List String) : Invocation :=
  match Request.nothing.takeAll arguments with
  | .error settled => settled
  | .ok ⟨some file, tokens, quiet⟩ => .read file tokens quiet
  | .ok ⟨none, _, _⟩ => .misuse

end ScriptReader.Command
