/- # ScriptReader.Main — the command

Reads the file that the command line names and prints the answer.
-/
import ScriptReader.Command.Answer

namespace ScriptReader.Command

set_option autoImplicit false

/-- The reason behind a failed access. A file that stands where a folder should be is met
on opening, which names the path; a folder where a file should be is met on reading. -/
def ReadFailure.ofError : IO.Error → ReadFailure
  | .inappropriateType (some _) _ _ => .notDirectory
  | .inappropriateType none _ _ => .isDirectory
  | _ => .notFound

/-- The bytes of a file, or why there are none. -/
def readBytes (file : String) : IO (Except ReadFailure ByteArray) := do
  try
    return .ok (← IO.FS.readBinFile file)
  catch failure =>
    return .error (.ofError failure)

/-- Print an answer and give its exit code. -/
def Answer.give (answer : Answer) : IO UInt32 := do
  (← IO.getStdout).putStr answer.output
  (← IO.getStderr).putStr answer.errors
  return answer.exit.toUInt32

end ScriptReader.Command

open ScriptReader.Command in
/-- The command. -/
def main (arguments : List String) : IO UInt32 :=
  match invocation arguments with
  | .misuse => Answer.misuse.give
  | .version => Answer.version.give
  | .read file tokens quiet => do
    (answerFile file tokens quiet (← readBytes file)).give
