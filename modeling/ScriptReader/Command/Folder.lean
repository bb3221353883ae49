/- # ScriptReader.Command.Folder — finding a file by its path

A folder that holds at most one file, perhaps inside folders of its own. A path is
followed name by name from the folder: the empty name and the single dot stay, two
dots go up, and any other name has to exist. Behind a file no further name can
follow, not even an empty one.
-/
import ScriptReader.Command.Answer

namespace ScriptReader.Command

set_option autoImplicit false

/-- The names along the way to the one file, and its bytes, if there is a file. -/
structure Folder where
  file : Option (List String × ByteArray)

/-- Where a path has led: outside, so many folders up; or down into the folder. -/
inductive Reached where
  | above (levels : Nat)
  | inside (names : List String)
  deriving DecidableEq, Repr

namespace Folder

/-- The names of a path. -/
def names (path : String) : List String :=
  (path.splitOn "/").filter fun name => name ≠ "" ∧ name ≠ "."

/-- A folder that holds one file at a relative path. -/
def holding (path : String) (bytes : ByteArray) : Folder := ⟨some (names path, bytes)⟩

def empty : Folder := ⟨none⟩

/-- The bytes of the file at exactly these names. -/
def fileAt? (folder : Folder) (names : List String) : Option ByteArray :=
  folder.file.bind fun file => if file.1 = names then some file.2 else none

/-- Whether these names lead to a folder on the way to the file. -/
def isFolder (folder : Folder) (names : List String) : Bool :=
  names = [] ||
    match folder.file with
    | none => false
    | some file => names.isPrefixOf file.1 && file.1 ≠ names

/-- One name further along a path. -/
def follow (folder : Folder) (reached : Reached) (name : String) :
    Except ReadFailure Reached :=
  match reached with
  | .above levels =>
    if name = "" ∨ name = "." then .ok reached
    else if name = ".." then .ok (.above (levels + 1))
    else .error .notFound
  | .inside names =>
    if (folder.fileAt? names).isSome then .error .notDirectory
    else if name = "" ∨ name = "." then .ok reached
    else if name = ".." then
      .ok (if names = [] then .above 0 else .inside names.dropLast)
    else
      let names := names ++ [name]
      if (folder.fileAt? names).isSome ∨ folder.isFolder names then .ok (.inside names)
      else .error .notFound

/-- The bytes at the end of a path. A path that begins with a slash starts above every
folder, where only the way up is known. -/
def read (folder : Folder) (path : String) : Except ReadFailure ByteArray := do
  let start := if path.toList.head? = some '/' then .above 0 else .inside []
  let reached ← (path.splitOn "/").foldlM folder.follow start
  match reached with
  | .above _ => .error .isDirectory
  | .inside names =>
    match folder.fileAt? names with
    | some bytes => .ok bytes
    | none => .error .isDirectory

end Folder

/-- The answer to a command line given in a folder. -/
def answerIn (folder : Folder) (arguments : List String) : Answer :=
  match invocation arguments with
  | .misuse => .misuse
  | .version => .version
  | .read file tokens quiet => answerFile file tokens quiet (folder.read file)

end ScriptReader.Command
