/- # ScriptReader.Form — values as text

A form is the outline of a value that is to be shown: a word, a record with
named fields, a name around one content, or a list. It is written on one line,
or spread over lines with each part on a line of its own, four spaces deeper
than the whole and followed by a comma. Both writers append to a text, so a
deep form is written in one pass.
-/
import ScriptReader.Text.Quoted

namespace ScriptReader

set_option autoImplicit false

/-- The outline of a value. -/
inductive Form where
  | word (text : String)
  | record (name : String) (fields : List (String × Form))
  | around (name : String) (content : Form)
  | list (items : List Form)

namespace Form

/-- The form of a text: its quoted form. -/
def text (content : String) : Form := .word (Text.quoted content)

/-- The form of a truth value. -/
def flag (value : Bool) : Form := .word (if value then "true" else "false")

/-- The form of a value that may be absent. -/
def option : Option Form → Form
  | none => .word "None"
  | some content => .around "Some" content

mutual

/-- `text` followed by the form on one line. -/
def appendLine (text : String) : Form → String
  | .word shown => text ++ shown
  | .record name fields => appendFields (text ++ name ++ " \x7b ") fields ++ " \x7d"
  | .around name content => appendLine (text ++ name ++ "(") content ++ ")"
  | .list items => appendItems (text ++ "[") items ++ "]"

def appendFields (text : String) : List (String × Form) → String
  | [] => text
  | [(label, form)] => appendLine (text ++ label ++ ": ") form
  | (label, form) :: rest => appendFields (appendLine (text ++ label ++ ": ") form ++ ", ") rest

def appendItems (text : String) : List Form → String
  | [] => text
  | [form] => appendLine text form
  | form :: rest => appendItems (appendLine text form ++ ", ") rest

end

/-- A line break and the indentation of a nesting depth. -/
def lineBreak (depth : Nat) : String := "\n" ++ "".pushn ' ' (4 * depth)

mutual

/-- `text` followed by the form spread over lines, at a nesting depth. -/
def appendSpread (depth : Nat) (text : String) : Form → String
  | .word shown => text ++ shown
  | .record name fields =>
    appendSpreadFields (depth + 1) (text ++ name ++ " \x7b") fields ++ lineBreak depth ++ "\x7d"
  | .around name content =>
    appendSpread (depth + 1) (text ++ name ++ "(" ++ lineBreak (depth + 1)) content ++ "," ++
      lineBreak depth ++ ")"
  | .list [] => text ++ "[]"
  | .list (form :: rest) =>
    appendSpreadItems (depth + 1) (text ++ "[") (form :: rest) ++ lineBreak depth ++ "]"

def appendSpreadFields (depth : Nat) (text : String) : List (String × Form) → String
  | [] => text
  | (label, form) :: rest =>
    appendSpreadFields depth
      (appendSpread depth (text ++ lineBreak depth ++ label ++ ": ") form ++ ",") rest

def appendSpreadItems (depth : Nat) (text : String) : List Form → String
  | [] => text
  | form :: rest =>
    appendSpreadItems depth (appendSpread depth (text ++ lineBreak depth) form ++ ",") rest

end

/-- The form on one line. -/
def toLine (form : Form) : String := appendLine "" form

/-- The form spread over lines. -/
def toLines (form : Form) : String := appendSpread 0 "" form

end Form

end ScriptReader
