/- # ScriptReader.Lexeme — the pieces a text is cut into

A rule recognises one sort of piece at the start of a text: white space, a
comment, a text literal, a number, a word, or a sign. `Rule.lexeme?` is the piece
it takes, `Rule.token?` the token that the piece stands for; `Rule.bytes` and
`Rule.lines` are how far the rule moves the scanner on, in bytes and in lines.
`Lexeme.rules` lists the rules in the order in which they are tried; longer signs
stand before their own beginnings.

`Rule.lexeme?_isPrefix`: what a rule takes is a beginning of the
text and not empty, so cutting always makes headway. `Rule.bytes_eq`: each rule moves
on by the bytes of the piece it took.
-/
import ScriptReader.Token
import ScriptReader.Diagnostic
import ScriptReader.Text.Blank
import ScriptReader.Text.Bytes

namespace ScriptReader.Lexeme

set_option autoImplicit false

/-- Whether a name or reserved word can begin with the character. -/
def startsWord (c : Char) : Bool := c.isAlpha || c = '_'

/-- Whether a name or reserved word can go on with the character. -/
def continuesWord (c : Char) : Bool := c.isAlphanum || c = '_'

/-- A sign: the pattern that is looked for in the text, and the kind and the text of the
token that is given for it. The text is the pattern, and the one spelling of the kind. -/
structure Sign where
  pattern : String
  kind : TokenKind
  literal : String
  literal_eq : literal = pattern := by rfl
  spelling_eq : kind.spelling? = some pattern := by rfl
  deriving DecidableEq, Repr

/-- A way to recognise a piece at the start of a text. -/
inductive Rule where
  | blank
  | comment
  | closedText
  | openText
  | number
  | word
  | fixed (sign : Sign)
  deriving DecidableEq, Repr

/-! ## Pieces of varying length -/

/-- A comment reaches to the end of its line and takes the line feed with it. -/
def comment? : List Char → Option (List Char)
  | '/' :: '/' :: rest =>
    some ('/' :: '/' :: rest.takeWhile (· ≠ '\n') ++ (rest.dropWhile (· ≠ '\n')).take 1)
  | _ => none

/-- A text literal reaches to the next quote. -/
def closedText? : List Char → Option (List Char)
  | '"' :: rest =>
    if rest.contains '"' then some ('"' :: rest.takeWhile (· ≠ '"') ++ ['"']) else none
  | _ => none

/-- The point and the digits behind it, or nothing if no digit follows the point. -/
def fraction : List Char → List Char
  | '.' :: rest =>
    let digits := rest.takeWhile Char.isDigit
    if digits = [] then [] else '.' :: digits
  | _ => []

def number? (input : List Char) : Option (List Char) :=
  let digits := input.takeWhile Char.isDigit
  if digits = [] then none else some (digits ++ fraction (input.dropWhile Char.isDigit))

def word? : List Char → Option (List Char)
  | c :: rest => if startsWord c then some (c :: rest.takeWhile continuesWord) else none
  | [] => none

/-! ## Rules -/

/-- The piece that a rule takes from the start of a text. -/
def Rule.lexeme? (input : List Char) : Rule → Option (List Char)
  | .blank =>
    let run := input.takeWhile Text.isBlank
    if run = [] then none else some run
  | .comment => comment? input
  | .closedText => closedText? input
  | .openText => if ['"'].isPrefixOf input then some ['"'] else none
  | .number => number? input
  | .word => word? input
  | .fixed sign =>
    if sign.pattern.toList.isPrefixOf input then some sign.pattern.toList else none

/-- The signs in the order in which they are tried. -/
def signs : List Sign :=
  [{ pattern := "[", kind := .openBracket, literal := "[" },
   { pattern := "]", kind := .closeBracket, literal := "]" },
   { pattern := "\x7b", kind := .openCurly, literal := "\x7b" },
   { pattern := "\x7d", kind := .closeCurly, literal := "\x7d" },
   { pattern := "(", kind := .openParen, literal := "(" },
   { pattern := ")", kind := .closeParen, literal := ")" },
   { pattern := "==", kind := .equals, literal := "==" },
   { pattern := "!=", kind := .notEquals, literal := "!=" },
   { pattern := "=", kind := .assignment, literal := "=" },
   { pattern := "!", kind := .not, literal := "!" },
   { pattern := "<=", kind := .lessEquals, literal := "<=" },
   { pattern := "<", kind := .less, literal := "<" },
   { pattern := ">=", kind := .greaterEquals, literal := ">=" },
   { pattern := ">", kind := .greater, literal := ">" },
   { pattern := "||", kind := .or, literal := "||" },
   { pattern := "&&", kind := .and, literal := "&&" },
   { pattern := "..", kind := .dotDot, literal := ".." },
   { pattern := ".", kind := .dot, literal := "." },
   { pattern := ";", kind := .semicolon, literal := ";" },
   { pattern := ":", kind := .colon, literal := ":" },
   { pattern := "??=", kind := .nullishAssignment, literal := "??=" },
   { pattern := "?", kind := .question, literal := "?" },
   { pattern := ",", kind := .comma, literal := "," },
   { pattern := "++", kind := .plusPlus, literal := "++" },
   { pattern := "--", kind := .minusMinus, literal := "--" },
   { pattern := "+=", kind := .plusEquals, literal := "+=" },
   { pattern := "-=", kind := .minusEquals, literal := "-=" },
   { pattern := "*=", kind := .starEquals, literal := "*=" },
   { pattern := "/=", kind := .slashEquals, literal := "/=" },
   { pattern := "+", kind := .plus, literal := "+" },
   { pattern := "-", kind := .dash, literal := "-" },
   { pattern := "/", kind := .slash, literal := "/" },
   { pattern := "*", kind := .star, literal := "*" },
   { pattern := "%", kind := .percent, literal := "%" }]

/-- All rules in the order in which they are tried. -/
def rules : List Rule :=
  [.blank, .comment, .closedText, .openText, .number, .word] ++ signs.map .fixed

/-- The first rule that takes something, and what it takes. -/
def first? (input : List Char) : Option (Rule × List Char) :=
  rules.findSome? fun rule => (rule.lexeme? input).map (rule, ·)

/-- The token that a piece stands for, if it stands for one, given the text that follows.
A quote without a partner is refused, and so is a number that runs into a word. -/
def Rule.token? (lexeme rest : List Char) : Rule → Except Cause (Option Token)
  | .blank | .comment => .ok none
  | .closedText => .ok (some ⟨.text, String.ofList (lexeme.drop 1).dropLast⟩)
  | .openText => .error .unterminatedText
  | .number =>
    if (rest.take 1).any startsWord then
      .error (.malformedNumber (String.ofList (lexeme ++ rest.takeWhile continuesWord)))
    else .ok (some ⟨.number, String.ofList lexeme⟩)
  | .word =>
    let name := String.ofList lexeme
    .ok (some ⟨(TokenKind.ofWord? name).getD .identifier, name⟩)
  | .fixed sign => .ok (some ⟨sign.kind, sign.literal⟩)

/-- The bytes that a rule moves on by, behind its piece: those of the piece, or of the text of
its token. -/
def Rule.bytes (lexeme : List Char) : Rule → Nat
  | .fixed sign => Text.byteSize sign.literal.toList
  | _ => Text.byteSize lexeme

/-- The lines that a rule moves down by. White space and text literals are searched for line
feeds; a comment can only end in one; the other pieces leave the line as it is. -/
def Rule.lines (lexeme : List Char) : Rule → UInt32
  | .blank | .closedText => Text.lineCount lexeme
  | .comment => if lexeme.getLast? = some '\n' then 1 else 0
  | .openText | .number | .word | .fixed _ => 0

/-! ## Headway -/

theorem comment?_isPrefix {input lexeme : List Char} (taken : comment? input = some lexeme) :
    lexeme <+: input ∧ lexeme ≠ [] := by
  unfold comment? at taken
  split at taken
  · rename_i rest
    cases taken
    refine ⟨?_, by simp⟩
    have whole := List.takeWhile_append_dropWhile (p := (· ≠ '\n')) (l := rest)
    refine ⟨(rest.dropWhile (· ≠ '\n')).drop 1, ?_⟩
    simp only [List.cons_append, List.append_assoc, List.take_append_drop]
    rw [whole]
  · cases taken

theorem closedText?_isPrefix {input lexeme : List Char} (taken : closedText? input = some lexeme) :
    lexeme <+: input ∧ lexeme ≠ [] := by
  unfold closedText? at taken
  split at taken
  · rename_i rest
    split at taken
    · rename_i quoted
      cases taken
      refine ⟨?_, by simp⟩
      have whole := List.takeWhile_append_dropWhile (p := (· ≠ '"')) (l := rest)
      cases tail : rest.dropWhile (· ≠ '"') with
      | nil =>
          rw [tail, List.append_nil] at whole
          have member : '"' ∈ rest.takeWhile (· ≠ '"') := by
            rw [whole]; simpa using quoted
          have := List.all_takeWhile (p := (· ≠ '"')) (l := rest)
          rw [List.all_eq_true] at this
          simpa using this _ member
      | cons c more =>
          have head : c = '"' := by
            have := List.head?_dropWhile_not (· ≠ '"') rest
            rw [tail] at this
            simpa using this
          refine ⟨more, ?_⟩
          rw [tail, head] at whole
          simp only [List.cons_append, List.append_assoc, List.nil_append]
          rw [whole]
    · cases taken
  · cases taken

theorem fraction_isPrefix (input : List Char) : fraction input <+: input := by
  unfold fraction
  split
  · rename_i rest
    dsimp only
    split
    · exact List.nil_prefix
    · exact (List.cons_prefix_cons).mpr ⟨rfl, List.takeWhile_prefix _⟩
  · exact List.nil_prefix

theorem number?_isPrefix {input lexeme : List Char} (taken : number? input = some lexeme) :
    lexeme <+: input ∧ lexeme ≠ [] := by
  unfold number? at taken
  dsimp only at taken
  split at taken
  · cases taken
  · rename_i digits
    cases taken
    refine ⟨?_, by simp [digits]⟩
    have whole := List.takeWhile_append_dropWhile (p := Char.isDigit) (l := input)
    conv => rhs; rw [← whole]
    exact (List.prefix_append_right_inj _).mpr (fraction_isPrefix _)

theorem word?_isPrefix {input lexeme : List Char} (taken : word? input = some lexeme) :
    lexeme <+: input ∧ lexeme ≠ [] := by
  unfold word? at taken
  split at taken
  · split at taken
    · cases taken
      exact ⟨(List.cons_prefix_cons).mpr ⟨rfl, List.takeWhile_prefix _⟩, by simp⟩
    · cases taken
  · cases taken

theorem spelling?_ne_empty {kind : TokenKind} {spelling : String}
    (fixed : kind.spelling? = some spelling) : spelling.toList ≠ [] := by
  cases kind <;> cases fixed <;> decide

/-- A rule takes a beginning of the text that is not empty. -/
theorem Rule.lexeme?_isPrefix {rule : Rule} {input lexeme : List Char}
    (taken : rule.lexeme? input = some lexeme) : lexeme <+: input ∧ lexeme ≠ [] := by
  cases rule with
  | blank =>
      simp only [Rule.lexeme?] at taken
      split at taken
      · cases taken
      · rename_i run
        cases taken
        exact ⟨List.takeWhile_prefix _, run⟩
  | comment => exact comment?_isPrefix taken
  | closedText => exact closedText?_isPrefix taken
  | openText =>
      simp only [Rule.lexeme?] at taken
      split at taken
      · rename_i quote
        cases taken
        exact ⟨List.isPrefixOf_iff_prefix.mp quote, by simp⟩
      · cases taken
  | number => exact number?_isPrefix taken
  | word => exact word?_isPrefix taken
  | fixed sign =>
      simp only [Rule.lexeme?] at taken
      split at taken
      · rename_i start
        cases taken
        exact ⟨List.isPrefixOf_iff_prefix.mp start, spelling?_ne_empty sign.spelling_eq⟩
      · cases taken

/-- Each rule moves on by the bytes of its piece. -/
theorem Rule.bytes_eq {rule : Rule} {input lexeme : List Char}
    (taken : rule.lexeme? input = some lexeme) : rule.bytes lexeme = Text.byteSize lexeme := by
  cases rule with
  | fixed sign =>
      simp only [Rule.lexeme?] at taken
      split at taken
      · cases taken
        rw [bytes, sign.literal_eq]
      · cases taken
  | _ => rfl

theorem lexeme?_of_first? {input lexeme : List Char} {rule : Rule}
    (taken : first? input = some (rule, lexeme)) : rule.lexeme? input = some lexeme := by
  unfold first? at taken
  obtain ⟨rule', _, taken'⟩ := List.exists_of_findSome?_eq_some taken
  obtain ⟨lexeme', found, pair⟩ := Option.map_eq_some_iff.mp taken'
  cases pair
  exact found

theorem first?_isPrefix {input lexeme : List Char} {rule : Rule}
    (taken : first? input = some (rule, lexeme)) : lexeme <+: input ∧ lexeme ≠ [] :=
  Rule.lexeme?_isPrefix (lexeme?_of_first? taken)

end ScriptReader.Lexeme
