/- # ScriptReader.Grammar.Recipe — how to read something, as data

A recipe describes how a part of a program is read: it gives a value, refuses,
looks at the current token, reads it, or reads one of the phrases of the grammar,
and goes on with what it found. Recipes say nothing about how phrases are
answered; that is done once, in `ScriptReader.Answering`.

A recipe never sees how far the reading has come. A refusal points at the current
token; where what was just read is at fault, the refusal points at where that
began. So what a recipe does depends on the tokens it meets and on nothing else. It
ends where it is refused, and it reads no more than it says itself: whatever goes round
or comes back to itself is a phrase.
-/
import ScriptReader.Diagnostic
import ScriptReader.Tree
import ScriptReader.Grammar.Power

namespace ScriptReader

set_option autoImplicit false

/-- The parts of a program that recipes ask for. The tails go on from what stands to their
left; `statements` ends in front of a closing brace and `conditional` begins at `if`;
`arguments` and `parameters` end in front of the bracket that closes them. -/
inductive Phrase where
  | expression (least : Power)
  | expressionTail (least : Power) (left : Expr)
  | type (least : Power)
  | typeTail (least : Power) (left : TypeExpr)
  | statement
  | statements
  | conditional
  | arguments (close : TokenKind)
  | parameters

/-- What a phrase yields. -/
@[reducible] def Phrase.Value : Phrase → Type
  | .expression _ | .expressionTail _ _ => Expr
  | .type _ | .typeTail _ _ => TypeExpr
  | .statement | .conditional => Statement
  | .statements => List Statement
  | .arguments _ => List Expr
  | .parameters => List Parameter

/-- How to read an `α`. What is read, token or phrase, may be at fault. -/
inductive Recipe (α : Type) where
  | yield (value : α)
  | refuse (cause : Cause)
  | peek (next : Token → Recipe α)
  | readToken (fault : Token → Option Cause) (next : Token → Recipe α)
  | readPhrase (phrase : Phrase) (fault : phrase.Value → Option Cause)
      (next : phrase.Value → Recipe α)

namespace Recipe

variable {α β : Type}

/-- Read one thing and then what it calls for. -/
def bind : Recipe α → (α → Recipe β) → Recipe β
  | .yield value, next => next value
  | .refuse cause, _ => .refuse cause
  | .peek next', next => .peek fun token => (next' token).bind next
  | .readToken fault next', next => .readToken fault fun token => (next' token).bind next
  | .readPhrase phrase fault next', next =>
    .readPhrase phrase fault fun value => (next' value).bind next

instance : Monad Recipe where
  pure := .yield
  bind := bind

theorem bind_eq (recipe : Recipe α) (next : α → Recipe β) : recipe >>= next = recipe.bind next :=
  rfl

theorem bind_assoc {γ : Type} (recipe : Recipe α) (next : α → Recipe β) (last : β → Recipe γ) :
    (recipe.bind next).bind last = recipe.bind fun value => (next value).bind last := by
  induction recipe with
  | yield value => rfl
  | refuse cause => rfl
  | peek next' ih => simp only [bind, ih]
  | readToken fault next' ih => simp only [bind, ih]
  | readPhrase phrase fault next' ih => simp only [bind, ih]

/-! ## Tokens -/

/-- The kind of the current token. -/
def kind : Recipe TokenKind := .peek fun token => .yield token.kind

/-- The current token, read. -/
def take : Recipe Token := .readToken (fun _ => none) .yield

/-- Refuse the current token. -/
def refuseKind (cause : TokenKind → Cause) : Recipe α :=
  .peek fun token => .refuse (cause token.kind)

/-- The current token, which has to be of the given kind, read. -/
def expect (expected : TokenKind) : Recipe Token :=
  .peek fun token =>
    if token.kind = expected then take else .refuse (.unexpected expected token.kind)

/-- The text of the current token, which has to be of the given kind, read. -/
def expectText (expected : TokenKind) : Recipe String := do
  let token ← expect expected
  return token.text

/-- Go on in one way where the current token is of the given kind, in another elsewhere. -/
def ifKind (wanted : TokenKind) (there elsewhere : Recipe α) : Recipe α :=
  .peek fun token => if token.kind = wanted then there else elsewhere

/-- What follows a token of the given kind, where the current token is one. -/
def optional (mark : TokenKind) (content : Recipe α) : Recipe (Option α) :=
  ifKind mark
    (do
      let _ ← take
      let value ← content
      return some value)
    (.yield none)

/-! ## What is made of what is read -/

/-- Why something could not be made of what was read. -/
def faultOf : Except Cause α → Option Cause
  | .ok _ => none
  | .error cause => some cause

/-- What was made of what was read; there is no fault in it any more. -/
def made : Except Cause α → Recipe α
  | .ok value => .yield value
  | .error cause => .refuse cause

/-- What `make` makes of the current token, read. -/
def tokenAs (make : Token → Except Cause α) : Recipe α :=
  .readToken (fun token => faultOf (make token)) fun token => made (make token)

/-- What `make` makes of a phrase. -/
def phraseAs (phrase : Phrase) (make : phrase.Value → Except Cause α) : Recipe α :=
  .readPhrase phrase (fun value => faultOf (make value)) fun value => made (make value)

/-! ## Phrases -/

/-- A phrase as it is. -/
def ask (phrase : Phrase) : Recipe phrase.Value := .readPhrase phrase (fun _ => none) .yield

def expression (least : Power) : Recipe Expr := ask (.expression least)

def expressionTail (least : Power) (left : Expr) : Recipe Expr := ask (.expressionTail least left)

def type (least : Power) : Recipe TypeExpr := ask (.type least)

def typeTail (least : Power) (left : TypeExpr) : Recipe TypeExpr := ask (.typeTail least left)

def statement : Recipe Statement := ask .statement

def statements : Recipe (List Statement) := ask .statements

def conditional : Recipe Statement := ask .conditional

def arguments (close : TokenKind) : Recipe (List Expr) := ask (.arguments close)

def parameters : Recipe (List Parameter) := ask .parameters

/-- The statements between two braces. -/
def block : Recipe (List Statement) := do
  let _ ← expect .openCurly
  let body ← statements
  let _ ← expect .closeCurly
  return body

end Recipe

end ScriptReader
