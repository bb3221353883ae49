/- # ScriptReader.Session — reading a stream piece by piece

A session stands on one stream under one set of tables and carries out tasks, one
after the other. A refusal is answered and the session goes on from where the
refusal left the cursor. The last expression that was read is kept as the left
side of infix tasks.
-/
import ScriptReader.Answering

namespace ScriptReader

set_option autoImplicit false

/-- Something to read from the cursor on. An expected token may name the diagnostic that is
given in place of the usual one. -/
inductive Task where
  | take
  | expect (kind : TokenKind) (instead : Option Diagnostic)
  | expression (least : Power)
  | type (least : Power)
  | block
  | functionRest
  | prefixForm (rule : PrefixRule)
  | infixForm (rule : InfixRule) (power : Power)
  | statement (rule : StatementRule)
  | typePrefix (rule : TypePrefixRule)
  deriving DecidableEq, Repr

/-- What a task reads. -/
inductive Reading where
  | token (token : Token)
  | expression (expression : Expr)
  | type (type : TypeExpr)
  | body (body : List Statement)
  | function (signature : Signature) (body : List Statement)
  | statement (statement : Statement)

/-- A stream under tables, as far as it has been read. -/
structure Session where
  tables : Tables
  cursor : Cursor
  left : Expr

namespace Session

/-- A session at the beginning of a stream, before any expression was read. -/
def start (tables : Tables) (tokens : List Token) : Session :=
  ⟨tables, .start tokens, .symbol "lhs"⟩

/-- Carry a task out. -/
def read (session : Session) : Task → Outcome Reading
  | .take => .accepted (.token session.cursor.current) session.cursor.next
  | .expect kind instead => (session.cursor.expect kind instead).map .token
  | .expression least => (perform (.expression least)).map .expression
  | .type least => (perform (.type least)).map .type
  | .block => (perform .block).map .body
  | .functionRest => (perform .functionRest).map fun rest => .function rest.1 rest.2
  | .prefixForm rule => (perform rule.recipe).map .expression
  | .infixForm rule power => (perform (rule.recipe session.left power)).map .expression
  | .statement rule => (perform rule.recipe).map .statement
  | .typePrefix rule => (perform rule.recipe).map .type
where
  /-- Carry a recipe out from where the session stands. -/
  perform {α : Type} (recipe : Recipe α) : Outcome α :=
    recipe.perform session.tables session.cursor

/-- The session after an outcome. -/
def after (session : Session) : Outcome Reading → Session
  | .accepted (.expression left) cursor => { session with cursor, left }
  | .accepted _ cursor => { session with cursor }
  | .refused _ cursor => { session with cursor }
  | .exhausted => session

/-- Carry a task out and go on from there. -/
def step (session : Session) (task : Task) : Outcome Reading × Session :=
  (session.read task, session.after (session.read task))

end Session

end ScriptReader
