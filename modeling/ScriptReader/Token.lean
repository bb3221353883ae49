/- # ScriptReader.Token — the words of a script

A token is a kind and a text. Only numbers, text literals and identifiers have
a text of their own; every other kind is written in exactly one way, and that
spelling is the token's text. `TokenKind.spelling?` gives it. The reserved words
have a table of their own, in which `TokenKind.ofWord?` looks a name up.
-/
namespace ScriptReader

set_option autoImplicit false

/-- The kinds of token, in the order in which tables list them. -/
inductive TokenKind where
  | endOfInput | number | text | identifier | openBracket | closeBracket | openCurly
  | closeCurly | openParen | closeParen | assignment | equals | not | notEquals | less
  | lessEquals | greater | greaterEquals | or | and | dot | dotDot | semicolon | colon
  | question | nullishAssignment | comma | plusPlus | minusMinus | plusEquals | minusEquals
  | slashEquals | starEquals | plus | dash | slash | star | percent | letWord | constWord
  | classWord | newWord | importWord | fromWord | fnWord | returnWord | ifWord | elseWord
  | foreachWord | whileWord | forWord | exportWord | typeofWord | inWord
  deriving DecidableEq, Repr, Inhabited

namespace TokenKind

/-- Every kind once, in order. -/
def all : List TokenKind :=
  [.endOfInput, .number, .text, .identifier, .openBracket, .closeBracket, .openCurly,
   .closeCurly, .openParen, .closeParen, .assignment, .equals, .not, .notEquals, .less,
   .lessEquals, .greater, .greaterEquals, .or, .and, .dot, .dotDot, .semicolon, .colon,
   .question, .nullishAssignment, .comma, .plusPlus, .minusMinus, .plusEquals,
   .minusEquals, .slashEquals, .starEquals, .plus, .dash, .slash, .star, .percent,
   .letWord, .constWord, .classWord, .newWord, .importWord, .fromWord, .fnWord,
   .returnWord, .ifWord, .elseWord, .foreachWord, .whileWord, .forWord, .exportWord,
   .typeofWord, .inWord]

/-- The name under which a kind appears in diagnostics and listings. -/
def name : TokenKind → String
  | .endOfInput => "EOF"
  | .number => "Number"
  | .text => "String"
  | .identifier => "Identifier"
  | .openBracket => "OpenBracket"
  | .closeBracket => "CloseBracket"
  | .openCurly => "OpenCurly"
  | .closeCurly => "CloseCurly"
  | .openParen => "OpenParen"
  | .closeParen => "CloseParen"
  | .assignment => "Assignment"
  | .equals => "Equals"
  | .not => "Not"
  | .notEquals => "NotEquals"
  | .less => "Less"
  | .lessEquals => "LessEquals"
  | .greater => "Greater"
  | .greaterEquals => "GreaterEquals"
  | .or => "Or"
  | .and => "And"
  | .dot => "Dot"
  | .dotDot => "DotDot"
  | .semicolon => "Semicolon"
  | .colon => "Colon"
  | .question => "Question"
  | .nullishAssignment => "NullishAssignment"
  | .comma => "Comma"
  | .plusPlus => "PlusPlus"
  | .minusMinus => "MinusMinus"
  | .plusEquals => "PlusEquals"
  | .minusEquals => "MinusEquals"
  | .slashEquals => "SlashEquals"
  | .starEquals => "StarEquals"
  | .plus => "Plus"
  | .dash => "Dash"
  | .slash => "Slash"
  | .star => "Star"
  | .percent => "Percent"
  | .letWord => "Let"
  | .constWord => "Const"
  | .classWord => "Class"
  | .newWord => "New"
  | .importWord => "Import"
  | .fromWord => "From"
  | .fnWord => "Fn"
  | .returnWord => "Return"
  | .ifWord => "If"
  | .elseWord => "Else"
  | .foreachWord => "Foreach"
  | .whileWord => "While"
  | .forWord => "For"
  | .exportWord => "Export"
  | .typeofWord => "Typeof"
  | .inWord => "In"

/-- The spelling of a kind that is written in one way only. -/
def spelling? : TokenKind → Option String
  | .endOfInput | .number | .text | .identifier => none
  | .openBracket => some "["
  | .closeBracket => some "]"
  | .openCurly => some "\x7b"
  | .closeCurly => some "\x7d"
  | .openParen => some "("
  | .closeParen => some ")"
  | .assignment => some "="
  | .equals => some "=="
  | .not => some "!"
  | .notEquals => some "!="
  | .less => some "<"
  | .lessEquals => some "<="
  | .greater => some ">"
  | .greaterEquals => some ">="
  | .or => some "||"
  | .and => some "&&"
  | .dot => some "."
  | .dotDot => some ".."
  | .semicolon => some ";"
  | .colon => some ":"
  | .question => some "?"
  | .nullishAssignment => some "??="
  | .comma => some ","
  | .plusPlus => some "++"
  | .minusMinus => some "--"
  | .plusEquals => some "+="
  | .minusEquals => some "-="
  | .slashEquals => some "/="
  | .starEquals => some "*="
  | .plus => some "+"
  | .dash => some "-"
  | .slash => some "/"
  | .star => some "*"
  | .percent => some "%"
  | .letWord => some "let"
  | .constWord => some "const"
  | .classWord => some "class"
  | .newWord => some "new"
  | .importWord => some "import"
  | .fromWord => some "from"
  | .fnWord => some "fn"
  | .returnWord => some "return"
  | .ifWord => some "if"
  | .elseWord => some "else"
  | .foreachWord => some "foreach"
  | .whileWord => some "while"
  | .forWord => some "for"
  | .exportWord => some "export"
  | .typeofWord => some "typeof"
  | .inWord => some "in"

/-- The kinds whose tokens carry a text that the kind does not determine. -/
def carriesText : TokenKind → Bool
  | .number | .text | .identifier => true
  | _ => false

/-- The reserved words, each with the kind that its tokens get. -/
def reserved : List (String × TokenKind) :=
  [("let", .letWord), ("const", .constWord), ("class", .classWord), ("new", .newWord),
   ("import", .importWord), ("from", .fromWord), ("fn", .fnWord), ("return", .returnWord),
   ("if", .ifWord), ("else", .elseWord), ("foreach", .foreachWord), ("while", .whileWord),
   ("for", .forWord), ("export", .exportWord), ("typeof", .typeofWord), ("in", .inWord)]

/-- The kinds of the reserved words. -/
def words : List TokenKind := reserved.map Prod.snd

/-- The kind of the reserved word that `name` is, if it is one. -/
def ofWord? (name : String) : Option TokenKind := reserved.lookup name

end TokenKind

/-- A word of the script: its kind, and the text that stands for it. -/
structure Token where
  kind : TokenKind
  text : String
  deriving DecidableEq, Repr, Inhabited

namespace Token

/-- The token that closes every stream. -/
def endOfInput : Token := ⟨.endOfInput, "EOF"⟩

/-- One line of a token listing: the text is shown where the kind leaves it open. -/
def listing (token : Token) : String :=
  if token.kind.carriesText then token.kind.name ++ " (" ++ token.text ++ ")"
  else token.kind.name ++ " ()"

end Token

end ScriptReader
