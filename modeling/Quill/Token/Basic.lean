import Quill.Position.Basic
import Quill.Number.Double

/-!
# Tokens

A token is a kind with its decoded payload, the text it was written as, and the place it starts at.
Words are not split into names and keywords here: whether a word is reserved is asked of the table
of keywords, and what a reserved word means is for the grammar.
-/

namespace Quill

/-- The operator symbols. -/
inductive Operator where
  | equalEqual
  | bangEqual
  | lessEqual
  | greaterEqual
  | less
  | greater
  | bang
  | plus
  | minus
  | star
  | slash
  deriving DecidableEq

namespace Operator

/-- The symbol as it is written. -/
def text : Operator → String
  | equalEqual => "=="
  | bangEqual => "!="
  | lessEqual => "<="
  | greaterEqual => ">="
  | less => "<"
  | greater => ">"
  | bang => "!"
  | plus => "+"
  | minus => "-"
  | star => "*"
  | slash => "/"

/-- The name the operator goes by in written tokens. -/
def name : Operator → String
  | equalEqual => "EqualEqual"
  | bangEqual => "BangEqual"
  | lessEqual => "LessEqual"
  | greaterEqual => "GreaterEqual"
  | less => "Less"
  | greater => "Greater"
  | bang => "Bang"
  | plus => "Plus"
  | minus => "Minus"
  | star => "Star"
  | slash => "Slash"

/-- Every operator. -/
def all : List Operator :=
  [equalEqual, bangEqual, lessEqual, greaterEqual, less, greater, bang, plus, minus, star, slash]

/-- The operator with the given name. -/
def ofName? (name : String) : Option Operator :=
  all.find? fun op => op.name == name

end Operator

/-- The punctuation marks. -/
inductive Mark where
  | leftParen
  | rightParen
  | leftBrace
  | rightBrace
  | semicolon
  deriving DecidableEq

namespace Mark

/-- The mark as it is written. -/
def text : Mark → String
  | leftParen => "("
  | rightParen => ")"
  | leftBrace => "\x7b"
  | rightBrace => "\x7d"
  | semicolon => ";"

/-- The name the mark goes by in written tokens. -/
def name : Mark → String
  | leftParen => "LeftParen"
  | rightParen => "RightParen"
  | leftBrace => "LeftBrace"
  | rightBrace => "RightBrace"
  | semicolon => "Semicolon"

/-- Every mark. -/
def all : List Mark :=
  [leftParen, rightParen, leftBrace, rightBrace, semicolon]

/-- The mark with the given name. -/
def ofName? (name : String) : Option Mark :=
  all.find? fun m => m.name == name

/-- The mark a character stands for. -/
def ofChar? : Char → Option Mark
  | '(' => some leftParen
  | ')' => some rightParen
  | '{' => some leftBrace
  | '}' => some rightBrace
  | ';' => some semicolon
  | _ => none

end Mark

/-- The reserved words. -/
inductive Keyword where
  | kwGlobal
  | kwLocal
  | kwFn
  | kwReturn
  | kwIf
  | kwElif
  | kwElse
  | kwWhile
  | kwPrint
  | kwTrue
  | kwFalse
  | kwNone
  deriving DecidableEq

namespace Keyword

/-- The word as it is written. -/
def text : Keyword → String
  | kwGlobal => "global"
  | kwLocal => "local"
  | kwFn => "fn"
  | kwReturn => "return"
  | kwIf => "if"
  | kwElif => "elif"
  | kwElse => "else"
  | kwWhile => "while"
  | kwPrint => "print"
  | kwTrue => "True"
  | kwFalse => "False"
  | kwNone => "None"

/-- Every reserved word. -/
def all : List Keyword :=
  [kwGlobal, kwLocal, kwFn, kwReturn, kwIf, kwElif, kwElse, kwWhile, kwPrint, kwTrue, kwFalse,
    kwNone]

/-- The reserved word with the given text. Case matters. -/
def ofText? (word : String) : Option Keyword :=
  all.find? fun k => k.text == word

end Keyword

/-- Whether a word is reserved. -/
def isReserved (word : String) : Bool :=
  (Keyword.ofText? word).isSome

/-- What a token is, with its payload. -/
inductive Kind where
  | number (value : Double)
  | string (value : String)
  | word (text : String)
  | operator (op : Operator)
  | mark (m : Mark)
  | endOfInput
  deriving DecidableEq

namespace Kind

/-- The class of the token, as listings show it. -/
def className : Kind → String
  | number _ => "NUMBER"
  | string _ => "STRING"
  | word _ => "WORD"
  | operator _ => "OPERATOR"
  | mark _ => "PUNCTUATION"
  | endOfInput => "END"

/-- The text of a word. -/
def word? : Kind → Option String
  | word text => some text
  | _ => none

/-- Whether the token is a reserved word. -/
def isKeyword (k : Kind) : Bool :=
  k.word?.any isReserved

end Kind

/-- A token: its kind, the text it was written as, and where that text starts. -/
structure Token where
  kind : Kind
  lexeme : String
  position : Position
  deriving DecidableEq

namespace Token

/-- The token that ends a text at the given place. -/
def endAt (p : Position) : Token := ⟨.endOfInput, "", p⟩

/-- The place right after the token. No lexeme spans two lines. The sums have no bound here, so a
token that is made by hand is meant to stand where they fit into a machine word. -/
def endPosition (t : Token) : Position :=
  t.position.past t.lexeme

/-- How a message names the token it did not expect. -/
def describe (t : Token) : String :=
  match t.kind with
  | .number _ => "number `" ++ t.lexeme ++ "`"
  | .string _ => "string " ++ t.lexeme
  | .word w => (if isReserved w then "keyword `" else "identifier `") ++ w ++ "`"
  | .operator op => "`" ++ op.text ++ "`"
  | .mark m => "`" ++ m.text ++ "`"
  | .endOfInput => "end of input"

end Token

end Quill
