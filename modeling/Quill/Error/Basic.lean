import Quill.Position.Basic
import Quill.Text.Quoted

/-!
# Syntax errors

Every way in which turning text into a tree can fail, as causes: malformed characters, a token no
rule of the grammar allows, and nesting beyond the limit. Wording stands in one function each, the
message for people, the code, and the hint for the more surprising corners of the grammar.
-/

namespace Quill

/-- Why characters form no token. -/
inductive LexReason where
  | unexpectedChar (c : Char)
  | unterminatedString
  | unterminatedComment
  | invalidEscape (c : Char)
  | invalidNumber (text : String)
  deriving DecidableEq

/-- The reason in words. -/
def LexReason.message : LexReason → String
  | unexpectedChar c => "unexpected character " ++ String.ofList (quoteWith '\'' [c])
  | unterminatedString => "unterminated string literal"
  | unterminatedComment => "unterminated block comment"
  | invalidEscape c => "invalid escape sequence `\\" ++ String.ofList [c] ++ "`"
  | invalidNumber text => "invalid number literal `" ++ text ++ "`"

/-- A malformed run of characters, at the place the malformed thing starts. -/
structure LexError where
  position : Position
  reason : LexReason
  deriving DecidableEq

/-- The error with its place. -/
def LexError.display (e : LexError) : String :=
  e.reason.message ++ " at " ++ e.position.display

/-- A token that no rule of the grammar allows here. `expected` lists what the rule that refused it
needs instead, and `found` describes the token. -/
structure ParseError where
  position : Position
  expected : List String
  found : String
  deriving DecidableEq

namespace ParseError

/-- The alternatives as one phrase. -/
def expectation (e : ParseError) : String :=
  match e.expected with
  | [] => "something else"
  | [one] => one
  | many => "one of " ++ ", ".intercalate many.dropLast ++ " or " ++ many.getLastD ""

/-- The error in words. -/
def message (e : ParseError) : String :=
  "expected " ++ e.expectation ++ ", found " ++ e.found

/-- Whether the text ended too early. -/
def atEnd (e : ParseError) : Bool :=
  e.found == "end of input"

end ParseError

/-- Why a text has no tree. -/
inductive SyntaxError where
  | lex (e : LexError)
  | parse (e : ParseError)
  | nestingTooDeep (position : Position) (limit : Nat)
  deriving DecidableEq

namespace SyntaxError

/-- The code that reports show. -/
def code : SyntaxError → String
  | lex _ => "E_LEX"
  | parse _ => "E_PARSE"
  | nestingTooDeep _ _ => "E_NESTING"

/-- Where the error is. -/
def position : SyntaxError → Position
  | lex e => e.position
  | parse e => e.position
  | nestingTooDeep p _ => p

/-- The error in words, without its place. -/
def message : SyntaxError → String
  | lex e => e.reason.message
  | parse e => e.message
  | nestingTooDeep _ limit => "nesting exceeds the limit of " ++ toString limit ++ " levels"

/-- The error in words, with its place. -/
def display (e : SyntaxError) : String :=
  e.message ++ " at " ++ e.position.display

/-- The underlying error in words, when the error wraps one. -/
def cause : SyntaxError → Option String
  | lex e => some e.display
  | parse e => some (parse e).display
  | nestingTooDeep _ _ => none

/-- Whether the text ended too early, asked of parse errors only. -/
def atEnd? : SyntaxError → Option Bool
  | parse e => some e.atEnd
  | _ => none

/-- The hint for a malformed run of characters. -/
def lexHelp : LexReason → Option String
  | .unterminatedString => some "string literals must close on the line they open"
  | .unterminatedComment => some "every `(#` needs its own matching `#)`"
  | .unexpectedChar ',' => some "call arguments are separated by whitespace: `f(a b)`"
  | .unexpectedChar '=' => some "assign with `global name value` or `local name value`"
  | _ => none

/-- The hint for an unexpected token. A text that ends too early comes before a missing
semicolon. -/
def parseHelp (e : ParseError) : Option String :=
  if e.atEnd then
    some "the program must be a single `\x7b ... \x7d` block"
  else if e.expected.contains "`;`" then
    some "statements end with `;`, including `if` and `while` blocks"
  else
    none

/-- A hint that follows the report, for some errors. -/
def help : SyntaxError → Option String
  | lex e => lexHelp e.reason
  | parse e => parseHelp e
  | nestingTooDeep _ _ => some "raise `max_depth` in the parser configuration"

end SyntaxError

end Quill
