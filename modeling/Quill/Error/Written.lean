import Quill.Error.Basic
import Quill.Position.Written

/-!
# Written errors

Errors as JSON objects, for tools that show them in their own way.
-/

namespace Quill

/-- A character as JSON. -/
def charToJson (c : Char) : Json :=
  .text (String.ofList [c])

namespace LexReason

/-- The name of the reason. -/
def name : LexReason → String
  | unexpectedChar _ => "unexpected_char"
  | unterminatedString => "unterminated_string"
  | unterminatedComment => "unterminated_comment"
  | invalidEscape _ => "invalid_escape"
  | invalidNumber _ => "invalid_number"

/-- What the reason is about, if that is not told by the place alone. -/
def detail? : LexReason → Option Json
  | unexpectedChar c => some (charToJson c)
  | unterminatedString => none
  | unterminatedComment => none
  | invalidEscape c => some (charToJson c)
  | invalidNumber text => some (.text text)

/-- A reason as JSON. -/
def toJson (r : LexReason) : Json :=
  .record (("reason", .text r.name) :: r.detail?.toList.map (("detail", ·)))

end LexReason

/-- The fields of a lexical error. -/
def LexError.fields (e : LexError) : List (String × Json) :=
  [("span", e.position.toJson), ("reason", e.reason.toJson)]

/-- A syntax error as JSON, with the stage it arose at. -/
def SyntaxError.toJson : SyntaxError → Json
  | lex e => .record (("stage", .text "lex") :: e.fields)
  | parse e =>
    .record
      [("stage", .text "parse"), ("span", e.position.toJson),
        ("expected", .array (e.expected.map .text)), ("found", .text e.found)]
  | nestingTooDeep p limit =>
    .record [("stage", .text "nesting_too_deep"), ("span", p.toJson), ("limit", .nat limit)]

end Quill
