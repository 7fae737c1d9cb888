import Quill.Number.Layout
import Quill.Position.Written
import Quill.Token.Basic
import Quill.Tree.Written

/-!
# Written tokens

Tokens as JSON objects, and back. The kind and its payload stand under `kind` and `value`, before
the lexeme and the position; the token at the end of the input has no payload. The reader takes the
keys in any order and does not ask whether the lexeme spells the payload.
-/

namespace Quill

/-- The forms of a kind. -/
inductive KindForm where
  | number
  | string
  | word
  | operator
  | mark
  | endOfInput
  deriving DecidableEq

namespace KindForm

/-- The name of the form. -/
def name : KindForm → String
  | number => "number"
  | string => "string"
  | word => "word"
  | operator => "operator"
  | mark => "punctuation"
  | endOfInput => "end"

/-- The form with the given name. -/
def ofName? (name : String) : Option KindForm :=
  [number, string, word, operator, mark, endOfInput].find? fun form => form.name == name

end KindForm

namespace Kind

/-- The form of a kind. -/
def form : Kind → KindForm
  | number _ => .number
  | string _ => .string
  | word _ => .word
  | operator _ => .operator
  | mark _ => .mark
  | endOfInput => .endOfInput

/-- The payload of a kind as JSON. -/
def payload? : Kind → Option Json
  | number x => some x.toJson
  | string s => some (.text s)
  | word w => some (.text w)
  | operator op => some (.text op.name)
  | mark m => some (.text m.name)
  | endOfInput => none

/-- Reads a kind from its form and its payload. Null counts as no payload at the end of the
input. -/
def ofPayload? (form : KindForm) (payload : Option Json) : Option Kind :=
  match form, payload with
  | .number, some v => v.asDouble?.map .number
  | .string, some v => v.asText?.map .string
  | .word, some v => v.asText?.map .word
  | .operator, some v => (Json.caseNamed? true Operator.ofName? v).map .operator
  | .mark, some v => (Json.caseNamed? true Mark.ofName? v).map .mark
  | .endOfInput, none => some .endOfInput
  | .endOfInput, some .null => some .endOfInput
  | _, _ => none

end Kind

namespace Token

/-- A token as JSON. -/
def toJson (t : Token) : Json :=
  .record <|
    ("kind", .text t.kind.form.name) ::
      (t.kind.payload?.toList.map (("value", ·)) ++
        [("lexeme", .text t.lexeme), ("span", t.position.toJson)])

/-- Reads a token. -/
def ofJson? : Json → Option Token
  | .object members => do
    let tag ← (Json.fieldAt? members "kind").join
    let form ← Json.caseNamed? true KindForm.ofName? tag
    let payload ← Json.fieldAt? members "value"
    let kind ← Kind.ofPayload? form payload
    let lexeme ← (Json.fieldAt? members "lexeme").join.bind Json.asText?
    let position ← (Json.fieldAt? members "span").join.bind Position.ofJson?
    some ⟨kind, lexeme, position⟩
  | _ => none

end Token

end Quill
