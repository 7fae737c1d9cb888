import Quill.Json.Piece

/-!
# Reading JSON

From pieces to a value, one piece at a time: a state says what may come next, and the frames say
which arrays and objects are open around it, with what they hold so far.
-/

namespace Quill

namespace Json

/-- An array or an object that is open, with its contents so far, the last first. An object's frame
also holds the key whose value is being read. -/
inductive Frame where
  | array (items : List Json)
  | object (members : List (Option String × Json)) (key : Option String)

/-- What may come next. -/
inductive Turn where
  | value
  | firstItem
  | firstKey
  | key (members : List (Option String × Json))
  | colon (members : List (Option String × Json)) (key : Option String)
  | after (value : Json)

/-- A reader of pieces: what may come next, and what is open around it. -/
structure Reader where
  turn : Turn
  frames : List Frame

/-- A value begins with the piece. -/
def beginValue? (frames : List Frame) : Piece → Option Reader
  | .scalar v => some ⟨.after v, frames⟩
  | .string s => some ⟨.after (.string s), frames⟩
  | .beginArray => some ⟨.firstItem, frames⟩
  | .beginObject => some ⟨.firstKey, frames⟩
  | _ => none

/-- A value is finished before the piece. -/
def afterValue? (v : Json) : List Frame → Piece → Option Reader
  | .array items :: frames, .comma => some ⟨.value, .array (v :: items) :: frames⟩
  | .array items :: frames, .endArray => some ⟨.after (.array (v :: items).reverse), frames⟩
  | .object members k :: frames, .comma => some ⟨.key ((k, v) :: members), frames⟩
  | .object members k :: frames, .endObject =>
    some ⟨.after (.object ((k, v) :: members).reverse), frames⟩
  | _, _ => none

/-- The reader after one more piece, unless the piece may not come here. -/
def Reader.step? (r : Reader) (p : Piece) : Option Reader :=
  match r.turn, p with
  | .value, p => beginValue? r.frames p
  | .firstItem, .endArray => some ⟨.after (.array []), r.frames⟩
  | .firstItem, p => beginValue? (.array [] :: r.frames) p
  | .firstKey, .string k => some ⟨.colon [] k, r.frames⟩
  | .firstKey, .endObject => some ⟨.after (.object []), r.frames⟩
  | .key members, .string k => some ⟨.colon members k, r.frames⟩
  | .colon members k, .colon => some ⟨.value, .object members k :: r.frames⟩
  | .after v, p => afterValue? v r.frames p
  | _, _ => none

/-- The value that a reader has, once nothing is open around it. -/
def Reader.value? : Reader → Option Json
  | ⟨.after v, []⟩ => some v
  | _ => none

/-- The value of a whole list of pieces. -/
def Reader.run? (r : Reader) : List Piece → Option Json
  | [] => r.value?
  | p :: ps => (r.step? p).bind (·.run? ps)

/-- The value that a text spells: one value and white space around it.

This stands for the package that reads JSON. Followed is what that documents: the grammar of JSON
with nothing behind the value, names kept in order and with repetitions, and strings that may hold
half of a surrogate pair only where nobody looks at them. How deep a text may nest is asked apart,
with `maxNesting`. -/
def parse? (text : String) : Option Json :=
  (pieces? text.toList).bind (Reader.run? ⟨.value, []⟩)

end Json

end Quill
