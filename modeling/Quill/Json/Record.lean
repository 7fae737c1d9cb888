import Quill.Json.Number

/-!
# Records in JSON

How typed readers look at a JSON value. A record is an object in which each known key stands at most
once and all other keys are passed over, or an array of the fields in order. A node of a tree is a
record with a tag, which an object holds under the key `kind` and an array as its first item.
-/

namespace Quill

namespace Json

/-- The text of a string. -/
def asText? : Json → Option String
  | .string s => s
  | _ => none

/-- A truth value. -/
def asBool? : Json → Option Bool
  | .bool b => some b
  | _ => none

/-- The items of an array. -/
def asItems? : Json → Option (List Json)
  | .array items => some items
  | _ => none

/-- A number as a double. -/
def asDouble? : Json → Option Double
  | .number d => double? d
  | _ => none

/-- A number as a 64-bit natural number. -/
def asWord64? : Json → Option Nat
  | .number d => word64? d
  | _ => none

/-- The values that stand under a key. -/
def valuesAt (name : String) (members : List (Option String × Json)) : List Json :=
  members.filterMap fun m => if m.1 = some name then some m.2 else none

/-- The value of a field that stands at most once. -/
def fieldAt? (members : List (Option String × Json)) (name : String) : Option (Option Json) :=
  match valuesAt name members with
  | [] => some none
  | [v] => some (some v)
  | _ => none

/-- The fields of a record, in order. A field that an object does not have is absent, and an array
has them all. -/
def fields? (names : List String) : Json → Option (List (Option Json))
  | .object members => names.mapM (fieldAt? members)
  | .array items => if items.length = names.length then some (items.map some) else none
  | _ => none

/-- The tag of a tagged record and what is left of the record.

This stands for the package that derives typed readers, as `fields?` does. Followed is what that
documents for a tag inside a record: the key of the tag stands once, anywhere among the others, and
in an array the tag is the first item. -/
def tagged? : Json → Option (Json × Json)
  | .object members =>
    match valuesAt "kind" members with
    | [tag] => some (tag, .object (members.filter (·.1 ≠ some "kind")))
    | _ => none
  | .array (tag :: items) => some (tag, .array items)
  | _ => none

/-- What one of a list of names, written as a string, stands for. -/
def named? {α : Type} (ofName? : String → Option α) (v : Json) : Option α :=
  v.asText?.bind ofName?

/-- What a name or a place in the list of all names stands for. -/
def namedOrPlaced? {α : Type} (all : List α) (name : α → String) (v : Json) : Option α :=
  match v with
  | .number d => (word64? d).bind fun i => all[i]?
  | _ => named? (fun s => all.find? fun a => name a == s) v

/-- What a name stands for, written as a string or as the only key of an object with nothing behind
it: null, or an object that is empty where that is allowed. -/
def caseNamed? {α : Type} (allowEmpty : Bool) (ofName? : String → Option α) : Json → Option α
  | .object [(some key, .null)] => ofName? key
  | .object [(some key, .object [])] => if allowEmpty then ofName? key else none
  | v => named? ofName? v

mutual

/-- Whether every string in a value is text and every number is in the range of doubles. -/
def readable : Json → Bool
  | .number d => (double? d).isSome
  | .string s => s.isSome
  | .array items => readableItems items
  | .object members => readableMembers members
  | _ => true

/-- Whether every item is readable. -/
def readableItems : List Json → Bool
  | [] => true
  | v :: vs => v.readable && readableItems vs

/-- Whether every key and value is readable. -/
def readableMembers : List (Option String × Json) → Bool
  | [] => true
  | (k, v) :: ms => k.isSome && v.readable && readableMembers ms

end

end Json

end Quill
