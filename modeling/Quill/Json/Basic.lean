import Quill.Number.Decimal

/-!
# JSON values

A JSON text as a tree. Members keep their order and their repetitions, and numbers keep their
spelling, so a value says everything its text said but the white space and the way characters were
escaped. A string that names half of a surrogate pair is well-formed JSON and yet no text: it is
kept as `none`.
-/

namespace Quill

/-- A JSON value. -/
inductive Json where
  | null
  | bool (value : Bool)
  | number (value : Decimal)
  | string (text : Option String)
  | array (items : List Json)
  | object (members : List (Option String × Json))

namespace Json

/-- A string that is text. -/
def text (s : String) : Json :=
  .string (some s)

/-- A natural number. -/
def nat (n : Nat) : Json :=
  .number (.ofNat n)

/-- An object with text for keys. -/
def record (fields : List (String × Json)) : Json :=
  .object (fields.map fun f => (some f.1, f.2))

/-- Some value, or null. -/
def orNull {α : Type} (f : α → Json) : Option α → Json
  | none => .null
  | some a => f a

mutual

/-- How deep arrays and objects stand inside each other. -/
def nesting : Json → Nat
  | .array items => nestingOfItems items + 1
  | .object members => nestingOfMembers members + 1
  | _ => 0

/-- The deepest nesting among array items. -/
def nestingOfItems : List Json → Nat
  | [] => 0
  | v :: vs => max v.nesting (nestingOfItems vs)

/-- The deepest nesting among object members. -/
def nestingOfMembers : List (Option String × Json) → Nat
  | [] => 0
  | (_, v) :: ms => max v.nesting (nestingOfMembers ms)

end

end Json

end Quill
