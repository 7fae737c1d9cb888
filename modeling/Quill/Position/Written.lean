import Quill.Json.Record
import Quill.Position.Basic

/-!
# Written positions

Positions as JSON objects of their three numbers, and back.
-/

namespace Quill

namespace Position

/-- A position as JSON. -/
def toJson (p : Position) : Json :=
  .record [("offset", .nat p.offset), ("line", .nat p.line), ("column", .nat p.column)]

/-- Reads a position. -/
def ofJson? (v : Json) : Option Position := do
  match ← v.fields? ["offset", "line", "column"] with
  | [some offset, some line, some column] =>
    let offset ← offset.asWord64?
    let line ← line.asWord64?
    let column ← column.asWord64?
    some ⟨offset, line, column⟩
  | _ => none

end Position

end Quill
