import Quill.Json.Parse
import Quill.Json.Record
import Quill.Settings.Basic

/-!
# Written settings

Settings as JSON: an object with the fields `division` and `max_depth`, each at most once and in any
order, or an array of at most these two values in this order. What is left out takes its default,
and what stands under other keys is passed over.
-/

namespace Quill

namespace Settings

/-- The settings with the given fields, written as JSON values, over the defaults. -/
def ofFields? (division maxDepth : Option Json) : Option Settings := do
  let defaults : Settings := {}
  let division ← match division with
    | none => some defaults.division
    | some v => Json.caseNamed? false Division.ofName? v
  let maxDepth ← match maxDepth with
    | none => some defaults.maxDepth
    | some v => v.asWord64?
  some { division, maxDepth }

/-- Reads settings. -/
def ofJson? : Json → Option Settings
  | .object members =>
    if members.all (·.1.isSome) then do
      let division ← Json.fieldAt? members "division"
      let maxDepth ← Json.fieldAt? members "max_depth"
      ofFields? division maxDepth
    else
      none
  | .array [] => ofFields? none none
  | .array [division] => ofFields? (some division) none
  | .array [division, maxDepth] => ofFields? (some division) (some maxDepth)
  | _ => none

/-- The settings that a JSON text writes. -/
def ofText? (text : String) : Option Settings :=
  (Json.parse? text).bind ofJson?

end Settings

end Quill
