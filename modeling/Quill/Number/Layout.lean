import Quill.Number.Shortest

/-!
# Number layouts

How the shortest digits of a double are laid out as text. A layout says which way a tie between two
shortest decimals goes, which sizes are written without an exponent, and whether a whole number
keeps its point. Two layouts are in use: `Layout.data` for written trees and tokens, `Layout.plain`
for expressions shown to people.
-/

namespace Quill

/-- The decisions of a number format. `positional p` tells whether a number whose leading digit has
the place `p` is written without an exponent. -/
structure Layout where
  ties : Ties
  positional : Int → Bool
  keepPoint : Bool

namespace Layout

/-- Numbers in data: positional from `0.00001` up to below `10 ^ 16`, with a point always, and
otherwise one leading digit and a signed exponent. -/
def data : Layout where
  ties := .toEven
  positional p := -5 ≤ p && p < 16
  keepPoint := true

/-- Numbers in shown expressions: never an exponent, and no point behind a whole number. -/
def plain : Layout where
  ties := .upward
  positional _ := true
  keepPoint := false

/-- Digits written out around the point, the leading one at the place `p`. -/
def spread (keepPoint : Bool) (ds : List Char) (p : Int) : List Char × Option (List Char) :=
  if p < 0 then
    (['0'], some (List.replicate (-p - 1).toNat '0' ++ ds))
  else
    let width := p.toNat + 1
    if width < ds.length then
      (ds.take width, some (ds.drop width))
    else
      (ds ++ List.replicate (width - ds.length) '0', if keepPoint then some ['0'] else none)

/-- The digits of a number with one of them before the point, and an exponent. -/
def scientific (negative : Bool) (ds : List Char) (p : Int) : Decimal where
  negative
  whole := ds.take 1
  fraction := if ds.length ≤ 1 then none else some (ds.drop 1)
  exponent := some ⟨'e', some (if p < 0 then '-' else '+'), digitsOf p.natAbs⟩

/-- The text of a double in a layout. -/
def write (layout : Layout) (x : Double) : Decimal :=
  let found := shortestDigits layout.ties x
  let ds := digitsOf found.coefficient
  let p := found.power + (ds.length : Int) - 1
  if layout.positional p then
    let parts := spread layout.keepPoint ds p
    ⟨x.negative, parts.1, parts.2, none⟩
  else
    scientific x.negative ds p

end Layout

end Quill
