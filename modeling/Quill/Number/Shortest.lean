import Quill.Number.Double

/-!
# Shortest digits

The fewest decimal digits that read back as a given double. A decimal reads back as the double when
it lies in the interval of numbers that round to it; the ends belong to the interval exactly when
the significand is even. For one digit, two digits and so on, the two neighbours of the value on the
grid of such decimals are tried, and of two that fit the nearer is taken.
-/

namespace Quill

/-- The decimal number `coefficient * 10 ^ power`. -/
structure Digits where
  coefficient : Nat
  power : Int
  deriving DecidableEq

/-- Which of two equally near decimals is taken. -/
inductive Ties where
  | upward
  | toEven
  deriving DecidableEq

/-- The interval of numbers that round to a double, around the value, over one denominator. -/
structure Neighbourhood where
  low : Nat
  value : Nat
  high : Nat
  den : Nat
  closed : Bool

namespace Neighbourhood

/-- The numbers that round to `x`: up to half a unit in the last place on either side, and only a
quarter below a power of two, where the doubles beneath are twice as close. -/
def of (x : Double) : Neighbourhood :=
  let unit := twoTo x.scale
  let below := if x.significand = twoTo 52 ∧ 0 < x.scale then unit else 2 * unit
  ⟨4 * x.units - below, 4 * x.units, 4 * x.units + 2 * unit, 4 * Double.grains,
    x.significand % 2 = 0⟩

/-- The interval with every bound multiplied by `k`. -/
def scaleBy (n : Neighbourhood) (k : Nat) : Neighbourhood :=
  { n with low := n.low * k, value := n.value * k, high := n.high * k }

/-- Whether `num` over the interval's denominator lies in the interval. -/
def holds (n : Neighbourhood) (num : Nat) : Bool :=
  if n.closed then
    n.low ≤ num && num ≤ n.high
  else
    n.low < num && num < n.high

/-- The power of ten of the value's leading digit. -/
def leadingPower (n : Neighbourhood) : Int :=
  ((digitsOf (n.value * tenTo 330 / n.den)).length : Int) - 331

/-- The interval with its numbers measured in units of `10 ^ power`. -/
def inUnitsOf (n : Neighbourhood) (power : Int) : Neighbourhood :=
  if 0 ≤ power then
    { n with den := n.den * tenTo power.toNat }
  else
    n.scaleBy (tenTo (-power).toNat)

/-- Of a natural number and its successor, the one nearer to the value. -/
def nearer (n : Neighbourhood) (ties : Ties) (c : Nat) : Nat :=
  let below := n.value - c * n.den
  let above := (c + 1) * n.den - n.value
  if below < above then
    c
  else if above < below then
    c + 1
  else
    match ties with
    | .upward => c + 1
    | .toEven => if c % 2 = 0 then c else c + 1

/-- The natural number next to the value that lies in the interval, the nearer one of two. -/
def neighbour? (n : Neighbourhood) (ties : Ties) : Option Nat :=
  let c := n.value / n.den
  match n.holds (c * n.den), n.holds ((c + 1) * n.den) with
  | true, true => some (n.nearer ties c)
  | true, false => some c
  | false, true => some (c + 1)
  | false, false => none

end Neighbourhood

/-- The first hit on the grids of `17 - left` digits and more. Seventeen digits always suffice, so
on that grid the nearest point is taken. -/
def searchDigits (n : Neighbourhood) (ties : Ties) (leading : Int) : Nat → Digits
  | 0 =>
    let grid := n.inUnitsOf (leading - 16)
    ⟨grid.nearer ties (grid.value / grid.den), leading - 16⟩
  | left + 1 =>
    let power := leading - (15 - left : Int)
    match (n.inUnitsOf power).neighbour? ties with
    | some c => ⟨c, power⟩
    | none => searchDigits n ties leading left

/-- The fewest digits that read back as the magnitude of `x`, and of those the nearest to it. -/
def shortestDigits (ties : Ties) (x : Double) : Digits :=
  if x.isZero then
    ⟨0, 0⟩
  else
    let n := Neighbourhood.of x
    let found := searchDigits n ties n.leadingPower 16
    if found.coefficient = 10 then ⟨1, found.power + 1⟩ else found

end Quill
