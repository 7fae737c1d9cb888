import Quill.Json.Basic
import Quill.Number.Double

/-!
# JSON numbers as machine numbers

The double and the 64-bit natural number that a JSON number stands for. The double is found in few
steps of double arithmetic: the leading digits that fit into 64 bits are taken as an integer, and
that integer, as a double, is multiplied or divided by a power of ten, as a double. Each step
rounds, so the result can lie next to the double nearest to the number. A number too great for a
double is refused, and one too small becomes zero.
-/

namespace Quill

/-- Takes digits into a significand as long as it fits into 64 bits. The second part counts the
digits that were taken. -/
def takeDigits (significand : Nat) : List Char → Nat × Nat
  | [] => (significand, 0)
  | d :: ds =>
    let next := 10 * significand + (d.toNat - '0'.toNat)
    if next < wordLimit then
      let (s, taken) := takeDigits next ds
      (s, taken + 1)
    else
      (significand, 0)

namespace Double

/-- The double nearest to a power of ten up to the greatest that has one. -/
def powerOfTen (n : Nat) : Double :=
  (ofRatio? (tenTo n) 1).getD (zero false)

/-- The quotient by a power of ten, in steps of at most `10 ^ 308`. Nothing more happens to zero. -/
def divPowerOfTen (x : Double) (n : Nat) : Double :=
  if n ≤ 308 then
    (x.div? (powerOfTen n)).getD x
  else if x.isZero then
    x
  else
    ((x.div? (powerOfTen 308)).getD x).divPowerOfTen (n - 308)
termination_by n

/-- The product by a power of ten, unless it is too great. -/
def mulPowerOfTen? (x : Double) (n : Nat) : Option Double :=
  if n ≤ 308 then
    x.mul? (powerOfTen n)
  else if x.isZero then
    some x
  else
    none

/-- A 64-bit significand scaled by a power of ten. -/
def scale? (significand : Nat) (power : Int) : Option Double :=
  (ofRatio? significand 1).bind fun x =>
    if 0 ≤ power then
      x.mulPowerOfTen? power.toNat
    else
      some (x.divPowerOfTen (-power).toNat)

end Double

namespace Json

/-- The double that a JSON number stands for.

This stands for the package that reads JSON. Followed is what that documents for its fast way, which
the program takes, as it does not ask for the exact one: a significand of 64 bits and a power of
ten, each a double, with one rounding for each step. -/
def double? (d : Decimal) : Option Double :=
  let (whole, kept) := takeDigits 0 d.whole
  let (significand, behind) := takeDigits whole (d.fraction.getD [])
  let power := ((d.whole.length - kept : Nat) : Int) - behind + d.exponent.elim 0 Exponent.value
  (Double.scale? significand power).map (·.withSign d.negative)

/-- The 64-bit natural number that a JSON number stands for: an integer without a sign. -/
def word64? (d : Decimal) : Option Nat :=
  let n := digitsValue d.whole
  if d.negative = false ∧ d.fraction = none ∧ d.exponent = none ∧ n < wordLimit then
    some n
  else
    none

end Json

end Quill
