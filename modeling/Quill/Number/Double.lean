import Quill.Number.Decimal

/-!
# Finite doubles

A finite binary floating point number of 64 bits, kept as sign, significand and scale in the one
canonical form that its bits give, so that equal values of this type are equal bit for bit. The
magnitude is `significand * 2 ^ scale` grains, a grain being `2 ^ -1074`. Rounding is exact: a
quotient of natural numbers goes to the nearest double, and a tie to the even significand.
-/

namespace Quill

/-- A finite double: the magnitude `significand * 2 ^ scale / 2 ^ 1074` with a sign, which zero has
too.

Infinities and what is not a number are left out. Neither a script nor JSON text makes one, but a
token that is made by hand could hold one, and what is said of streams of items is said of those
without. -/
structure Double where
  negative : Bool
  significand : Nat
  scale : Nat
  significand_lt : significand < twoTo 53
  scale_le : scale ≤ 2045
  canonical : scale = 0 ∨ twoTo 52 ≤ significand
  deriving DecidableEq

/-- The quotient rounded to the nearest natural number, ties to the even one. -/
def roundHalfEven (num den : Nat) : Nat :=
  let q := num / den
  let r := num % den
  if 2 * r < den ∨ (2 * r = den ∧ q % 2 = 0) then q else q + 1

namespace Double

/-- How many grains make one. -/
def grains : Nat := twoTo 1074

/-- The zero with the given sign. -/
def zero (negative : Bool) : Double :=
  ⟨negative, 0, 0, by decide, by decide, .inl rfl⟩

/-- The double with the given parts, if they are canonical and small enough. -/
def ofParts? (negative : Bool) (significand scale : Nat) : Option Double :=
  if h : significand < twoTo 53 ∧ scale ≤ 2045 ∧ (scale = 0 ∨ twoTo 52 ≤ significand) then
    some ⟨negative, significand, scale, h.1, h.2.1, h.2.2⟩
  else
    none

/-- The magnitude in grains. -/
def units (x : Double) : Nat :=
  x.significand * twoTo x.scale

/-- Whether the number is zero, of either sign. -/
def isZero (x : Double) : Bool :=
  x.significand = 0

/-- The same magnitude with the given sign. -/
def withSign (x : Double) (negative : Bool) : Double :=
  { x with negative }

/-- The double nearest to `num / den`, ties to the even significand. There is none when the quotient
rounds to a magnitude of `2 ^ 1024` or more. -/
def ofRatio? (num den : Nat) : Option Double :=
  let scaled := num * grains
  let scale := (scaled / den).log2 - 52
  let significand := roundHalfEven scaled (den * twoTo scale)
  if significand = twoTo 53 then
    ofParts? false (twoTo 52) (scale + 1)
  else
    ofParts? false significand scale

/-- The double nearest to a written decimal. A decimal far outside the range is settled by its
leading digit's place alone, without forming a power of ten. -/
def ofDecimal? (d : Decimal) : Option Double :=
  let place := d.power + d.significantDigits
  let magnitude :=
    if d.coefficient = 0 ∨ place < -330 then
      some (zero false)
    else if 310 < place then
      none
    else
      ofRatio? d.ratio.1 d.ratio.2
  magnitude.map (·.withSign d.negative)

/-- The product's magnitude, rounded to the nearest double. -/
def mul? (x y : Double) : Option Double :=
  ofRatio? (x.units * y.units) (grains * grains)

/-- The quotient's magnitude, rounded to the nearest double. -/
def div? (x y : Double) : Option Double :=
  ofRatio? x.units y.units

end Double

end Quill
