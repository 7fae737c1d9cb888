import Quill.Number.Power

/-!
# Written decimals

A decimal number as it is written: sign, digits before the point, digits behind it, and an exponent.
Readers decide which spellings they allow; here stands what a spelling means, as an integer
coefficient times a power of ten, and how it is written back.
-/

namespace Quill

/-- The exponent of a decimal as written: its letter, its sign if there is one, and its digits. -/
structure Exponent where
  mark : Char
  sign : Option Char
  digits : List Char
  deriving DecidableEq

/-- A decimal number as written. `fraction` is absent when there is no point. -/
structure Decimal where
  negative : Bool
  whole : List Char
  fraction : Option (List Char)
  exponent : Option Exponent
  deriving DecidableEq

/-- The number that a run of decimal digits spells. -/
def digitsValue (ds : List Char) : Nat :=
  ds.foldl (fun n d => 10 * n + (d.toNat - '0'.toNat)) 0

/-- The digits of a natural number, without leading zeros. -/
def digitsOf (n : Nat) : List Char :=
  Nat.toDigits 10 n

namespace Exponent

/-- The exponent as text. -/
def spell (e : Exponent) : List Char :=
  e.mark :: (e.sign.toList ++ e.digits)

/-- The power of ten that the exponent stands for. -/
def value (e : Exponent) : Int :=
  if e.sign = some '-' then -(digitsValue e.digits : Int) else digitsValue e.digits

end Exponent

namespace Decimal

/-- The number as text. -/
def spell (d : Decimal) : List Char :=
  (if d.negative then ['-'] else []) ++ d.whole ++
    (match d.fraction with
      | none => []
      | some ds => '.' :: ds) ++
    (match d.exponent with
      | none => []
      | some e => e.spell)

/-- A natural number, written without point and exponent. -/
def ofNat (n : Nat) : Decimal :=
  ⟨false, digitsOf n, none, none⟩

/-- Every digit of the number, without the exponent's. -/
def digits (d : Decimal) : List Char :=
  d.whole ++ d.fraction.getD []

/-- The digits read as one integer. -/
def coefficient (d : Decimal) : Nat :=
  digitsValue d.digits

/-- The power of ten that scales the coefficient to the number's magnitude. -/
def power (d : Decimal) : Int :=
  (d.exponent.elim 0 Exponent.value) - ((d.fraction.getD []).length : Int)

/-- The magnitude as a quotient of natural numbers, exactly. -/
def ratio (d : Decimal) : Nat × Nat :=
  if 0 ≤ d.power then
    (d.coefficient * tenTo d.power.toNat, 1)
  else
    (d.coefficient, tenTo (-d.power).toNat)

/-- How many digits stand from the first nonzero one on. -/
def significantDigits (d : Decimal) : Nat :=
  (d.digits.dropWhile (· = '0')).length

end Decimal

end Quill
