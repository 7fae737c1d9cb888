/-!
# Powers of two and ten

Numbers are written in tens and kept in twos. Both powers are natural numbers, found exactly.
-/

namespace Quill

/-- A power of two. -/
def twoTo (n : Nat) : Nat :=
  Nat.pow 2 n

/-- A power of ten. -/
def tenTo (n : Nat) : Nat :=
  Nat.pow 10 n

/-- The first natural number that needs more than 64 bits. -/
def wordLimit : Nat := twoTo 64

/-- The power of two for no bit. -/
@[simp] theorem twoTo_zero : twoTo 0 = 1 := rfl

/-- One more bit doubles the power. -/
theorem twoTo_succ (n : Nat) : twoTo (n + 1) = twoTo n * 2 := rfl

/-- Powers of two are multiplied by adding their exponents. -/
theorem twoTo_add (m n : Nat) : twoTo (m + n) = twoTo m * twoTo n :=
  Nat.pow_add 2 m n

/-- The powers of two grow with the exponent. -/
theorem twoTo_le {m n : Nat} (h : m ≤ n) : twoTo m ≤ twoTo n :=
  Nat.pow_le_pow_right (by decide) h

/-- A power of two is not zero. -/
theorem twoTo_pos (n : Nat) : 0 < twoTo n :=
  Nat.pow_pos (by decide)

/-- The power of ten for no digit. -/
@[simp] theorem tenTo_zero : tenTo 0 = 1 := rfl

/-- One more digit makes the power ten times as large. -/
theorem tenTo_succ (n : Nat) : tenTo (n + 1) = tenTo n * 10 := rfl

/-- The powers of ten grow with the exponent. -/
theorem tenTo_le {m n : Nat} (h : m ≤ n) : tenTo m ≤ tenTo n :=
  Nat.pow_le_pow_right (by decide) h

/-- Powers of ten compare as their exponents do. -/
theorem tenTo_lt_iff {m n : Nat} : tenTo m < tenTo n ↔ m < n :=
  Nat.pow_lt_pow_iff_right (by decide)

/-- A power of ten is not zero. -/
theorem tenTo_pos (n : Nat) : 0 < tenTo n :=
  Nat.pow_pos (by decide)

end Quill
