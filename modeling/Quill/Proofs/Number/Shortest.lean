import Mathlib.Algebra.Order.Field.Power
import Mathlib.Tactic.NormNum
import Quill.Number.Shortest
import Quill.Proofs.Number.Rounding

/-!
# Shortest digits

What the search for the shortest digits of a double finds: between one and seventeen digits, which
miss the double by half a unit in its last place at most (`shortestDigits_spec`). On the grid of
`10 ^ p` the magnitude of a double is a natural number with a remainder; the candidates are that
number and the next one, and the place of the leading digit tells how great they are.
-/

namespace Quill

/-! ## The place of the leading digit -/

/-- How many digits a number has, as a bound on the number. -/
lemma lt_length_digitsOf_iff {n k : Nat} (hn : 0 < n) : k < (digitsOf n).length ↔ tenTo k ≤ n := by
  cases k with
  | zero => exact ⟨fun _ => hn, fun _ => Nat.length_toDigits_pos⟩
  | succ k =>
    rw [← Nat.not_le, digitsOf, Nat.length_toDigits_le_iff (by decide) (Nat.succ_pos k), Nat.not_lt]
    rfl

/-- The digits of a number do not begin with a zero. -/
lemma head_digitsOf {n : Nat} (hn : 0 < n) : (digitsOf n).head? ≠ some '0' := by
  intro zero
  obtain ⟨ds, hds⟩ := List.head?_eq_some_iff.1 zero
  have digits : AreDigits ds :=
    fun d hd => areDigits_digitsOf n d (hds ▸ List.mem_cons_of_mem _ hd)
  have value : n = digitsValue ds := by
    have := digitsValue_digitsOf n
    rw [hds, digitsValue_cons] at this
    simpa using this.symm
  have long : tenTo ds.length ≤ n := by
    rw [← lt_length_digitsOf_iff hn, hds]
    exact Nat.lt_succ_self _
  have := digits.value_lt
  omega

/-- The magnitude that digits stand for. -/
def Digits.magnitude (r : Digits) : ℚ :=
  r.coefficient * 10 ^ r.power

namespace Neighbourhood

variable {n : Neighbourhood}

/-- The value in the middle, as a number. -/
def middle (n : Neighbourhood) : ℚ :=
  n.value / n.den

/-- The upper end, as a number. -/
def top (n : Neighbourhood) : ℚ :=
  n.high / n.den

/-- Another unit keeps the denominator positive. -/
lemma den_inUnitsOf (hd : 0 < n.den) (p : ℤ) : 0 < (n.inUnitsOf p).den := by
  unfold inUnitsOf
  split
  · exact Nat.mul_pos hd (tenTo_pos _)
  · exact hd

/-- The powers of ten, as numbers. -/
lemma cast_tenTo (k : Nat) : (tenTo k : ℚ) = 10 ^ k := by
  exact_mod_cast rfl

/-- Measured in units of `10 ^ p`, both numbers are smaller by that factor. -/
lemma inUnitsOf_eq (n : Neighbourhood) (p : ℤ) :
    (n.inUnitsOf p).middle = n.middle / 10 ^ p ∧ (n.inUnitsOf p).top = n.top / 10 ^ p := by
  unfold inUnitsOf
  split
  · rename_i hp
    obtain ⟨k, rfl⟩ := Int.eq_ofNat_of_zero_le hp
    simp [middle, top, cast_tenTo, div_div]
  · rename_i hp
    obtain ⟨k, rfl⟩ := Int.exists_eq_neg_ofNat (Int.le_of_not_le hp)
    simp [middle, top, scaleBy, cast_tenTo, mul_div_right_comm]

/-- The leading digit of the value stands at the leading power. -/
lemma leadingPower_bounds (hd : 0 < n.den) (hv : n.den ≤ n.value * tenTo 330) :
    10 ^ n.leadingPower ≤ n.middle ∧ n.middle < 10 ^ (n.leadingPower + 1) := by
  have den_pos : (0 : ℚ) < n.den := by exact_mod_cast hd
  have quotient_pos : 0 < n.value * tenTo 330 / n.den := Nat.div_pos hv hd
  obtain ⟨k, hk⟩ : ∃ k, (digitsOf (n.value * tenTo 330 / n.den)).length = k + 1 :=
    Nat.exists_eq_succ_of_ne_zero (Nat.length_toDigits_pos).ne'
  have low : tenTo k * n.den ≤ n.value * tenTo 330 := by
    rw [← Nat.le_div_iff_mul_le hd, ← lt_length_digitsOf_iff quotient_pos, hk]
    exact Nat.lt_succ_self k
  have high : n.value * tenTo 330 < tenTo (k + 1) * n.den := by
    rw [← Nat.div_lt_iff_lt_mul hd, ← Nat.not_le, ← lt_length_digitsOf_iff quotient_pos, hk]
    exact Nat.lt_irrefl _
  have places (i j : Nat) : (10 : ℚ) ^ (i - j : ℤ) = tenTo i / tenTo j := by
    rw [zpow_sub₀ (by norm_num), zpow_natCast, zpow_natCast, cast_tenTo, cast_tenTo]
  have low : (tenTo k * n.den : ℚ) ≤ n.value * tenTo 330 := by exact_mod_cast low
  have high : (n.value * tenTo 330 : ℚ) < tenTo (k + 1) * n.den := by exact_mod_cast high
  have all_pos : (0 : ℚ) < tenTo 330 := by exact_mod_cast tenTo_pos 330
  have leading : n.leadingPower = k - (330 : Nat) := by
    rw [leadingPower, hk]
    omega
  have behind : n.leadingPower + 1 = (k + 1 : Nat) - (330 : Nat) := by omega
  rw [behind, leading, places, places, middle]
  constructor
  · rwa [div_le_div_iff₀ all_pos den_pos]
  · rwa [div_lt_div_iff₀ den_pos all_pos]

/-! ## The search -/

/-- One of the two natural numbers around the value that lies in the interval is at most its end. -/
lemma le_top_of_holds (hd : 0 < n.den) {c : Nat} (h : n.holds (c * n.den) = true) :
    (c : ℚ) ≤ n.top := by
  have den_pos : (0 : ℚ) < n.den := by exact_mod_cast hd
  have high : c * n.den ≤ n.high := by
    unfold holds at h
    split at h
    · exact of_decide_eq_true (Bool.and_eq_true_iff.1 h).2
    · exact (of_decide_eq_true (Bool.and_eq_true_iff.1 h).2).le
  rw [top, le_div_iff₀ den_pos]
  exact_mod_cast high

/-- The nearer of the two natural numbers around a value is one of the two. -/
lemma nearer_eq (n : Neighbourhood) (ties : Ties) (c : Nat) :
    n.nearer ties c = c ∨ n.nearer ties c = c + 1 := by
  unfold nearer
  dsimp only
  split
  · exact .inl rfl
  · split
    · exact .inr rfl
    · cases ties with
      | upward => exact .inr rfl
      | toEven =>
        dsimp only
        split
        · exact .inl rfl
        · exact .inr rfl

/-- The nearer one of two misses the value by half of their distance at most. -/
lemma nearer_bounds (hd : 0 < n.den) (ties : Ties) :
    2 * n.value ≤ 2 * (n.nearer ties (n.value / n.den) * n.den) + n.den ∧
      2 * (n.nearer ties (n.value / n.den) * n.den) ≤ 2 * n.value + n.den := by
  have split := Nat.div_add_mod n.value n.den
  have less := Nat.mod_lt n.value hd
  rw [Nat.mul_comm n.den] at split
  generalize n.value / n.den = c at *
  have next : (c + 1) * n.den = c * n.den + n.den := Nat.succ_mul c n.den
  unfold nearer
  dsimp only
  split
  · omega
  · split
    · omega
    · -- Both are equally near.
      cases ties with
      | upward =>
        dsimp only
        omega
      | toEven =>
        dsimp only
        split
        · omega
        · omega

/-- The nearer one of two exceeds the value by half of their distance at most. -/
lemma nearer_le (hd : 0 < n.den) (ties : Ties) :
    (n.nearer ties (n.value / n.den) : ℚ) ≤ n.middle + 1 / 2 := by
  have den_pos : (0 : ℚ) < n.den := by exact_mod_cast hd
  have near : (2 * (n.nearer ties (n.value / n.den) * n.den) : ℚ) ≤ 2 * n.value + n.den := by
    exact_mod_cast (nearer_bounds hd ties).2
  rw [middle, ← sub_le_iff_le_add, le_div_iff₀ den_pos]
  linarith

/-- A neighbour that is found is one of the two numbers around the value and lies in the
interval. -/
lemma neighbour?_spec {c : Nat} {ties : Ties} (h : n.neighbour? ties = some c) :
    (c = n.value / n.den ∨ c = n.value / n.den + 1) ∧ n.holds (c * n.den) = true := by
  unfold neighbour? at h
  dsimp only at h
  split at h
  · rename_i below above
    cases h
    obtain same | next := n.nearer_eq ties (n.value / n.den)
    · rw [same]
      exact ⟨.inl rfl, below⟩
    · rw [next]
      exact ⟨.inr rfl, above⟩
  · rename_i below _
    cases h
    exact ⟨.inl rfl, below⟩
  · rename_i _ above
    cases h
    exact ⟨.inr rfl, above⟩
  · cases h

/-- What the search may find: on one of the seventeen grids, one of the two numbers around the
value. It is not beyond the interval, or on the last grid not beyond half a step. -/
structure Found (n : Neighbourhood) (leading : ℤ) (r : Digits) : Prop where
  grid : ∃ k : Nat, k ≤ 16 ∧ r.power = leading - k
  next : r.coefficient = (n.inUnitsOf r.power).value / (n.inUnitsOf r.power).den ∨
    r.coefficient = (n.inUnitsOf r.power).value / (n.inUnitsOf r.power).den + 1
  close : (r.coefficient : ℚ) ≤ (n.inUnitsOf r.power).top ∨
    r.power = leading - 16 ∧ (r.coefficient : ℚ) ≤ (n.inUnitsOf r.power).middle + 1 / 2

/-- The search finds digits on one of its grids. -/
lemma found_searchDigits (hd : 0 < n.den) (ties : Ties) (leading : ℤ) {left : Nat}
    (hl : left ≤ 16) : n.Found leading (searchDigits n ties leading left) := by
  induction left with
  | zero =>
    exact ⟨⟨16, Nat.le_refl _, rfl⟩, nearer_eq _ _ _, .inr ⟨rfl, nearer_le (den_inUnitsOf hd _) ties⟩⟩
  | succ left ih =>
    unfold searchDigits
    dsimp only
    split
    · rename_i c hc
      obtain ⟨next, holds⟩ := neighbour?_spec hc
      refine ⟨⟨15 - left, by omega, ?_⟩, next, .inl (le_top_of_holds (den_inUnitsOf hd _) holds)⟩
      dsimp only
      omega
    · exact ih (by omega)

/-- Where the grid begins at the leading digit, there are between one and seventeen digits. -/
lemma Found.coefficient_bounds {leading : ℤ} {r : Digits} (h : n.Found leading r)
    (hd : 0 < n.den) (low : 10 ^ leading ≤ n.middle) (high : n.middle < 10 ^ (leading + 1)) :
    0 < r.coefficient ∧ r.coefficient ≤ tenTo 17 := by
  obtain ⟨⟨k, hk, place⟩, next, _⟩ := h
  have den_pos := den_inUnitsOf hd r.power
  have cast_den_pos : (0 : ℚ) < (n.inUnitsOf r.power).den := by exact_mod_cast den_pos
  have grid_pos : (0 : ℚ) < 10 ^ r.power := by positivity
  have middle := (n.inUnitsOf_eq r.power).1
  have low : tenTo k ≤ (n.inUnitsOf r.power).value / (n.inUnitsOf r.power).den := by
    have start : (tenTo k : ℚ) * 10 ^ r.power = 10 ^ leading := by
      rw [cast_tenTo, ← zpow_natCast, ← zpow_add₀ (by norm_num)]
      congr 1
      omega
    have above : (tenTo k : ℚ) ≤ (n.inUnitsOf r.power).middle := by
      rw [middle, le_div_iff₀ grid_pos, start]
      exact low
    rw [Neighbourhood.middle, le_div_iff₀ cast_den_pos] at above
    rw [Nat.le_div_iff_mul_le den_pos]
    exact_mod_cast above
  have high : (n.inUnitsOf r.power).value / (n.inUnitsOf r.power).den < tenTo (k + 1) := by
    have stop : (tenTo (k + 1) : ℚ) * 10 ^ r.power = 10 ^ (leading + 1) := by
      rw [cast_tenTo, ← zpow_natCast, ← zpow_add₀ (by norm_num)]
      congr 1
      omega
    have below : (n.inUnitsOf r.power).middle < (tenTo (k + 1) : ℚ) := by
      rw [middle, div_lt_iff₀ grid_pos, stop]
      exact high
    rw [Neighbourhood.middle, div_lt_iff₀ cast_den_pos] at below
    rw [Nat.div_lt_iff_lt_mul den_pos]
    exact_mod_cast below
  have one : 0 < tenTo k := tenTo_pos k
  have seventeen : tenTo (k + 1) ≤ tenTo 17 := tenTo_le (by omega)
  omega

/-- What is found is not twice as great as the value. -/
lemma Found.magnitude_le_double {leading : ℤ} {r : Digits} (h : n.Found leading r)
    (hd : 0 < n.den) (low : 10 ^ leading ≤ n.middle) : r.magnitude ≤ 2 * n.middle := by
  obtain ⟨⟨k, _, place⟩, next, _⟩ := h
  have grid_pos : (0 : ℚ) < 10 ^ r.power := by positivity
  have den_pos := den_inUnitsOf hd r.power
  have cast_den_pos : (0 : ℚ) < (n.inUnitsOf r.power).den := by exact_mod_cast den_pos
  have middle := (n.inUnitsOf_eq r.power).1
  have below : r.coefficient * (n.inUnitsOf r.power).den ≤
      (n.inUnitsOf r.power).value + (n.inUnitsOf r.power).den := by
    have split := Nat.div_mul_le_self (n.inUnitsOf r.power).value (n.inUnitsOf r.power).den
    obtain next | next := next
    · rw [next]
      omega
    · rw [next, Nat.add_mul]
      omega
  have below : (r.coefficient : ℚ) ≤ (n.inUnitsOf r.power).middle + 1 := by
    rw [Neighbourhood.middle, div_add_one cast_den_pos.ne', le_div_iff₀ cast_den_pos]
    exact_mod_cast below
  have one : (1 : ℚ) ≤ (n.inUnitsOf r.power).middle := by
    rw [middle, le_div_iff₀ grid_pos, one_mul]
    exact (zpow_le_zpow_right₀ (by norm_num) (by omega)).trans low
  rw [Digits.magnitude, ← le_div_iff₀ grid_pos, mul_div_assoc, ← middle]
  linarith

/-- What is found exceeds the value by no more than the interval does, or the last grid. -/
lemma Found.magnitude_le {leading : ℤ} {r : Digits} (h : n.Found leading r)
    (low : 10 ^ leading ≤ n.middle) (wide : n.top ≤ (1 + Double.roundoff) * n.middle) :
    r.magnitude ≤ (1 + Double.roundoff) * n.middle := by
  have grid_pos : (0 : ℚ) < 10 ^ r.power := by positivity
  obtain ⟨middle, top⟩ := n.inUnitsOf_eq r.power
  rw [Digits.magnitude, ← le_div_iff₀ grid_pos]
  obtain inner | ⟨last, near⟩ := h.close
  · calc (r.coefficient : ℚ) ≤ n.top / 10 ^ r.power := top ▸ inner
      _ ≤ (1 + Double.roundoff) * n.middle / 10 ^ r.power := by gcongr
  · have far : (10 : ℚ) ^ 16 ≤ n.middle / 10 ^ r.power := by
      rw [le_div_iff₀ grid_pos, last, ← zpow_natCast, ← zpow_add₀ (by norm_num)]
      simpa using low
    rw [middle] at near
    rw [mul_div_assoc, Double.roundoff]
    linarith

end Neighbourhood

/-! ## The digits of a double -/

/-- Ten on a grid is one on the next. -/
lemma Digits.magnitude_carry (p : ℤ) : magnitude ⟨1, p + 1⟩ = magnitude ⟨10, p⟩ := by
  rw [magnitude, magnitude, zpow_add_one₀ (by norm_num)]
  push_cast
  ring

section

variable {x : Double}

/-- The value in the middle of a double's interval is its magnitude. -/
lemma middle_of (x : Double) : (Neighbourhood.of x).middle = x.magnitude := by
  have grains_pos : (0 : ℚ) < Double.grains := by exact_mod_cast twoTo_pos 1074
  simp only [Neighbourhood.middle, Neighbourhood.of, Double.magnitude]
  push_cast
  field_simp

/-- Where doubles have all their bits, the interval of a double is narrow. -/
lemma top_of_le (normal : twoTo 52 ≤ x.significand) :
    (Neighbourhood.of x).top ≤ (1 + Double.roundoff) * (Neighbourhood.of x).middle := by
  have grains_pos : (0 : ℚ) < Double.grains := by exact_mod_cast twoTo_pos 1074
  have units : twoTo 52 * twoTo x.scale ≤ x.units := Nat.mul_le_mul_right _ normal
  have units : (2 : ℚ) ^ 52 * twoTo x.scale ≤ x.units := by exact_mod_cast units
  simp only [Neighbourhood.top, Neighbourhood.middle, Neighbourhood.of, Double.roundoff]
  push_cast
  rw [← mul_div_assoc, div_le_div_iff_of_pos_right (by linarith)]
  linarith

/-- A double that is not zero is not too small for the search for its leading digit. -/
lemma den_le_value (hx : x.significand ≠ 0) :
    (Neighbourhood.of x).den ≤ (Neighbourhood.of x).value * tenTo 330 := by
  have units_pos : 1 ≤ x.units := Nat.mul_pos (Nat.pos_of_ne_zero hx) (twoTo_pos _)
  have grains_le : Double.grains ≤ tenTo 330 := by decide +kernel
  calc 4 * Double.grains ≤ 4 * tenTo 330 := Nat.mul_le_mul_left 4 grains_le
    _ = 4 * 1 * tenTo 330 := by rw [Nat.mul_one]
    _ ≤ 4 * x.units * tenTo 330 := Nat.mul_le_mul_right _ (Nat.mul_le_mul_left 4 units_pos)

/-- The shortest digits are those of the search, but for a carry into one more digit. -/
lemma shortestDigits_eq {ties : Ties} {r : Digits} (hx : x.significand ≠ 0)
    (hr : searchDigits (.of x) ties (Neighbourhood.of x).leadingPower 16 = r) :
    shortestDigits ties x = if r.coefficient = 10 then ⟨1, r.power + 1⟩ else r := by
  have visible : x.isZero = false := by simp [Double.isZero, hx]
  unfold shortestDigits
  rw [if_neg (by simp [visible])]
  dsimp only
  rw [hr]

/-- The shortest digits of a double are at least one and at most seventeen. They are not twice as
great as its magnitude, and where doubles have all their bits they exceed it by a small factor. -/
theorem shortestDigits_spec (ties : Ties) (hx : x.significand ≠ 0) :
    0 < (shortestDigits ties x).coefficient ∧ (shortestDigits ties x).coefficient ≤ tenTo 17 ∧
      (shortestDigits ties x).magnitude ≤ 2 * x.magnitude ∧
      (twoTo 52 ≤ x.significand →
        (shortestDigits ties x).magnitude ≤ (1 + Double.roundoff) * x.magnitude) := by
  have den_pos : 0 < (Neighbourhood.of x).den := Nat.mul_pos (by decide) (twoTo_pos _)
  obtain ⟨low, high⟩ := Neighbourhood.leadingPower_bounds den_pos (den_le_value hx)
  obtain ⟨r, hr⟩ : ∃ r, searchDigits (.of x) ties (Neighbourhood.of x).leadingPower 16 = r :=
    ⟨_, rfl⟩
  have found := Neighbourhood.found_searchDigits den_pos ties (Neighbourhood.of x).leadingPower
    (Nat.le_refl 16)
  rw [hr] at found
  obtain ⟨pos, le⟩ := found.coefficient_bounds den_pos low high
  have double := found.magnitude_le_double den_pos low
  have near (normal : twoTo 52 ≤ x.significand) := found.magnitude_le low (top_of_le normal)
  rw [middle_of] at double near
  rw [shortestDigits_eq hx hr]
  split
  · rename_i ten
    rw [Digits.magnitude_carry, ← ten]
    exact ⟨Nat.one_pos, tenTo_pos 17, double, near⟩
  · exact ⟨pos, le, double, near⟩

end

end Quill
