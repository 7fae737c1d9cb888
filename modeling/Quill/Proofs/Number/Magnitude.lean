import Mathlib.Algebra.Order.Ring.Abs
import Quill.Proofs.Number.Nearest

/-!
# Numbers by their magnitude

Which double a number is read as depends on its magnitude alone: two literals of one magnitude are
the same double (`ofDecimal?_eq_nearest?`), there is none exactly from `2 ^ 1024 - 2 ^ 970` on
(`nearest?_eq_none_iff`), and otherwise it is the nearest of all doubles, the one with the even
significand where two are as near (`isNearest_of_nearest?`).

A quotient is rounded on a grid that its own binade determines. Doubles of that binade or a greater
one lie on the grid, where the nearest number is found by rounding; those of a smaller binade are
below the least number of this one.
-/

namespace Quill

/-! ## Rounding to a natural number -/

/-- A number that is not below a power of two has as many bits. -/
lemma le_log2 {m k : Nat} (h : twoTo k ≤ m) : k ≤ m.log2 :=
  (Nat.le_log2 (Nat.lt_of_lt_of_le (twoTo_pos k) h).ne').2 h

/-- Only the quotient counts. -/
lemma roundHalfEven_mul_right (num den : Nat) {k : Nat} (hk : 0 < k) :
    roundHalfEven (num * k) (den * k) = roundHalfEven num den := by
  have less (a b : Nat) : a * k < b * k ↔ a < b := Nat.mul_lt_mul_right hk
  have same (a b : Nat) : a * k = b * k ↔ a = b := Nat.mul_left_inj hk.ne'
  simp only [roundHalfEven, Nat.mul_div_mul_right _ _ hk, Nat.mul_mod_mul_right, ← Nat.mul_assoc,
    less, same]

section

variable {s m : Nat} {t : ℚ}

/-- The same as a distance between numbers. -/
lemma abs_roundHalfEven_sub (num : Nat) {den : Nat} (hd : 0 < den) :
    |(roundHalfEven num den : ℚ) - num / den| ≤ 1 / 2 ∧
      (|(roundHalfEven num den : ℚ) - num / den| = 1 / 2 → roundHalfEven num den % 2 = 0) := by
  obtain ⟨⟨low, high⟩, inner⟩ := roundHalfEven_near hd rfl
  generalize roundHalfEven num den = m at *
  have den_pos : (0 : ℚ) < den := by exact_mod_cast hd
  have distance : (m : ℚ) - num / den = (m * den - num) / den := by
    rw [sub_div, mul_div_cancel_right₀ _ den_pos.ne']
  rw [distance, abs_div, abs_of_pos den_pos, div_le_iff₀ den_pos, div_eq_iff den_pos.ne', abs_le]
  have low : (2 * (m * den) : ℚ) ≤ 2 * num + den := by exact_mod_cast low
  have high : (2 * num : ℚ) ≤ 2 * (m * den) + den := by exact_mod_cast high
  refine ⟨⟨by linarith, by linarith⟩, fun tie => ?_⟩
  by_contra odd
  obtain ⟨below, above⟩ := inner (by omega)
  have below : (2 * (m * den) : ℚ) < 2 * num + den := by exact_mod_cast below
  have above : (2 * num : ℚ) < 2 * (m * den) + den := by exact_mod_cast above
  obtain same | same := abs_choice ((m : ℚ) * den - num)
  · linarith
  · linarith

/-- Two natural numbers are at least one apart. -/
lemma one_le_abs_sub_add (ne : m ≠ s) : 1 ≤ |(m : ℚ) - t| + |(s : ℚ) - t| := by
  have apart : (1 : ℚ) ≤ |(m : ℚ) - s| := by
    have : (1 : ℤ) ≤ |(m : ℤ) - s| := Int.one_le_abs (by omega)
    exact_mod_cast this
  calc (1 : ℚ) ≤ |(m : ℚ) - s| := apart
    _ = |(m - t) - (s - t)| := by rw [sub_sub_sub_cancel_right]
    _ ≤ |(m : ℚ) - t| + |(s : ℚ) - t| := abs_sub _ _

/-- No natural number is nearer than one within a half. -/
lemma abs_sub_le_of_half (half : |(s : ℚ) - t| ≤ 1 / 2) (m : Nat) :
    |(s : ℚ) - t| ≤ |(m : ℚ) - t| := by
  by_cases same : m = s
  · rw [same]
  · have := one_le_abs_sub_add (t := t) same
    linarith

/-- Two numbers that are as near as a half at most are a half away. -/
lemma eq_half_of_tie (half : |(s : ℚ) - t| ≤ 1 / 2) (ne : m ≠ s)
    (tie : |(m : ℚ) - t| = |(s : ℚ) - t|) : |(s : ℚ) - t| = 1 / 2 := by
  have := one_le_abs_sub_add (t := t) ne
  linarith

end

namespace Double

/-- The number that a double stands for. -/
def value (x : Double) : ℚ :=
  if x.negative then -x.magnitude else x.magnitude

/-- No double is nearer to the number, and if another is as near, then the significand is even. -/
structure IsNearest (x : Double) (q : ℚ) : Prop where
  le : ∀ y : Double, |x.value - q| ≤ |y.value - q|
  even : ∀ y : Double, |y.value - q| = |x.value - q| → y.value = x.value ∨ x.significand % 2 = 0

/-- The double that the quotient `q` is rounded to, for `q` without a sign. -/
def nearest? (q : ℚ) : Option Double :=
  ofRatio? q.num.toNat q.den

/-! ## The grid -/

/-- The distance of two neighbours on a scale. -/
def step (k : Nat) : ℚ :=
  twoTo k / grains

/-- There are grains in one. -/
lemma cast_grains_pos : (0 : ℚ) < grains := by
  exact_mod_cast twoTo_pos 1074

/-- Neighbours on a scale are apart. -/
lemma step_pos (k : Nat) : 0 < step k :=
  div_pos (by exact_mod_cast twoTo_pos k) cast_grains_pos

/-- A double that is a whole number of steps, as a magnitude. -/
lemma magnitude_of_units {x : Double} {m k : Nat} (h : x.units = m * twoTo k) :
    x.magnitude = m * step k := by
  rw [magnitude, h, step, Nat.cast_mul, mul_div_assoc]

/-- On its own scale and on the smaller ones a double is a natural number of steps. -/
lemma exists_steps {y : Double} {k : Nat} (h : k ≤ y.scale) :
    ∃ m : Nat, y.magnitude = m * step k := by
  refine ⟨y.significand * twoTo (y.scale - k), magnitude_of_units ?_⟩
  rw [units, Nat.mul_assoc, ← twoTo_add, Nat.sub_add_cancel h]

/-- On the greater scales a double has less than 53 bits. -/
lemma magnitude_lt_of_scale {y : Double} {k : Nat} (h : y.scale < k) :
    y.magnitude < twoTo 52 * step k := by
  have units : y.units < twoTo 52 * twoTo k :=
    calc y.units < twoTo 53 * twoTo y.scale :=
          Nat.mul_lt_mul_of_pos_right y.significand_lt (twoTo_pos _)
      _ = twoTo (53 + y.scale) := (twoTo_add 53 y.scale).symm
      _ ≤ twoTo (52 + k) := twoTo_le (by omega)
      _ = twoTo 52 * twoTo k := twoTo_add 52 k
  rw [magnitude, step, ← mul_div_assoc, div_lt_div_iff_of_pos_right cast_grains_pos]
  exact_mod_cast units

/-- A number measured in steps. -/
lemma abs_steps_sub (m : Nat) (k : Nat) (q : ℚ) :
    |m * step k - q| = |(m : ℚ) - q / step k| * step k := by
  rw [← abs_of_pos (step_pos k), ← abs_mul, abs_of_pos (step_pos k), sub_mul,
    div_mul_cancel₀ _ (step_pos k).ne']

/-! ## The nearest double -/

section

variable {num den num' den' : Nat} {x y : Double} {q r : ℚ}

/-- What a quotient is rounded to is the rounded number of steps, and it is even with it. -/
lemma units_of_ofRatio? (h : ofRatio? num den = some x) {k s : Nat}
    (hk : (num * grains / den).log2 - 52 = k)
    (hs : roundHalfEven (num * grains) (den * twoTo k) = s) :
    x.negative = false ∧ x.units = s * twoTo k ∧ (s % 2 = 0 → x.significand % 2 = 0) := by
  simp only [ofRatio?, hk, hs] at h
  split at h
  · rename_i carry
    unfold ofParts? at h
    split at h <;> cases h
    refine ⟨rfl, ?_, fun _ => (by decide : twoTo 52 % 2 = 0)⟩
    rw [units, carry, twoTo_succ 52, twoTo_succ k]
    ring
  · unfold ofParts? at h
    split at h <;> cases h
    exact ⟨rfl, rfl, id⟩

/-- Only the quotient counts. -/
lemma ofRatio?_mul_right (num den : Nat) {k : Nat} (hk : 0 < k) :
    ofRatio? (num * k) (den * k) = ofRatio? num den := by
  have scaled : num * k * grains = num * grains * k := Nat.mul_right_comm num k grains
  simp only [ofRatio?, scaled, Nat.mul_div_mul_right _ _ hk, Nat.mul_right_comm den k,
    roundHalfEven_mul_right _ _ hk]

/-- Equal quotients are rounded to the same double. -/
theorem ofRatio?_congr (hd : 0 < den) (hd' : 0 < den') (h : num * den' = num' * den) :
    ofRatio? num den = ofRatio? num' den' :=
  calc ofRatio? num den
      = ofRatio? (num * den') (den * den') := (ofRatio?_mul_right num den hd').symm
    _ = ofRatio? (num' * den) (den' * den) := by rw [h, Nat.mul_comm den]
    _ = ofRatio? num' den' := ofRatio?_mul_right num' den' hd

/-- Among the magnitudes of doubles, that of the rounded quotient is the nearest, and where another
is as near its significand is even. -/
lemma magnitude_near_of_ofRatio? (hd : 0 < den) (h : ofRatio? num den = some x) (y : Double) :
    |x.magnitude - num / den| ≤ |y.magnitude - num / den| ∧
      (|y.magnitude - num / den| = |x.magnitude - num / den| →
        y.magnitude = x.magnitude ∨ x.significand % 2 = 0) := by
  obtain ⟨k, hk⟩ : ∃ k, (num * grains / den).log2 - 52 = k := ⟨_, rfl⟩
  obtain ⟨_, units, even⟩ := units_of_ofRatio? h hk rfl
  obtain ⟨half, tie⟩ := abs_roundHalfEven_sub (num * grains) (Nat.mul_pos hd (twoTo_pos k))
  have den_pos : (0 : ℚ) < den := by exact_mod_cast hd
  have target : ((num * grains : Nat) : ℚ) / (den * twoTo k : Nat) = num / den / step k := by
    rw [step, div_div_div_eq]
    push_cast
    rfl
  rw [target] at half tie
  generalize roundHalfEven (num * grains) (den * twoTo k) = s at *
  rw [magnitude_of_units units]
  have nearest (m : Nat) : |s * step k - num / den| ≤ |m * step k - num / den| := by
    rw [abs_steps_sub, abs_steps_sub]
    exact mul_le_mul_of_nonneg_right (abs_sub_le_of_half half m) (step_pos k).le
  by_cases hy : k ≤ y.scale
  · obtain ⟨m, hm⟩ := exists_steps hy
    rw [hm]
    refine ⟨nearest m, fun same => ?_⟩
    by_cases ne : m = s
    · exact .inl (by rw [ne])
    · rw [abs_steps_sub, abs_steps_sub, mul_left_inj' (step_pos k).ne'] at same
      exact .inr (even (tie (eq_half_of_tie half ne same)))
  · -- The binade of the quotient begins at `2 ^ 52` steps, and `y` is below that.
    have bits : twoTo 52 ≤ num * grains / den := by
      refine (Nat.le_log2 ?_).1 (by omega)
      rintro zero
      rw [zero, Nat.log2_zero] at hk
      omega
    have start := (scale_bounds hd hk).2 bits
    have start : (twoTo 52 : ℚ) * step k ≤ num / den := by
      rw [step, ← mul_div_assoc, div_le_div_iff₀ cast_grains_pos den_pos]
      have : twoTo 52 * twoTo k * den ≤ num * grains := by
        calc twoTo 52 * twoTo k * den = den * twoTo k * twoTo 52 := by ring
          _ ≤ num * grains := start
      exact_mod_cast this
    have below := magnitude_lt_of_scale (Nat.lt_of_not_le hy)
    have closer : |(twoTo 52 : ℚ) * step k - num / den| < |y.magnitude - num / den| := by
      rw [abs_of_nonpos (by linarith), abs_of_neg (by linarith)]
      linarith
    have := nearest (twoTo 52)
    exact ⟨by linarith, fun same => by linarith⟩

/-- Without a sign, a double stands for its magnitude. -/
lemma value_of_unsigned (h : x.negative = false) : x.value = x.magnitude := by
  rw [value, h]
  rfl

/-- A sign in front of a magnitude moves it away from a number that has none. -/
lemma abs_magnitude_sub_le (y : Double) (hq : 0 ≤ q) : |y.magnitude - q| ≤ |y.value - q| := by
  have nonneg := y.magnitude_nonneg
  unfold value
  split
  · rw [abs_of_nonpos (a := -y.magnitude - q) (by linarith), abs_le]
    constructor <;> linarith
  · exact le_refl _

/-- A quotient is rounded to the nearest of all doubles. -/
theorem isNearest_of_ofRatio? (hd : 0 < den) (h : ofRatio? num den = some x) :
    x.IsNearest (num / den) := by
  obtain ⟨unsigned, -, -⟩ := units_of_ofRatio? h rfl rfl
  have nonneg : (0 : ℚ) ≤ num / den := div_nonneg (Nat.cast_nonneg _) (Nat.cast_nonneg _)
  have near := magnitude_near_of_ofRatio? hd h
  generalize (num / den : ℚ) = q at *
  have value := value_of_unsigned unsigned
  constructor
  · intro y
    rw [value]
    exact (near y).1.trans (abs_magnitude_sub_le y nonneg)
  · intro y tie
    have away := abs_magnitude_sub_le y nonneg
    rw [value] at tie ⊢
    have same := le_antisymm (away.trans tie.le) (near y).1
    refine ((near y).2 same).imp_left fun magnitude => ?_
    cases sign : y.negative with
    | false => rw [value_of_unsigned sign, magnitude]
    | true =>
      -- The number with the sign is as near only if it is zero.
      have signed : y.value = -x.magnitude := by rw [Double.value, sign, magnitude]; rfl
      have zero := (near (zero false)).1
      have none : (Double.zero false).magnitude = 0 := by
        rw [Double.magnitude, units, Double.zero, Nat.zero_mul, Nat.cast_zero, zero_div]
      have hx := x.magnitude_nonneg
      rw [signed, abs_of_nonpos (by linarith)] at tie
      rw [none, zero_sub, abs_neg, abs_of_nonneg nonneg] at zero
      rw [signed]
      linarith

/-- On the last scale the overflow is half a step below `2 ^ 53` steps, so rounding goes up to those
from the overflow on. -/
lemma roundHalfEven_of_overflow {scaled : Nat} (hd : 0 < den) (great : den * overflow ≤ scaled)
    (below : scaled < den * twoTo 2045 * twoTo 53) :
    roundHalfEven scaled (den * twoTo 2045) = twoTo 53 := by
  have grid : 0 < den * twoTo 2045 := Nat.mul_pos hd (twoTo_pos _)
  have limit : 2 * (den * overflow) = (twoTo 54 - 1) * (den * twoTo 2045) := by
    rw [overflow, twoTo_succ 2044, Nat.mul_left_comm den, Nat.mul_comm 2, Nat.mul_assoc,
      Nat.mul_assoc den]
  have high := roundHalfEven_le grid below
  obtain ⟨s, hs⟩ : ∃ s, roundHalfEven scaled (den * twoTo 2045) = s := ⟨_, rfl⟩
  obtain ⟨⟨-, near⟩, inner⟩ := roundHalfEven_near grid hs
  rw [hs] at high ⊢
  generalize den * twoTo 2045 = g at *
  have half : (twoTo 54 - 1) * g = 2 * ((twoTo 53 - 1) * g) + g := by
    have : twoTo 54 - 1 = 2 * (twoTo 53 - 1) + 1 := by decide
    rw [this]
    ring
  by_contra below
  obtain rfl | low : s = twoTo 53 - 1 ∨ s < twoTo 53 - 1 := by omega
  · have := (inner (by decide)).2
    omega
  · have := Nat.mul_le_mul_right g low
    rw [Nat.succ_mul] at this
    omega

/-- There is no double exactly from the overflow on. -/
theorem ofRatio?_eq_none_iff (hd : 0 < den) :
    ofRatio? num den = none ↔ den * overflow ≤ num * grains := by
  constructor
  · intro h
    by_contra! small
    obtain ⟨_, hy, _⟩ := exists_units_ofRatio? hd rfl small
    rw [h] at hy
    cases hy
  · intro great
    obtain ⟨k, hk⟩ : ∃ k, (num * grains / den).log2 - 52 = k := ⟨_, rfl⟩
    have bits : twoTo 2097 ≤ num * grains / den :=
      calc twoTo 2097 = twoTo 53 * twoTo 2044 := twoTo_add 53 2044
        _ ≤ overflow := Nat.mul_le_mul_right _ (by decide)
        _ ≤ num * grains / den := by rwa [Nat.le_div_iff_mul_le hd, Nat.mul_comm]
    have places : 2097 ≤ (num * grains / den).log2 := le_log2 bits
    have outside (significand : Nat) {scale : Nat} (h : 2045 < scale) :
        ofParts? false significand scale = none :=
      dif_neg fun parts => absurd parts.2.1 (Nat.not_le.2 h)
    have below := (scale_bounds hd hk).1
    simp only [ofRatio?, hk]
    obtain rfl | beyond : k = 2045 ∨ 2045 < k := by omega
    · rw [roundHalfEven_of_overflow hd great below, if_pos rfl]
      exact outside _ (by decide)
    · split
      · exact outside _ (by omega)
      · exact outside _ beyond

/-! ## Numbers -/

/-- The powers of two, as numbers. -/
lemma cast_twoTo (k : Nat) : (twoTo k : ℚ) = 2 ^ k := by
  exact_mod_cast rfl

/-- Written as a number, the overflow is half a step beyond the greatest double. -/
lemma overflow_div_grains : (overflow / grains : ℚ) = 2 ^ 1024 - 2 ^ 970 := by
  have split : (2 : ℚ) ^ 2044 = 2 ^ 970 * 2 ^ 1074 := pow_add 2 970 1074
  have whole : (2 : ℚ) ^ 1024 = 2 ^ 54 * 2 ^ 970 := pow_add 2 54 970
  have grains_ne : (2 : ℚ) ^ 1074 ≠ 0 := pow_ne_zero 1074 two_ne_zero
  have bits : ((twoTo 54 - 1 : Nat) : ℚ) = 2 ^ 54 - 1 := by
    rw [Nat.cast_sub (twoTo_pos 54), cast_twoTo, Nat.cast_one]
  rw [overflow, grains, Nat.cast_mul, bits, cast_twoTo, cast_twoTo, split, whole,
    ← mul_assoc, mul_div_cancel_right₀ _ grains_ne, sub_mul, one_mul]

/-- The numerator of a number without a sign is a natural number. -/
lemma cast_toNat_num (hq : 0 ≤ q) : (q.num.toNat : ℚ) = q.num := by
  exact_mod_cast Int.toNat_of_nonneg (Rat.num_nonneg.2 hq)

/-- A number without a sign is the quotient of its numerator and its denominator. -/
lemma toNat_div_den (hq : 0 ≤ q) : (q.num.toNat / q.den : ℚ) = q := by
  rw [cast_toNat_num hq, Rat.num_div_den]

/-- A quotient is rounded as the number that it is. -/
lemma ofRatio?_eq_nearest? (hd : 0 < den) : ofRatio? num den = nearest? (num / den) := by
  generalize hq : (num / den : ℚ) = q
  have nonneg : 0 ≤ q := hq ▸ div_nonneg (Nat.cast_nonneg _) (Nat.cast_nonneg _)
  have den_ne : (den : ℚ) ≠ 0 := by exact_mod_cast hd.ne'
  refine ofRatio?_congr hd q.den_pos ?_
  have same : (num * q.den : ℚ) = q.num.toNat * den := by
    rw [cast_toNat_num nonneg, ← Rat.mul_den_eq_num, mul_right_comm, ← hq, div_mul_cancel₀ _ den_ne]
  exact_mod_cast same

/-- There is no nearest double exactly from `2 ^ 1024 - 2 ^ 970` on. -/
theorem nearest?_eq_none_iff (hq : 0 ≤ q) : nearest? q = none ↔ 2 ^ 1024 - 2 ^ 970 ≤ q := by
  have den_pos : (0 : ℚ) < q.den := by exact_mod_cast q.den_pos
  calc nearest? q = none
      ↔ q.den * overflow ≤ q.num.toNat * grains := ofRatio?_eq_none_iff q.den_pos
    _ ↔ (overflow * q.den : ℚ) ≤ q.num.toNat * grains := by
      rw [mul_comm (overflow : ℚ)]
      norm_cast
    _ ↔ (overflow / grains : ℚ) ≤ q.num.toNat / q.den := by
      rw [div_le_div_iff₀ cast_grains_pos den_pos]
    _ ↔ 2 ^ 1024 - 2 ^ 970 ≤ q := by rw [overflow_div_grains, toNat_div_den hq]

/-- Otherwise it is the nearest of all doubles. -/
theorem isNearest_of_nearest? (hq : 0 ≤ q) (h : nearest? q = some x) : x.IsNearest q := by
  have near := isNearest_of_ofRatio? q.den_pos h
  rwa [toNat_div_den hq] at near

/-- Which of two numbers is nearer to a third depends on the side of their middle. -/
lemma abs_sub_le_iff_mul {a b t : ℚ} :
    |a - t| ≤ |b - t| ↔ 0 ≤ (a - b) * (2 * t - (a + b)) := by
  have squares : (b - t) ^ 2 - (a - t) ^ 2 = (a - b) * (2 * t - (a + b)) := by ring
  rw [← sq_le_sq, ← sub_nonneg, squares]

/-- A greater number is not read as a smaller double. -/
theorem value_le_of_nearest? (hq : 0 ≤ q) (hr : q ≤ r) (hx : nearest? q = some x)
    (hy : nearest? r = some y) : x.value ≤ y.value := by
  obtain rfl | less := hr.eq_or_lt
  · cases hx.symm.trans hy
    exact le_refl _
  · by_contra! greater
    -- The middle of both would separate the numbers the other way round.
    have high := abs_sub_le_iff_mul.1 ((isNearest_of_nearest? hq hx).le y)
    have low := abs_sub_le_iff_mul.1 ((isNearest_of_nearest? (hq.trans hr) hy).le x)
    have high := nonneg_of_mul_nonneg_right high (sub_pos.2 greater)
    have low := nonpos_of_mul_nonneg_right low (sub_neg.2 greater)
    linarith

end

end Double

/-! ## Decimals -/

namespace Decimal

variable {d : Decimal}

/-- The magnitude that a decimal stands for. -/
def magnitude (d : Decimal) : ℚ :=
  d.coefficient * 10 ^ d.power

/-- The magnitude of a decimal has no sign. -/
lemma magnitude_nonneg (d : Decimal) : 0 ≤ d.magnitude := by
  rw [magnitude]
  positivity

/-- The quotient that a decimal is read as is its magnitude. -/
lemma ratio_eq_magnitude (d : Decimal) :
    0 < d.ratio.2 ∧ (d.ratio.1 / d.ratio.2 : ℚ) = d.magnitude := by
  unfold ratio magnitude
  split
  · rename_i whole
    obtain ⟨k, hk⟩ := Int.eq_ofNat_of_zero_le whole
    rw [hk]
    simp [Neighbourhood.cast_tenTo]
  · rename_i broken
    obtain ⟨k, hk⟩ := Int.exists_eq_neg_ofNat (Int.le_of_not_le broken)
    rw [hk]
    simp [Neighbourhood.cast_tenTo, div_eq_mul_inv, tenTo_pos]

/-- The place of the first digit that counts bounds the magnitude on both sides. -/
lemma IsLiteral.magnitude_bounds (h : d.IsLiteral) :
    d.magnitude < 10 ^ (d.power + d.significantDigits) ∧
      (d.coefficient ≠ 0 → 10 ^ (d.power + d.significantDigits) ≤ 10 * d.magnitude) := by
  have place : (10 : ℚ) ^ (d.power + d.significantDigits) =
      tenTo d.significantDigits * 10 ^ d.power := by
    rw [zpow_add₀ (by norm_num), zpow_natCast, Neighbourhood.cast_tenTo, mul_comm]
  have unit_pos : (0 : ℚ) < 10 ^ d.power := by positivity
  rw [place, magnitude]
  constructor
  · have := h.coefficient_lt
    gcongr
  · intro hc
    have := h.le_coefficient hc
    rw [← mul_assoc]
    gcongr
    exact_mod_cast this

end Decimal

namespace Double

/-- What is below half a grain is read as zero. -/
lemma nearest?_of_small {q : ℚ} (hq : 0 ≤ q) (small : 2 * q * grains < 1) :
    nearest? q = some (zero false) := by
  have den_pos : (0 : ℚ) < q.den := by exact_mod_cast q.den_pos
  have low : 2 * (q.num.toNat * grains) < q.den := by
    have : (2 * (q.num.toNat * grains) : ℚ) < q.den :=
      calc (2 * (q.num.toNat * grains) : ℚ) = 2 * (q.num.toNat / q.den) * grains * q.den := by
            rw [mul_right_comm, mul_assoc 2 _ (q.den : ℚ), div_mul_cancel₀ _ den_pos.ne', mul_assoc]
        _ = 2 * q * grains * q.den := by rw [toNat_div_den hq]
        _ < 1 * q.den := mul_lt_mul_of_pos_right small den_pos
        _ = q.den := one_mul _
    exact_mod_cast this
  rw [nearest?, ofRatio?]
  generalize q.num.toNat * grains = scaled at *
  have less : scaled < q.den := by omega
  have rounded : roundHalfEven scaled (q.den * twoTo 0) = 0 := by
    rw [twoTo_zero, Nat.mul_one, roundHalfEven, Nat.div_eq_of_lt less, Nat.mod_eq_of_lt less]
    exact if_pos (.inl low)
  have scale : (scaled / q.den).log2 - 52 = 0 := by
    rw [Nat.div_eq_of_lt less]
    rfl
  simp only [scale, rounded]
  rfl

section

variable {d : Decimal}

/-- The first short way out that reading has for literals far outside the range ends at zero, where
rounding would. -/
lemma nearest?_of_place_small (h : d.IsLiteral)
    (far : d.coefficient = 0 ∨ d.power + d.significantDigits < -330) :
    nearest? d.magnitude = some (zero false) := by
  refine nearest?_of_small d.magnitude_nonneg ?_
  obtain none | below := far
  · rw [Decimal.magnitude, none, Nat.cast_zero, zero_mul, mul_zero, zero_mul]
    exact zero_lt_one
  · have grain : (2 * grains : ℚ) < tenTo 331 := by
      exact_mod_cast (by decide +kernel : 2 * grains < tenTo 331)
    have bound : d.magnitude ≤ (10 : ℚ) ^ (-331 : ℤ) :=
      h.magnitude_bounds.1.le.trans (zpow_le_zpow_right₀ (by norm_num) (by omega))
    calc 2 * d.magnitude * grains = d.magnitude * (2 * grains) := by rw [mul_comm 2, mul_assoc]
      _ ≤ (10 : ℚ) ^ (-331 : ℤ) * (2 * grains) :=
        mul_le_mul_of_nonneg_right bound (mul_nonneg zero_le_two cast_grains_pos.le)
      _ < (10 : ℚ) ^ (-331 : ℤ) * tenTo 331 := mul_lt_mul_of_pos_left grain (by positivity)
      _ = 1 := by
        rw [Neighbourhood.cast_tenTo, ← zpow_natCast, ← zpow_add₀ (by norm_num)]
        rfl

/-- The second one ends without a double, and so would rounding. -/
lemma nearest?_of_place_great (h : d.IsLiteral) (counts : d.coefficient ≠ 0)
    (far : 310 < d.power + d.significantDigits) : nearest? d.magnitude = none := by
  have limit : (10 * overflow : ℚ) ≤ tenTo 311 * grains := by
    exact_mod_cast (by decide +kernel : 10 * overflow ≤ tenTo 311 * grains)
  have bound : (tenTo 311 : ℚ) ≤ 10 * d.magnitude :=
    calc (tenTo 311 : ℚ) = 10 ^ (311 : ℤ) := by
          rw [Neighbourhood.cast_tenTo]
          rfl
      _ ≤ 10 ^ (d.power + d.significantDigits) := zpow_le_zpow_right₀ (by norm_num) (by omega)
      _ ≤ 10 * d.magnitude := h.magnitude_bounds.2 counts
  rw [nearest?_eq_none_iff d.magnitude_nonneg, ← overflow_div_grains, div_le_iff₀ cast_grains_pos]
  refine le_of_mul_le_mul_left ?_ (by norm_num : (0 : ℚ) < 10)
  calc (10 * overflow : ℚ) ≤ tenTo 311 * grains := limit
    _ ≤ 10 * d.magnitude * grains := mul_le_mul_of_nonneg_right bound cast_grains_pos.le
    _ = 10 * (d.magnitude * grains) := mul_assoc 10 _ _

/-- A literal is read as the nearest double of its magnitude, whatever its digits. -/
theorem ofDecimal?_eq_nearest? (h : d.IsLiteral) : ofDecimal? d = nearest? d.magnitude := by
  have read : (if d.coefficient = 0 ∨ d.power + d.significantDigits < -330 then some (zero false)
      else if 310 < d.power + d.significantDigits then none
      else ofRatio? d.ratio.1 d.ratio.2) = nearest? d.magnitude := by
    split
    · rename_i small
      exact (nearest?_of_place_small h small).symm
    · rename_i not_small
      split
      · rename_i great
        exact (nearest?_of_place_great h (not_or.1 not_small).1 great).symm
      · obtain ⟨den_pos, ratio⟩ := d.ratio_eq_magnitude
        rw [ofRatio?_eq_nearest? den_pos, ratio]
  simp only [ofDecimal?, read]
  cases hx : nearest? d.magnitude with
  | none => rfl
  | some x =>
    have unsigned := (units_of_ofRatio? hx rfl rfl).1
    rw [Option.map_some, withSign_self (unsigned.trans h.unsigned.symm)]

end

end Double

end Quill
