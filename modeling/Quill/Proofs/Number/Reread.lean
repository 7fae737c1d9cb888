import Quill.Proofs.Number.Magnitude
import Quill.Proofs.Number.Shown

/-!
# Doubles that are read back

How a double comes back from the text it is written as in data. The text is right: no double is
nearer to the number in it (`Double.isNearest_write`). It is read in steps, though, and every step
rounds. The digits are rounded to a double, then the power of ten, and then their product or
quotient, so what comes back is nearest to this last number instead (`Double.isNearest_reread`). A
double is read as itself exactly if it is the nearest there, too (`Double.reread_eq_self_iff`). That
is so where the digits and the power of ten are doubles themselves
(`Double.reread_eq_self_of_short`).
-/

namespace Quill

namespace Double

variable {x y z : Double} {q : ℚ} {n : Nat}

/-! ## Numbers that are doubles -/

/-- What a number is rounded to has no sign. -/
lemma unsigned_of_nearest? (h : nearest? q = some x) : x.negative = false :=
  (units_of_ofRatio? h rfl rfl).1

/-- The magnitude of a double is rounded to it. -/
lemma nearest?_magnitude (unsigned : x.negative = false) : nearest? x.magnitude = some x := by
  have grains_pos : 0 < grains := twoTo_pos 1074
  rw [magnitude, ← ofRatio?_eq_nearest? grains_pos]
  exact ofRatio?_eq_some unsigned grains_pos rfl

/-- Two doubles without a sign that have the same magnitude are the same. -/
lemma magnitude_injective (hx : x.negative = false) (hy : y.negative = false)
    (same : x.magnitude = y.magnitude) : x = y := by
  have read := nearest?_magnitude hx
  rw [same, nearest?_magnitude hy] at read
  exact (Option.some.inj read).symm

/-! ## One double is nearest -/

/-- Behind a double with an even significand there is one with an odd significand, and none is in
between. -/
lemma exists_next (even : x.significand % 2 = 0) (less : x.magnitude < y.magnitude) :
    ∃ z : Double, z.negative = false ∧ z.significand % 2 = 1 ∧ x.magnitude < z.magnitude ∧
      z.magnitude ≤ y.magnitude := by
  have small := x.significand_lt
  have room : x.significand + 1 < twoTo 53 := by
    have : twoTo 53 % 2 = 0 := by decide
    omega
  let z : Double := ⟨false, x.significand + 1, x.scale, room, x.scale_le, x.canonical.imp_right
    (Nat.le_succ_of_le ·)⟩
  have at_x : x.magnitude = x.significand * step x.scale := magnitude_of_units rfl
  have at_z : z.magnitude = (x.significand + 1 : ℕ) * step x.scale := magnitude_of_units rfl
  have step_pos := step_pos x.scale
  refine ⟨z, rfl, by simp only [z]; omega, ?_, ?_⟩
  · rw [at_x, at_z]
    push_cast
    linarith
  · -- A double on a smaller scale is not greater than `x`, so `y` is on the grid of `x`.
    have scale : x.scale ≤ y.scale := by
      by_contra below
      have low := magnitude_lt_of_scale (Nat.lt_of_not_le below)
      have normal : twoTo 52 ≤ x.significand := x.canonical.resolve_left (by omega)
      have : (twoTo 52 : ℚ) * step x.scale ≤ x.significand * step x.scale := by
        gcongr
      linarith
    obtain ⟨m, hm⟩ := exists_steps scale
    rw [at_x, hm] at less
    have greater : x.significand < m := by
      exact_mod_cast lt_of_mul_lt_mul_right less step_pos.le
    rw [at_z, hm]
    gcongr
    exact greater

/-- Of two doubles the smaller is not the nearest where the greater one is. -/
lemma not_isNearest_of_lt (hx : x.negative = false) (hy : y.negative = false)
    (near : y.IsNearest q) (less : x.magnitude < y.magnitude) : ¬ x.IsNearest q := by
  intro near'
  have tie : |y.value - q| = |x.value - q| := le_antisymm (near.le x) (near'.le y)
  have x_even := (near'.even y tie).resolve_left
  have y_even := (near.even x tie.symm).resolve_left
  rw [value_of_unsigned hx, value_of_unsigned hy] at tie x_even y_even
  obtain ⟨z, hz, odd, above, below⟩ := exists_next (x_even less.ne') less
  have inner : z.magnitude < y.magnitude := by
    refine below.lt_of_ne fun same => ?_
    have := y_even less.ne
    rw [← magnitude_injective hz hy same] at this
    omega
  -- The number is the middle of both, so what is in between is nearer.
  have middle : y.magnitude - q = -(x.magnitude - q) := by
    obtain same | opposite := abs_eq_abs.1 tie
    · linarith
    · exact opposite
  have closer : |z.magnitude - q| < |x.magnitude - q| := by
    rw [abs_of_nonpos (a := x.magnitude - q) (by linarith), abs_lt]
    constructor <;> linarith
  have := near'.le z
  rw [value_of_unsigned hz, value_of_unsigned hx] at this
  linarith

/-- Among the doubles without a sign one at most is the nearest. -/
theorem IsNearest.unique (hx : x.negative = false) (hy : y.negative = false)
    (near : x.IsNearest q) (near' : y.IsNearest q) : x = y := by
  obtain less | same | greater := lt_trichotomy x.magnitude y.magnitude
  · exact absurd near (not_isNearest_of_lt hx hy near' less)
  · exact magnitude_injective hx hy same
  · exact absurd near' (not_isNearest_of_lt hy hx near greater)

/-! ## The number that is approached -/

/-- The number that a number is rounded to. -/
def rounded (q : ℚ) : ℚ :=
  ((nearest? q).getD (zero false)).magnitude

/-- The last quotient, where a number is divided by a power of ten in steps of at most `10 ^ 308`
and each step but the last is rounded. -/
def lastQuotient (q : ℚ) (n : Nat) : ℚ :=
  if n ≤ 308 then
    q / rounded (10 ^ n)
  else
    lastQuotient (rounded (q / rounded (10 ^ 308))) (n - 308)
termination_by n

/-- The number from which a double is rounded last when its text is read: the rounded digits, times
or by the rounded power of ten. -/
def approached (x : Double) : ℚ :=
  let d := Layout.data.write x
  if 0 ≤ d.power then
    rounded d.coefficient * rounded (10 ^ d.power.toNat)
  else
    lastQuotient (rounded d.coefficient) (-d.power).toNat

/-- A number that has a nearest double is rounded to its magnitude. -/
lemma rounded_eq (h : nearest? q = some x) : rounded q = x.magnitude := by
  rw [rounded, h, Option.getD_some]

/-- A natural number is rounded as the number that it is. -/
lemma nearest?_natCast (c : Nat) : ofRatio? c 1 = nearest? c := by
  rw [ofRatio?_eq_nearest? Nat.one_pos, Nat.cast_one, div_one]

/-- A power of ten as a double is that power, rounded. -/
lemma magnitude_powerOfTen (n : Nat) : (powerOfTen n).magnitude = rounded (10 ^ n) := by
  rw [powerOfTen, nearest?_natCast, Neighbourhood.cast_tenTo]
  rfl

/-- The product of two doubles is the product of their magnitudes, rounded. -/
lemma mul?_eq (x y : Double) : x.mul? y = nearest? (x.magnitude * y.magnitude) := by
  have grid_pos : 0 < grains * grains := Nat.mul_pos (twoTo_pos 1074) (twoTo_pos 1074)
  rw [mul?, ofRatio?_eq_nearest? grid_pos, magnitude, magnitude, div_mul_div_comm, Nat.cast_mul,
    Nat.cast_mul]

/-- The quotient of two doubles is the quotient of their magnitudes, rounded. -/
lemma div?_eq (x : Double) (hy : 0 < y.magnitude) :
    x.div? y = nearest? (x.magnitude / y.magnitude) := by
  have units_pos : 0 < y.units := by
    rw [magnitude, div_pos_iff_of_pos_right cast_grains_pos] at hy
    exact_mod_cast hy
  rw [div?, ofRatio?_eq_nearest? units_pos, magnitude, magnitude,
    div_div_div_cancel_right₀ cast_grains_pos.ne']

/-- A natural number that is a whole number of steps on its scale is a double. -/
lemma exists_exact {k : Nat} (hk : (n * grains).log2 - 52 = k) (small : n * grains < 1 * overflow)
    (whole : twoTo k ∣ n * grains) : ∃ y, nearest? n = some y ∧ y.magnitude = n := by
  obtain ⟨y, hy, -⟩ := exists_units_ofRatio? Nat.one_pos rfl small
  refine ⟨y, nearest?_natCast n ▸ hy, ?_⟩
  obtain ⟨m, hm⟩ := whole
  rw [← Nat.div_one (n * grains)] at hk
  obtain ⟨-, units, -⟩ := units_of_ofRatio? hy hk rfl
  rw [Nat.one_mul, hm, Nat.mul_comm (twoTo k), roundHalfEven_mul _ (twoTo_pos k), Nat.mul_comm,
    ← hm] at units
  rw [magnitude, units, Nat.cast_mul, mul_div_cancel_right₀ _ cast_grains_pos.ne']

/-- The powers of ten up to `10 ^ 308` are below the overflow. -/
lemma tenTo_small (hn : n ≤ 308) : tenTo n * grains < 1 * overflow :=
  calc tenTo n * grains ≤ tenTo 308 * grains := Nat.mul_le_mul_right _ (tenTo_le hn)
    _ < 1 * overflow := by decide +kernel

/-- The powers of ten that doubles are divided by are not below one. -/
lemma one_le_rounded (hn : n ≤ 308) : 1 ≤ rounded (10 ^ n) := by
  obtain ⟨one, hone, exact⟩ := exists_exact (n := 1) rfl (by decide +kernel) (by decide +kernel)
  obtain ⟨z, hz, -⟩ := exists_units_ofRatio? Nat.one_pos rfl (tenTo_small hn)
  rw [nearest?_natCast, Neighbourhood.cast_tenTo] at hz
  rw [Nat.cast_one] at hone exact
  have le := value_le_of_nearest? zero_le_one (one_le_pow₀ (by norm_num)) hone hz
  rw [value_of_unsigned (unsigned_of_nearest? hone), value_of_unsigned (unsigned_of_nearest? hz),
    exact] at le
  rwa [rounded_eq hz]

/-- So dividing does not lead out of the range. -/
lemma exists_div?_powerOfTen (x : Double) (hn : n ≤ 308) :
    ∃ y, x.div? (powerOfTen n) = some y ∧ nearest? (x.magnitude / rounded (10 ^ n)) = some y := by
  have one := one_le_rounded hn
  have nonneg := x.magnitude_nonneg
  have less : x.magnitude / rounded (10 ^ n) ≤ x.magnitude := div_le_self nonneg one
  have inner : nearest? (x.magnitude / rounded (10 ^ n)) ≠ none := by
    have self : nearest? x.magnitude = some (x.withSign false) :=
      nearest?_magnitude (x := x.withSign false) rfl
    rw [ne_eq, nearest?_eq_none_iff (div_nonneg nonneg (by linarith))]
    intro great
    rw [(nearest?_eq_none_iff nonneg).2 (great.trans less)] at self
    cases self
  obtain ⟨y, hy⟩ := Option.ne_none_iff_exists'.1 inner
  refine ⟨y, ?_, hy⟩
  rw [div?_eq _ (by rw [magnitude_powerOfTen]; linarith), magnitude_powerOfTen, hy]

/-- Zero is rounded to itself. -/
lemma rounded_zero : rounded 0 = 0 := by
  have small : (2 * 0 * grains : ℚ) < 1 := by
    rw [mul_zero, zero_mul]
    exact zero_lt_one
  rw [rounded_eq (nearest?_of_small (le_refl 0) small)]
  exact zero_div _

/-- The last quotient of zero is zero. -/
lemma lastQuotient_zero (n : Nat) : lastQuotient 0 n = 0 := by
  induction n using Nat.strongRecOn with
  | ind n ih =>
    rw [lastQuotient]
    split
    · exact zero_div _
    · rw [zero_div, rounded_zero]
      exact ih (n - 308) (by omega)

/-- The last quotient has no sign. -/
lemma lastQuotient_nonneg (hq : 0 ≤ q) (n : Nat) : 0 ≤ lastQuotient q n := by
  induction n using Nat.strongRecOn generalizing q with
  | ind n ih =>
    rw [lastQuotient]
    split
    · exact div_nonneg hq (magnitude_nonneg _)
    · exact ih (n - 308) (by omega) (magnitude_nonneg _)

/-- The magnitude of a zero of either sign is zero. -/
lemma magnitude_eq_zero (zero : x.isZero = true) : x.magnitude = 0 := by
  rw [magnitude, units, of_decide_eq_true zero, Nat.zero_mul, Nat.cast_zero, zero_div]

/-- The quotient by a power of ten is rounded from the last quotient. -/
theorem nearest?_lastQuotient (hx : x.negative = false) (n : Nat) :
    nearest? (lastQuotient x.magnitude n) = some (x.divPowerOfTen n) := by
  induction x, n using divPowerOfTen.induct with
  | case1 x n hn =>
    obtain ⟨y, hy, near⟩ := exists_div?_powerOfTen x hn
    rw [lastQuotient, if_pos hn, near, divPowerOfTen, if_pos hn, hy, Option.getD_some]
  | case2 x n hn zero =>
    rw [divPowerOfTen, if_neg hn, if_pos zero, magnitude_eq_zero zero, lastQuotient_zero,
      ← magnitude_eq_zero zero]
    exact nearest?_magnitude hx
  | case3 x n hn counts ih =>
    obtain ⟨y, hy, near⟩ := exists_div?_powerOfTen x (n := 308) (Nat.le_refl _)
    rw [hy, Option.getD_some] at ih
    rw [lastQuotient, if_neg hn, rounded_eq near, divPowerOfTen, if_neg hn, if_neg counts, hy,
      Option.getD_some]
    exact ih (unsigned_of_nearest? near)

/-- A double without a sign is read as what the number that its text approaches is rounded to. -/
theorem nearest?_approached (hx : x.negative = false) : nearest? x.approached = some x.reread := by
  obtain ⟨_, sign, fits, _⟩ := Layout.isJson_write x
  have read := x.double?_write
  rw [Json.double?_eq fits, Option.map_eq_some_iff] at read
  obtain ⟨y, scaled, same⟩ := read
  unfold scale? at scaled
  obtain ⟨a, ha, scaled⟩ := Option.bind_eq_some_iff.1 scaled
  rw [nearest?_natCast] at ha
  have near : nearest? x.approached = some y := by
    unfold approached
    dsimp only
    rw [rounded_eq ha]
    split at scaled
    · rename_i up
      rw [if_pos up]
      unfold mulPowerOfTen? at scaled
      split at scaled
      · rwa [← magnitude_powerOfTen, ← mul?_eq]
      · split at scaled <;> cases scaled
        rename_i zero
        rw [magnitude_eq_zero zero, zero_mul, ← magnitude_eq_zero zero]
        exact nearest?_magnitude (unsigned_of_nearest? ha)
    · rename_i down
      rw [if_neg down, nearest?_lastQuotient (unsigned_of_nearest? ha)]
      exact scaled
  rw [← same, withSign_self ((unsigned_of_nearest? near).trans (sign.trans hx).symm)]
  exact near

/-- The number that is approached has no sign. -/
lemma approached_nonneg (x : Double) : 0 ≤ x.approached := by
  unfold approached
  dsimp only
  split
  · exact mul_nonneg (magnitude_nonneg _) (magnitude_nonneg _)
  · exact lastQuotient_nonneg (magnitude_nonneg _) _

/-- A double without a sign is read as the double that is nearest to what its text approaches. -/
theorem isNearest_reread (hx : x.negative = false) :
    x.reread.negative = false ∧ x.reread.IsNearest x.approached :=
  ⟨unsigned_of_nearest? (nearest?_approached hx),
    isNearest_of_nearest? x.approached_nonneg (nearest?_approached hx)⟩

/-- It is read as itself exactly if it is nearest there itself. -/
theorem reread_eq_self_iff (hx : x.negative = false) :
    x.reread = x ↔ x.IsNearest x.approached := by
  obtain ⟨unsigned, near⟩ := isNearest_reread hx
  constructor
  · intro same
    rwa [same] at near
  · exact near.unique unsigned hx

end Double

/-! ## What is written -/

/-- The quotient of digits is their magnitude. -/
lemma Digits.ratio_eq_magnitude (r : Digits) :
    0 < r.ratio.2 ∧ (r.ratio.1 / r.ratio.2 : ℚ) = r.magnitude := by
  obtain ⟨c, power⟩ := r
  obtain ⟨k, rfl | rfl⟩ := Int.eq_nat_or_neg power
  · rw [ratio_natCast]
    exact ⟨Nat.one_pos, by simp [magnitude, Neighbourhood.cast_tenTo]⟩
  · rw [ratio_neg_natCast]
    exact ⟨tenTo_pos k, by simp [magnitude, Neighbourhood.cast_tenTo, div_eq_mul_inv]⟩

namespace Layout

/-- Digits that are spread around a point keep their magnitude, also where zeros are filled in. -/
lemma magnitude_spread (negative : Bool) (c : Nat) (power : Int) :
    let parts := spread true (digitsOf c) (power + ((digitsOf c).length : Int) - 1)
    let d : Decimal := ⟨negative, parts.1, parts.2, none⟩
    d.magnitude = Digits.magnitude ⟨c, power⟩ := by
  have value := digitsValue_digitsOf c
  have length_pos : 0 < (digitsOf c).length := List.length_pos_iff.2 Nat.toDigits_ne_nil
  generalize digitsOf c = ds at *
  obtain ⟨p, hp⟩ : ∃ p, power + (ds.length : Int) - 1 = p := ⟨_, rfl⟩
  have same {d : Decimal} (coefficient : d.coefficient = c) (place : d.power = power) :
      d.magnitude = Digits.magnitude ⟨c, power⟩ := by
    rw [Decimal.magnitude, coefficient, place]
    rfl
  dsimp only
  rw [hp, spread]
  split
  · apply same
    · change digitsValue (List.replicate 1 '0' ++ (List.replicate (-p - 1).toNat '0' ++ ds)) = c
      rw [digitsValue_zeros_append, digitsValue_zeros_append, value]
    · simp only [Decimal.power, Option.elim_none, Option.getD_some, List.length_append,
        List.length_replicate]
      omega
  · dsimp only
    split
    · apply same
      · change digitsValue (ds.take (p.toNat + 1) ++ ds.drop (p.toNat + 1)) = c
        rw [List.take_append_drop, value]
      · simp only [Decimal.power, Option.elim_none, Option.getD_some, List.length_drop]
        omega
    · obtain ⟨k, hk⟩ := Int.eq_ofNat_of_zero_le (a := power) (by omega)
      have width : p.toNat + 1 - ds.length = k := by omega
      have zeros : digitsValue (ds ++ List.replicate k '0' ++ ['0']) = c * tenTo (k + 1) := by
        rw [List.append_assoc, ← List.replicate_succ', digitsValue_append_zeros, value]
      rw [width, if_pos rfl, hk]
      change (digitsValue (ds ++ List.replicate k '0' ++ ['0']) : ℚ) * 10 ^ (-1 : ℤ) =
        c * 10 ^ (k : ℤ)
      rw [zeros, Nat.cast_mul, Neighbourhood.cast_tenTo, zpow_natCast, pow_succ, mul_assoc,
        mul_assoc]
      norm_num

/-- Every layout of data keeps the magnitude of the shortest digits. -/
lemma magnitude_write (x : Double) :
    (data.write x).magnitude = (shortestDigits .toEven x).magnitude := by
  have ties : data.ties = .toEven := rfl
  simp only [write, ties]
  generalize shortestDigits .toEven x = r
  split
  · exact magnitude_spread _ _ _
  · obtain ⟨-, coefficient, power⟩ := isJson_scientific x.negative r.coefficient r.power
    rw [Decimal.magnitude, coefficient, power]
    rfl

end Layout

namespace Double

variable {x : Double}

/-- The number that a double without a sign is written as tells which double it is. -/
theorem nearest?_write (hx : x.negative = false) :
    nearest? (Layout.data.write x).magnitude = some x := by
  rw [Layout.magnitude_write]
  by_cases zero : x.significand = 0
  · have digits : shortestDigits .toEven x = ⟨0, 0⟩ := if_pos (decide_eq_true zero)
    have none : Digits.magnitude ⟨0, 0⟩ = 0 := by simp [Digits.magnitude]
    rw [digits, none, ← magnitude_eq_zero (x := x) (decide_eq_true zero)]
    exact nearest?_magnitude hx
  · obtain ⟨den_pos, ratio⟩ := (shortestDigits .toEven x).ratio_eq_magnitude
    rw [← ratio, ← ofRatio?_eq_nearest? den_pos,
      ofRatio?_of_contains den_pos (contains_shortestDigits .toEven zero), withSign_self hx]

/-- No double is nearer to it. -/
theorem isNearest_write (hx : x.negative = false) : x.IsNearest (Layout.data.write x).magnitude :=
  isNearest_of_nearest? (Decimal.magnitude_nonneg _) (nearest?_write hx)

/-! ## Short numbers -/

/-- Up to 53 bits a natural number is a double. -/
lemma rounded_natCast {c : Nat} (hc : c < twoTo 53) : rounded c = c := by
  by_cases zero : c = 0
  · rw [zero, Nat.cast_zero, rounded_zero]
  · have bits : c.log2 < 53 := (Nat.log2_lt zero).2 hc
    have places : (c * grains).log2 = c.log2 + 1074 := log2_mul_twoTo zero 1074
    have scale : (c * grains).log2 - 52 = c.log2 + 1022 := by omega
    have steps : twoTo (c.log2 + 1022) ∣ grains := by
      have total : c.log2 + 1022 + (52 - c.log2) = 1074 := by omega
      exact Dvd.intro (twoTo (52 - c.log2)) (by rw [← twoTo_add, total, grains])
    have whole : twoTo (c.log2 + 1022) ∣ c * grains := steps.mul_left c
    obtain ⟨y, hy, exact⟩ := exists_exact scale
      (small_of_lt_wordLimit (hc.trans (by decide))) whole
    rw [rounded_eq hy, exact]

/-- So is a power of ten up to the twenty-second. -/
lemma rounded_ten {k : Nat} (hk : k ≤ 22) : rounded (10 ^ k) = 10 ^ k := by
  have whole : ∀ k ≤ 22, twoTo ((tenTo k * grains).log2 - 52) ∣ tenTo k * grains := by
    decide +kernel
  obtain ⟨y, hy, exact⟩ := exists_exact rfl (tenTo_small (by omega)) (whole k hk)
  rw [Neighbourhood.cast_tenTo] at hy exact
  rw [rounded_eq hy, exact]

end Double

/-- The digits of the number are a double, and so is the power of ten that scales them. -/
def Decimal.IsShort (d : Decimal) : Prop :=
  d.coefficient < twoTo 53 ∧ d.power.natAbs ≤ 22

namespace Double

variable {x : Double}

/-- Where the digits and the power of ten are not rounded, the text approaches the very number in
it. -/
lemma approached_of_short (short : (Layout.data.write x).IsShort) :
    x.approached = (Layout.data.write x).magnitude := by
  obtain ⟨digits, place⟩ := short
  unfold approached Decimal.magnitude
  dsimp only
  generalize (Layout.data.write x).coefficient = c at *
  generalize (Layout.data.write x).power = p at *
  split
  · rename_i up
    obtain ⟨k, rfl⟩ := Int.eq_ofNat_of_zero_le up
    rw [Int.toNat_natCast, rounded_natCast digits, rounded_ten (by omega), zpow_natCast]
  · rename_i down
    obtain ⟨k, rfl⟩ := Int.exists_eq_neg_ofNat (Int.le_of_not_le down)
    rw [Int.neg_neg, Int.toNat_natCast, lastQuotient, if_pos (by omega), rounded_natCast digits,
      rounded_ten (by omega), zpow_neg, zpow_natCast, div_eq_mul_inv]

/-- Such a number is read as it was. -/
theorem reread_eq_self_of_short (hx : x.negative = false) (short : (Layout.data.write x).IsShort) :
    x.reread = x := by
  rw [reread_eq_self_iff hx, approached_of_short short]
  exact isNearest_write hx

end Double

end Quill
