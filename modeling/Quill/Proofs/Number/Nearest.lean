import Quill.Proofs.Number.Shortest

/-!
# The numbers that round to a double

A quotient is rounded to a double exactly where the interval around that double says so: the numbers
within half a unit of its last place, or a quarter below a power of two, and the ends where the
significand is even (`ofRatio?_of_contains`).
-/

namespace Quill

/-- Powers of ten are multiplied by adding their exponents. -/
lemma tenTo_add (m n : Nat) : tenTo (m + n) = tenTo m * tenTo n :=
  Nat.pow_add 10 m n

/-- A quotient that is within a half of a natural number is rounded to it, where it is even also
from the ends. -/
lemma roundHalfEven_eq {num den m : Nat} (hd : 0 < den) (low : 2 * (m * den) ≤ 2 * num + den)
    (high : 2 * num ≤ 2 * (m * den) + den)
    (inner : m % 2 = 1 → 2 * (m * den) < 2 * num + den ∧ 2 * num < 2 * (m * den) + den) :
    roundHalfEven num den = m := by
  have split := Nat.div_add_mod num den
  have less := Nat.mod_lt num hd
  unfold roundHalfEven
  dsimp only
  generalize num / den = q at *
  generalize num % den = r at *
  rw [Nat.mul_comm] at split
  have le : q ≤ m := by
    refine Nat.le_of_lt_succ (Nat.lt_of_mul_lt_mul_right (a := den) ?_)
    rw [Nat.succ_mul]
    omega
  have le_succ : m ≤ q + 1 := by
    refine Nat.le_of_lt_succ (Nat.lt_of_mul_lt_mul_right (a := den) ?_)
    rw [Nat.succ_mul, Nat.succ_mul]
    omega
  -- Which of the two it is depends on the remainder, and on the last digit where that is a half.
  obtain rfl | rfl : m = q ∨ m = q + 1 := by omega
  · rw [if_pos]
    omega
  · rw [Nat.succ_mul q den] at low high inner
    rw [if_neg]
    omega

/-- A quotient of 53 bits times a power of two has the scale of that power. -/
lemma scale_eq {q k : Nat} (low : k = 0 ∨ twoTo 52 * twoTo k ≤ q) (high : q < twoTo 53 * twoTo k) :
    q.log2 - 52 = k := by
  rw [← twoTo_add] at high
  have upper := log2_lt high (by omega)
  obtain rfl | low := low
  · omega
  · rw [← twoTo_add] at low
    have ne : q ≠ 0 := (Nat.lt_of_lt_of_le (twoTo_pos _) low).ne'
    have := (Nat.le_log2 ne).2 low
    omega

/-- The quotient `num / den` lies in the interval, of which the ends are a part where it is
closed. -/
structure Neighbourhood.Contains (n : Neighbourhood) (num den : Nat) : Prop where
  low : n.low * den ≤ n.den * num
  high : n.den * num ≤ n.high * den
  inner : n.closed = false → n.low * den < n.den * num ∧ n.den * num < n.high * den

namespace Double

variable {x : Double} {num den grid : Nat}

/-- A number measured in the denominator of a double's interval. -/
lemma den_mul (x : Double) (num : Nat) : (Neighbourhood.of x).den * num = 4 * (num * grains) := by
  simp only [Neighbourhood.of]
  ring

/-- On the grid of the double's last place, a quotient in the interval misses the significand by a
half at most, and by less where the significand is odd. -/
lemma bounds_of_contains (h : (Neighbourhood.of x).Contains num den)
    (hg : den * twoTo x.scale = grid) :
    (2 * (x.significand * grid) ≤ 2 * (num * grains) + grid ∧
      2 * (num * grains) ≤ 2 * (x.significand * grid) + grid) ∧
    (x.significand % 2 = 1 →
      2 * (x.significand * grid) < 2 * (num * grains) + grid ∧
        2 * (num * grains) < 2 * (x.significand * grid) + grid) := by
  obtain ⟨low, high, inner⟩ := h
  have reach : 4 * x.units ≤ (Neighbourhood.of x).low + 2 * twoTo x.scale := by
    simp only [Neighbourhood.of]
    split <;> omega
  have start : 4 * (x.significand * grid) ≤ (Neighbourhood.of x).low * den + 2 * grid :=
    calc 4 * (x.significand * grid) = 4 * x.units * den := by
          rw [← hg, units]
          ring
      _ ≤ ((Neighbourhood.of x).low + 2 * twoTo x.scale) * den := Nat.mul_le_mul_right den reach
      _ = (Neighbourhood.of x).low * den + 2 * grid := by
        rw [← hg]
        ring
  have stop : (Neighbourhood.of x).high * den = 4 * (x.significand * grid) + 2 * grid := by
    simp only [Neighbourhood.of, units, ← hg]
    ring
  have odd : x.significand % 2 = 1 → (Neighbourhood.of x).closed = false := by
    intro odd
    simp [Neighbourhood.of, odd]
  rw [den_mul] at low high inner
  rw [stop] at high inner
  refine ⟨by omega, fun hs => ?_⟩
  have := inner (odd hs)
  omega

/-- A quotient in the interval misses a power of two by a quarter at most on the lower side. -/
lemma low_of_contains (h : (Neighbourhood.of x).Contains num den) (hs : x.significand = twoTo 52)
    (he : 0 < x.scale) (hg : den * twoTo x.scale = grid) :
    4 * (twoTo 52 * grid) ≤ 4 * (num * grains) + grid := by
  have reach : 4 * x.units ≤ (Neighbourhood.of x).low + twoTo x.scale := by
    simp only [Neighbourhood.of]
    rw [if_pos ⟨hs, he⟩]
    omega
  calc 4 * (twoTo 52 * grid) = 4 * x.units * den := by
        rw [← hg, units, hs]
        ring
    _ ≤ ((Neighbourhood.of x).low + twoTo x.scale) * den := Nat.mul_le_mul_right den reach
    _ = (Neighbourhood.of x).low * den + grid := by
      rw [← hg]
      ring
    _ ≤ (Neighbourhood.of x).den * num + grid := Nat.add_le_add_right h.low grid
    _ = 4 * (num * grains) + grid := by rw [den_mul]

/-- A quotient in the interval of a double is rounded to it. -/
theorem ofRatio?_of_contains (hd : 0 < den) (h : (Neighbourhood.of x).Contains num den) :
    ofRatio? num den = some (x.withSign false) := by
  obtain ⟨grid, hg⟩ : ∃ grid, den * twoTo x.scale = grid := ⟨_, rfl⟩
  obtain ⟨⟨low, high⟩, inner⟩ := bounds_of_contains h hg
  have grid_pos : 0 < grid := hg ▸ Nat.mul_pos hd (twoTo_pos _)
  by_cases carry : 0 < x.scale ∧ x.significand = twoTo 52 ∧ num * grains < twoTo 52 * grid
  · -- Just below a power of two the grid is finer, and rounding to it ends at the power.
    obtain ⟨he, hs, short⟩ := carry
    have near := low_of_contains h hs he hg
    obtain ⟨k, hk⟩ := Nat.exists_eq_add_one_of_ne_zero he.ne'
    obtain ⟨fine, hf⟩ : ∃ fine, den * twoTo k = fine := ⟨_, rfl⟩
    have double : grid = 2 * fine := by
      rw [← hg, ← hf, hk, twoTo_succ]
      ring
    have half : fine ≤ twoTo 52 * fine := Nat.le_mul_of_pos_left fine (twoTo_pos 52)
    have power : twoTo 52 * grid = twoTo 53 * fine := by
      rw [double, twoTo_succ 52]
      ring
    have whole : twoTo 52 * grid = 2 * (twoTo 52 * fine) := by
      rw [double]
      ring
    rw [power] at near short whole
    have rounded : roundHalfEven (num * grains) fine = twoTo 53 := by
      apply roundHalfEven_eq (by omega)
      · omega
      · omega
      · exact fun odd => absurd odd (by decide)
    have below : num * grains / den < twoTo 53 * twoTo k := by
      refine Nat.div_lt_of_lt_mul ?_
      rw [Nat.mul_left_comm, hf]
      exact short
    have above : twoTo 52 * twoTo k ≤ num * grains / den := by
      rw [Nat.le_div_iff_mul_le hd, Nat.mul_assoc, Nat.mul_comm _ den, hf]
      omega
    simp only [ofRatio?, scale_eq (.inr above) below, hf, rounded]
    rw [if_pos trivial, ← hs, ← hk, ofParts?,
      dif_pos ⟨x.significand_lt, x.scale_le, x.canonical⟩]
    rfl
  · have full : x.scale = 0 ∨ twoTo 52 * grid ≤ num * grains := by
      obtain least | normal := x.canonical
      · exact .inl least
      · by_contra! short
        have greater : twoTo 52 + 1 ≤ x.significand := by omega
        have := Nat.mul_le_mul_right grid greater
        rw [Nat.succ_mul] at this
        omega
    have below : num * grains / den < twoTo 53 * twoTo x.scale := by
      have := Nat.mul_le_mul_right grid (Nat.succ_le_of_lt x.significand_lt)
      rw [Nat.succ_mul] at this
      refine Nat.div_lt_of_lt_mul ?_
      rw [Nat.mul_left_comm, hg]
      omega
    have above : x.scale = 0 ∨ twoTo 52 * twoTo x.scale ≤ num * grains / den := by
      refine full.imp_right fun hn => ?_
      rw [Nat.le_div_iff_mul_le hd, Nat.mul_assoc, Nat.mul_comm _ den, hg]
      exact hn
    have rounded := roundHalfEven_eq grid_pos low high inner
    simp only [ofRatio?, scale_eq above below, hg, rounded]
    rw [if_neg x.significand_lt.ne, ofParts?, dif_pos ⟨x.significand_lt, x.scale_le, x.canonical⟩]
    rfl

/-! ## Decimals -/

/-- The numbers that round to a double other than zero lie between `2 ^ -1075` and `2 ^ 1025`. -/
lemma range_of_contains (hx : x.significand ≠ 0) (h : (Neighbourhood.of x).Contains num den) :
    den ≤ twoTo 1075 * num ∧ num ≤ twoTo 1025 * den := by
  have units_pos : twoTo x.scale ≤ x.units :=
    Nat.le_mul_of_pos_left _ (Nat.pos_of_ne_zero hx)
  have units_lt := x.units_lt
  have scale_pos := twoTo_pos x.scale
  have low : 2 ≤ (Neighbourhood.of x).low := by
    simp only [Neighbourhood.of]
    split <;> omega
  have high : (Neighbourhood.of x).high ≤ 8 * twoTo 2098 := by
    simp only [Neighbourhood.of]
    omega
  constructor
  · refine Nat.le_of_mul_le_mul_left ?_ Nat.two_pos
    calc 2 * den ≤ (Neighbourhood.of x).low * den := Nat.mul_le_mul_right den low
      _ ≤ (Neighbourhood.of x).den * num := h.low
      _ = 2 * (twoTo 1075 * num) := by
        rw [den_mul, grains, twoTo_succ 1074]
        ring
  · have limit : 8 * twoTo 2098 = 4 * (twoTo 1025 * grains) := by decide +kernel
    have scaled : 4 * (num * grains) ≤ 4 * (twoTo 1025 * den * grains) :=
      calc 4 * (num * grains) = (Neighbourhood.of x).den * num := (den_mul x num).symm
        _ ≤ (Neighbourhood.of x).high * den := h.high
        _ ≤ 8 * twoTo 2098 * den := Nat.mul_le_mul_right den high
        _ = 4 * (twoTo 1025 * den * grains) := by
          rw [limit, Nat.mul_assoc, Nat.mul_right_comm]
    exact Nat.le_of_mul_le_mul_right (Nat.le_of_mul_le_mul_left scaled (by decide)) (twoTo_pos 1074)

/-- A literal in that range is read as a quotient. -/
lemma place_of_range {d : Decimal} (literal : d.IsLiteral)
    (low : d.ratio.2 ≤ twoTo 1075 * d.ratio.1) (high : d.ratio.1 ≤ twoTo 1025 * d.ratio.2) :
    d.coefficient ≠ 0 ∧ -330 ≤ d.power + d.significantDigits ∧
      d.power + d.significantDigits ≤ 310 := by
  have small : twoTo 1075 < tenTo 330 := by decide +kernel
  have great : 10 * twoTo 1025 < tenTo 310 := by decide +kernel
  have below := literal.coefficient_lt
  have above := literal.le_coefficient
  unfold Decimal.ratio at low high
  generalize d.coefficient = c at *
  generalize d.significantDigits = digits at *
  split at low
  · rename_i whole
    rw [if_pos whole] at high
    obtain ⟨k, hk⟩ := Int.eq_ofNat_of_zero_le whole
    rw [hk, Int.toNat_natCast] at low high
    dsimp only at low high
    have hc : c ≠ 0 := by
      rintro rfl
      simp at low
    have bound : tenTo (digits + k) < tenTo 310 :=
      calc tenTo (digits + k) = tenTo digits * tenTo k := tenTo_add digits k
        _ ≤ 10 * c * tenTo k := Nat.mul_le_mul_right _ (above hc)
        _ = 10 * (c * tenTo k) := Nat.mul_assoc 10 c _
        _ ≤ 10 * (twoTo 1025 * 1) := Nat.mul_le_mul_left 10 high
        _ = 10 * twoTo 1025 := by rw [Nat.mul_one]
        _ < tenTo 310 := great
    have := tenTo_lt_iff.1 bound
    omega
  · rename_i broken
    rw [if_neg broken] at high
    obtain ⟨k, hk⟩ := Int.exists_eq_neg_ofNat (Int.le_of_not_le broken)
    rw [hk, Int.neg_neg, Int.toNat_natCast] at low high
    dsimp only at low high
    have hc : c ≠ 0 := by
      rintro rfl
      have := tenTo_pos k
      omega
    have lower : tenTo k < tenTo (330 + digits) :=
      calc tenTo k ≤ twoTo 1075 * c := low
        _ < tenTo 330 * tenTo digits := Nat.mul_lt_mul'' small below
        _ = tenTo (330 + digits) := (tenTo_add 330 digits).symm
    have upper : tenTo digits < tenTo (310 + k) :=
      calc tenTo digits ≤ 10 * c := above hc
        _ ≤ 10 * (twoTo 1025 * tenTo k) := Nat.mul_le_mul_left 10 high
        _ = 10 * twoTo 1025 * tenTo k := (Nat.mul_assoc 10 _ _).symm
        _ < tenTo 310 * tenTo k := Nat.mul_lt_mul_of_pos_right great (tenTo_pos k)
        _ = tenTo (310 + k) := (tenTo_add 310 k).symm
    have := tenTo_lt_iff.1 lower
    have := tenTo_lt_iff.1 upper
    omega

/-- A literal in the interval of a double is read as it. -/
theorem ofDecimal?_of_contains {d : Decimal} (literal : d.IsLiteral) (hx : x.significand ≠ 0)
    (h : (Neighbourhood.of x).Contains d.ratio.1 d.ratio.2) :
    ofDecimal? d = some (x.withSign false) := by
  obtain ⟨low, high⟩ := range_of_contains hx h
  obtain ⟨hc, near, far⟩ := place_of_range literal low high
  have den_pos : 0 < d.ratio.2 := by
    unfold Decimal.ratio
    split
    · exact Nat.one_pos
    · exact tenTo_pos _
  simp only [ofDecimal?]
  rw [if_neg (by omega), if_neg (by omega), ofRatio?_of_contains den_pos h, Option.map_some,
    literal.unsigned]
  rfl

end Double

end Quill
