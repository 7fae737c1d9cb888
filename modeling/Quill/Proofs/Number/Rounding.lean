import Mathlib.Algebra.Order.Field.Rat
import Mathlib.Tactic.FieldSimp
import Mathlib.Tactic.GCongr
import Mathlib.Tactic.Linarith
import Mathlib.Tactic.Positivity
import Mathlib.Tactic.Ring
import Quill.Proofs.Number.Literal

/-!
# Rounding to a double

A quotient below `2 ^ 1024 - 2 ^ 970` has a nearest double, and where doubles have all their 53
bits, that double is greater than the quotient by a factor of at most `1 + 2 ^ -53`
(`exists_ofRatio?`).
-/

namespace Quill

/-! ## Natural numbers -/

/-- Rounding misses the quotient by a half at most, and by less where it ends at an odd number. -/
lemma roundHalfEven_near {num den m : Nat} (hd : 0 < den) (h : roundHalfEven num den = m) :
    (2 * (m * den) ≤ 2 * num + den ∧ 2 * num ≤ 2 * (m * den) + den) ∧
      (m % 2 = 1 → 2 * (m * den) < 2 * num + den ∧ 2 * num < 2 * (m * den) + den) := by
  have split := Nat.div_add_mod num den
  have less := Nat.mod_lt num hd
  rw [Nat.mul_comm] at split
  unfold roundHalfEven at h
  dsimp only at h
  generalize num / den = q at *
  generalize num % den = r at *
  subst h
  split
  · omega
  · rw [Nat.succ_mul q den]
    omega

/-- Rounding goes to no less than the quotient without its remainder, and up by at most a half. -/
lemma roundHalfEven_bounds (num : Nat) {den : Nat} (hd : 0 < den) :
    num / den ≤ roundHalfEven num den ∧ 2 * (den * roundHalfEven num den) ≤ 2 * num + den := by
  obtain ⟨⟨up, down⟩, -⟩ := roundHalfEven_near hd rfl
  rw [Nat.mul_comm den]
  refine ⟨Nat.le_of_lt_succ ((Nat.div_lt_iff_lt_mul hd).2 ?_), up⟩
  rw [Nat.succ_mul]
  omega

/-- A quotient that is no greater than a natural number is not rounded beyond it. -/
lemma roundHalfEven_le {num den m : Nat} (hd : 0 < den) (h : num < den * m) :
    roundHalfEven num den ≤ m := by
  have ⟨_, upper⟩ := roundHalfEven_bounds num hd
  by_contra beyond
  have := Nat.mul_le_mul_left den (Nat.lt_of_not_le beyond)
  rw [Nat.mul_succ] at this
  omega

/-- A number below a power of two has fewer bits. -/
lemma log2_lt {m k : Nat} (h : m < twoTo k) (hk : 0 < k) : m.log2 < k := by
  by_cases zero : m = 0
  · rwa [zero, Nat.log2_zero]
  · exact (Nat.log2_lt zero).2 h

namespace Double

/-- The magnitude in grains from which on a quotient has no double. -/
def overflow : Nat :=
  (twoTo 54 - 1) * twoTo 2044

/-- The factor by which rounding a quotient can miss it. -/
def roundoff : ℚ :=
  1 / 2 ^ 53

/-- The magnitude, exactly. -/
def magnitude (x : Double) : ℚ :=
  x.units / grains

/-- A magnitude has no sign. -/
lemma magnitude_nonneg (x : Double) : 0 ≤ x.magnitude :=
  div_nonneg (Nat.cast_nonneg _) (Nat.cast_nonneg _)

/-- A significand and a scale within their bounds are put together to a double. -/
lemma ofParts?_eq_some (negative : Bool) {significand scale : Nat} (hs : significand < twoTo 53)
    (hk : scale ≤ 2045) (hc : scale = 0 ∨ twoTo 52 ≤ significand) :
    ∃ x, ofParts? negative significand scale = some x ∧ x.units = significand * twoTo scale := by
  rw [ofParts?, dif_pos ⟨hs, hk, hc⟩]
  exact ⟨_, rfl, rfl⟩

section

variable {num den scaled scale : Nat}

/-- The scale leaves 53 bits of a quotient, or fewer where it is the least. -/
lemma scale_bounds (hd : 0 < den) (hs : (scaled / den).log2 - 52 = scale) :
    scaled < den * twoTo scale * twoTo 53 ∧
      (twoTo 52 ≤ scaled / den → den * twoTo scale * twoTo 52 ≤ scaled) := by
  have below : scaled < den * (scaled / den + 1) := Nat.lt_mul_div_succ scaled hd
  have above : den * (scaled / den) ≤ scaled := Nat.mul_div_le scaled den
  generalize scaled / den = q at *
  constructor
  · have high : q < twoTo (scale + 53) :=
      calc q < twoTo (q.log2 + 1) := Nat.lt_log2_self
        _ ≤ twoTo (scale + 53) := twoTo_le (by omega)
    calc scaled < den * (q + 1) := below
      _ ≤ den * twoTo (scale + 53) := Nat.mul_le_mul_left den high
      _ = den * twoTo scale * twoTo 53 := by rw [twoTo_add, Nat.mul_assoc]
  · intro hq
    have ne : q ≠ 0 := (Nat.lt_of_lt_of_le (twoTo_pos 52) hq).ne'
    have bits : 52 ≤ q.log2 := (Nat.le_log2 ne).2 hq
    have low : twoTo (scale + 52) ≤ q :=
      calc twoTo (scale + 52) ≤ twoTo q.log2 := twoTo_le (by omega)
        _ ≤ q := Nat.log2_self_le ne
    calc den * twoTo scale * twoTo 52 = den * twoTo (scale + 52) := by rw [twoTo_add, Nat.mul_assoc]
      _ ≤ den * q := Nat.mul_le_mul_left den low
      _ ≤ scaled := above

/-- Below the overflow the scale is that of a double, and on the last scale nothing is rounded up to
a power of two. -/
lemma scale_within (hd : 0 < den) (hs : (scaled / den).log2 - 52 = scale)
    (small : scaled < den * overflow) :
    scale ≤ 2045 ∧ (scale = 2045 → roundHalfEven scaled (den * twoTo scale) < twoTo 53) := by
  constructor
  · have bits : scaled / den < twoTo 2098 :=
      calc scaled / den < overflow := Nat.div_lt_of_lt_mul small
        _ ≤ twoTo 54 * twoTo 2044 := Nat.mul_le_mul_right _ (Nat.sub_le _ _)
        _ = twoTo 2098 := (twoTo_add 54 2044).symm
    have := log2_lt bits (by decide)
    omega
  · rintro rfl
    have grid : 0 < den * twoTo 2045 := Nat.mul_pos hd (twoTo_pos _)
    have near := (roundHalfEven_bounds scaled grid).2
    have double : twoTo 2045 = twoTo 2044 * 2 := twoTo_succ 2044
    have limit : 2 * (den * overflow) = den * twoTo 2045 * (twoTo 54 - 1) := by
      rw [overflow, double]
      ring
    refine Nat.lt_of_mul_lt_mul_left (a := 2 * (den * twoTo 2045)) ?_
    have whole : 2 * (den * twoTo 2045) * twoTo 53 =
        den * twoTo 2045 * (twoTo 54 - 1) + den * twoTo 2045 := by
      rw [← Nat.mul_succ]
      have : (twoTo 54 - 1).succ = 2 * twoTo 53 := by decide
      rw [this]
      ring
    rw [whole, Nat.mul_assoc 2]
    omega

/-- A quotient below the overflow is rounded to a double, which misses it by at most half of the
grid that it is rounded to. -/
lemma exists_units_ofRatio? (hd : 0 < den) (hs : (num * grains / den).log2 - 52 = scale)
    (small : num * grains < den * overflow) :
    ∃ y, ofRatio? num den = some y ∧
      2 * (den * y.units) ≤ 2 * (num * grains) + den * twoTo scale := by
  obtain ⟨below, above⟩ := scale_bounds hd hs
  obtain ⟨hk, last⟩ := scale_within hd hs small
  have grid : 0 < den * twoTo scale := Nat.mul_pos hd (twoTo_pos _)
  have canonical : scale = 0 ∨ twoTo 52 ≤ num * grains / den := by
    by_cases ne : (num * grains / den).log2 ≤ 52
    · exact .inl (by omega)
    · refine .inr ((Nat.le_log2 ?_).1 (Nat.le_of_not_le ne))
      rintro zero
      rw [zero] at ne
      exact ne (Nat.zero_le _)
  simp only [ofRatio?, hs]
  generalize num * grains = scaled at *
  have high := roundHalfEven_le grid below
  obtain ⟨low, near⟩ := roundHalfEven_bounds scaled grid
  have near : 2 * (den * (roundHalfEven scaled (den * twoTo scale) * twoTo scale)) ≤
      2 * scaled + den * twoTo scale := by
    rw [Nat.mul_comm (roundHalfEven _ _), ← Nat.mul_assoc den]
    exact near
  split
  · rename_i carry
    have inner : scale ≠ 2045 := fun hl => absurd carry (last hl).ne
    obtain ⟨y, hy, units⟩ := ofParts?_eq_some false (by decide)
      (Nat.lt_of_le_of_ne hk inner) (.inr (Nat.le_refl (twoTo 52)))
    refine ⟨y, hy, ?_⟩
    have carried : y.units = twoTo 53 * twoTo scale := by
      rw [units, twoTo_succ 52, twoTo_succ scale]
      ring
    rwa [carried, ← carry]
  · rename_i full
    have normal : scale = 0 ∨ twoTo 52 ≤ roundHalfEven scaled (den * twoTo scale) := by
      refine canonical.imp_right fun hq => Nat.le_trans ?_ low
      rw [Nat.le_div_iff_mul_le grid, Nat.mul_comm]
      exact above hq
    obtain ⟨y, hy, units⟩ := ofParts?_eq_some false (Nat.lt_of_le_of_ne high full) hk normal
    exact ⟨y, hy, units ▸ near⟩

/-- From one on, where doubles have all their bits, rounding goes up by a small factor at most. -/
theorem exists_ofRatio? (hd : 0 < den) (one : den ≤ num)
    (small : num * grains < den * overflow) :
    ∃ y, ofRatio? num den = some y ∧ y.magnitude ≤ (1 + roundoff) * (num / den) := by
  obtain ⟨y, hy, near⟩ := exists_units_ofRatio? hd rfl small
  refine ⟨y, hy, ?_⟩
  have bits : twoTo 52 ≤ num * grains / den :=
    calc twoTo 52 ≤ grains := twoTo_le (by decide)
      _ ≤ num * grains / den := by
        rw [Nat.le_div_iff_mul_le hd, Nat.mul_comm]
        exact Nat.mul_le_mul_right grains one
  have grid := (scale_bounds hd rfl).2 bits
  generalize den * twoTo ((num * grains / den).log2 - 52) = g at *
  have near : 2 * (den * y.units : ℚ) ≤ 2 * (num * grains) + g := by exact_mod_cast near
  have grid : (g : ℚ) * 2 ^ 52 ≤ num * grains := by exact_mod_cast grid
  have den_pos : (0 : ℚ) < den := by exact_mod_cast hd
  have grains_pos : (0 : ℚ) < grains := by exact_mod_cast twoTo_pos 1074
  rw [magnitude, div_le_iff₀ grains_pos, ← mul_div_assoc, ← mul_div_right_comm,
    le_div_iff₀ den_pos, roundoff]
  linarith

end

end Double

end Quill
