import Quill.Number.Layout
import Quill.Proofs.Number.Nearest
import Quill.Proofs.Number.Written

/-!
# Shown doubles

A shown double tells which double it is: read as a literal, its digits give it back
(`ofDecimal?_write_plain`). The digits that the search finds lie in the interval of the numbers that
round to the double. On the grids of fewer than seventeen digits the search looks for nothing else,
and on the last grid the interval is wider than a step (`Neighbourhood.Wide`).
-/

namespace Quill

/-- The magnitude that digits stand for, as a quotient of natural numbers. -/
def Digits.ratio (r : Digits) : Nat × Nat :=
  if 0 ≤ r.power then
    (r.coefficient * tenTo r.power.toNat, 1)
  else
    (r.coefficient, tenTo (-r.power).toNat)

/-- Digits in front of zeros stand for a natural number. -/
lemma Digits.ratio_natCast (c k : Nat) : ratio ⟨c, k⟩ = (c * tenTo k, 1) :=
  if_pos (Int.natCast_nonneg k)

/-- Digits behind a point stand for a quotient by a power of ten. -/
lemma Digits.ratio_neg_natCast (c k : Nat) : ratio ⟨c, -k⟩ = (c, tenTo k) := by
  cases k with
  | zero => exact congrArg (·, 1) (Nat.mul_one c)
  | succ k => exact if_neg (by dsimp only; omega)

namespace Neighbourhood

variable {n : Neighbourhood} {num den : Nat}

/-- A multiple of the denominator is held exactly if the interval contains the number itself. -/
lemma holds_mul_den_iff {c : Nat} : n.holds (c * n.den) = true ↔ n.Contains c 1 := by
  rw [holds, Nat.mul_comm c]
  constructor
  · intro h
    split at h
    · rename_i closed
      simp only [Bool.and_eq_true, decide_eq_true_eq] at h
      exact ⟨by omega, by omega, by simp [closed]⟩
    · simp only [Bool.and_eq_true, decide_eq_true_eq] at h
      exact ⟨by omega, by omega, by omega⟩
  · rintro ⟨low, high, inner⟩
    split
    · simp only [Bool.and_eq_true, decide_eq_true_eq]
      omega
    · rename_i opened
      simp only [Bool.and_eq_true, decide_eq_true_eq]
      have := inner (by simpa using opened)
      omega

/-- Whether a quotient lies in the interval depends on its value alone. -/
lemma contains_mul_iff {k : Nat} (hk : 0 < k) :
    n.Contains (num * k) (den * k) ↔ n.Contains num den := by
  have le (a b : Nat) : a * k ≤ b * k ↔ a ≤ b := Nat.mul_le_mul_right_iff hk
  have lt (a b : Nat) : a * k < b * k ↔ a < b := Nat.mul_lt_mul_right hk
  constructor
  · rintro ⟨low, high, inner⟩
    simp only [← Nat.mul_assoc, le, lt] at low high inner
    exact ⟨low, high, inner⟩
  · rintro ⟨low, high, inner⟩
    constructor <;> simpa only [← Nat.mul_assoc, le, lt]

/-- What lies in the interval measured in units of a power of ten lies in it. -/
lemma contains_ratio_of_inUnitsOf {r : Digits}
    (h : (n.inUnitsOf r.power).Contains r.coefficient 1) : n.Contains r.ratio.1 r.ratio.2 := by
  unfold Digits.ratio
  unfold inUnitsOf at h
  split at h
  · rename_i whole
    obtain ⟨low, high, inner⟩ := h
    have same : n.den * (r.coefficient * tenTo r.power.toNat) =
        n.den * tenTo r.power.toNat * r.coefficient := by ring
    rw [if_pos whole]
    constructor <;> rwa [same]
  · rename_i broken
    obtain ⟨low, high, inner⟩ := h
    simp only [scaleBy, Nat.mul_one] at low high inner
    rw [if_neg broken]
    exact ⟨low, high, inner⟩

/-! ## The last grid -/

/-- The interval goes far enough on both sides of the value to hold a number of the grid of
seventeen digits on each. -/
structure Wide (n : Neighbourhood) : Prop where
  below : n.value ≤ twoTo 54 * (n.value - n.low)
  above : n.value ≤ twoTo 54 * (n.high - n.value)

/-- The interval of a double is wide. -/
lemma wide_of (x : Double) : (of x).Wide := by
  have units : x.units ≤ twoTo 53 * twoTo x.scale := Nat.mul_le_mul_right _ x.significand_lt.le
  have reach : 4 * x.units ≤ twoTo 54 * (2 * twoTo x.scale) := by
    rw [twoTo_succ 53]
    linarith
  constructor
  · simp only [of]
    split
    · rename_i power
      have exact : 4 * x.units = twoTo 54 * twoTo x.scale := by
        rw [Double.units, power.1, twoTo_add 52 2, Nat.mul_assoc]
        exact Nat.mul_left_comm 4 (twoTo 52) (twoTo x.scale)
      have gap : 4 * x.units - (4 * x.units - twoTo x.scale) = twoTo x.scale := by
        have := Nat.le_mul_of_pos_left (twoTo x.scale) (twoTo_pos 54)
        omega
      rw [gap, exact]
    · by_cases zero : x.significand = 0
      · simp [Double.units, zero]
      · have : twoTo x.scale ≤ x.units := Nat.le_mul_of_pos_left _ (Nat.pos_of_ne_zero zero)
        have gap : 4 * x.units - (4 * x.units - 2 * twoTo x.scale) = 2 * twoTo x.scale := by omega
        rwa [gap]
  · have gap : (of x).high - (of x).value = 2 * twoTo x.scale := by
      simp only [of]
      omega
    rwa [gap]

/-- An interval stays wide in another unit. -/
lemma Wide.inUnitsOf (h : n.Wide) (p : Int) : (n.inUnitsOf p).Wide := by
  unfold Neighbourhood.inUnitsOf
  split
  · exact ⟨h.below, h.above⟩
  · have scaled (a b c : Nat) (le : a ≤ twoTo 54 * (b - c)) (k : Nat) :
        a * k ≤ twoTo 54 * (b * k - c * k) := by
      rw [← Nat.sub_mul, ← Nat.mul_assoc]
      exact Nat.mul_le_mul_right k le
    exact ⟨scaled _ _ _ h.below _, scaled _ _ _ h.above _⟩

/-- On a grid where the value has seventeen digits, the number of the grid that is nearest to the
value lies in the interval. -/
lemma contains_nearer (h : n.Wide) (hd : 0 < n.den) (far : tenTo 16 * n.den ≤ n.value)
    (ties : Ties) : n.Contains (n.nearer ties (n.value / n.den)) 1 := by
  obtain ⟨below, above⟩ := h
  obtain ⟨low, high⟩ := nearer_bounds hd ties
  have steps : twoTo 53 * n.den < tenTo 16 * n.den :=
    Nat.mul_lt_mul_of_pos_right (by decide) hd
  have half : twoTo 54 = 2 * twoTo 53 := by decide
  rw [half, Nat.mul_assoc, Nat.mul_left_comm] at below above
  have low_gap : n.den < 2 * (n.value - n.low) :=
    Nat.lt_of_mul_lt_mul_left (steps.trans_le (far.trans below))
  have high_gap : n.den < 2 * (n.high - n.value) :=
    Nat.lt_of_mul_lt_mul_left (steps.trans_le (far.trans above))
  have inner : n.low < n.nearer ties (n.value / n.den) * n.den ∧
      n.nearer ties (n.value / n.den) * n.den < n.high := by omega
  rw [Nat.mul_comm _ n.den] at inner
  exact ⟨by omega, by omega, fun _ => by omega⟩

/-- What the search finds lies in the interval. -/
theorem contains_searchDigits (h : n.Wide) (hd : 0 < n.den) (ties : Ties) {leading : Int}
    (low : 10 ^ leading ≤ n.middle) {left : Nat} (hl : left ≤ 16) :
    let r := searchDigits n ties leading left
    n.Contains r.ratio.1 r.ratio.2 := by
  induction left with
  | zero =>
    apply contains_ratio_of_inUnitsOf
    have den_pos := den_inUnitsOf hd (leading - 16)
    refine contains_nearer (h.inUnitsOf _) den_pos ?_ ties
    have cast_den_pos : (0 : ℚ) < (n.inUnitsOf (leading - 16)).den := by exact_mod_cast den_pos
    have grid_pos : (0 : ℚ) < 10 ^ (leading - 16) := by positivity
    have far : (tenTo 16 : ℚ) ≤ (n.inUnitsOf (leading - 16)).middle := by
      rw [(n.inUnitsOf_eq _).1, le_div_iff₀ grid_pos, cast_tenTo, ← zpow_natCast,
        ← zpow_add₀ (by norm_num)]
      simpa using low
    rw [middle, le_div_iff₀ cast_den_pos] at far
    exact_mod_cast far
  | succ left ih =>
    unfold searchDigits
    dsimp only
    split
    · rename_i c hc
      exact contains_ratio_of_inUnitsOf (holds_mul_den_iff.1 (neighbour?_spec hc).2)
    · exact ih (by omega)

end Neighbourhood

/-- Ten on a grid is one on the next. -/
lemma contains_ratio_carry {n : Neighbourhood} {p : Int}
    (h : n.Contains (Digits.ratio ⟨10, p⟩).1 (Digits.ratio ⟨10, p⟩).2) :
    n.Contains (Digits.ratio ⟨1, p + 1⟩).1 (Digits.ratio ⟨1, p + 1⟩).2 := by
  by_cases whole : 0 ≤ p
  · obtain ⟨k, rfl⟩ := Int.eq_ofNat_of_zero_le whole
    have next : (k : Int) + 1 = (k + 1 : Nat) := rfl
    rw [Digits.ratio_natCast, Nat.mul_comm] at h
    rwa [next, Digits.ratio_natCast, Nat.one_mul, tenTo_succ]
  · obtain ⟨k, rfl⟩ : ∃ k : Nat, p = -(k + 1 : Nat) := ⟨(-p - 1).toNat, by omega⟩
    have next : -((k + 1 : Nat) : Int) + 1 = -(k : Nat) := by omega
    rw [Digits.ratio_neg_natCast, tenTo_succ] at h
    rw [next, Digits.ratio_neg_natCast]
    exact (Neighbourhood.contains_mul_iff (k := 10) (by decide)).1 h

/-- The shortest digits of a double lie in the interval of the numbers that round to it. -/
theorem contains_shortestDigits (ties : Ties) {x : Double} (hx : x.significand ≠ 0) :
    let r := shortestDigits ties x
    (Neighbourhood.of x).Contains r.ratio.1 r.ratio.2 := by
  have den_pos : 0 < (Neighbourhood.of x).den := Nat.mul_pos (by decide) (twoTo_pos _)
  have low := (Neighbourhood.leadingPower_bounds den_pos (den_le_value hx)).1
  have found := Neighbourhood.contains_searchDigits (Neighbourhood.wide_of x) den_pos ties low
    (Nat.le_refl 16)
  obtain ⟨⟨c, p⟩, hr⟩ :
      ∃ r, searchDigits (.of x) ties (Neighbourhood.of x).leadingPower 16 = r := ⟨_, rfl⟩
  dsimp only at found ⊢
  rw [hr] at found
  rw [shortestDigits_eq hx hr]
  split
  · rename_i ten
    obtain rfl : c = 10 := ten
    exact contains_ratio_carry found
  · exact found

/-! ## Shown texts -/

namespace Layout

/-- Zeros behind digits multiply their value by a power of ten. -/
lemma digitsValue_append_zeros (ds : List Char) (k : Nat) :
    digitsValue (ds ++ List.replicate k '0') = digitsValue ds * tenTo k := by
  have zeros : digitsValue (List.replicate k '0') = 0 := by
    have := digitsValue_zeros_append k []
    rwa [List.append_nil] at this
  rw [digitsValue_append, List.length_replicate, zeros, Nat.add_zero]

section

variable {whole fraction : List Char}

/-- Digits without a point are a literal. -/
lemma isLiteral_whole (hw : AreDigits whole) (ne : whole ≠ []) :
    Decimal.IsLiteral ⟨false, whole, none, none⟩ where
  unsigned := rfl
  whole := hw
  fraction := nofun
  ne_nil := .inl ne
  exponent := nofun

/-- Digits with a point between them are a literal. -/
lemma isLiteral_point (hw : AreDigits whole) (ne : whole ≠ []) (hf : AreDigits fraction) :
    Decimal.IsLiteral ⟨false, whole, some fraction, none⟩ where
  unsigned := rfl
  whole := hw
  fraction := by
    rintro _ ⟨⟩
    exact hf
  ne_nil := .inl ne
  exponent := nofun

end

/-- Digits that are spread around a point, where they need one, make a literal of the same value. -/
lemma isLiteral_spread (c : Nat) (power : Int) :
    let parts := spread false (digitsOf c) (power + ((digitsOf c).length : Int) - 1)
    let d : Decimal := ⟨false, parts.1, parts.2, none⟩
    d.IsLiteral ∧ d.ratio = Digits.ratio ⟨c, power⟩ := by
  have digits := areDigits_digitsOf c
  have ne : digitsOf c ≠ [] := Nat.toDigits_ne_nil
  have length_pos := List.length_pos_iff.2 ne
  have value := digitsValue_digitsOf c
  -- From here on the digits are any run of that value.
  generalize digitsOf c = ds at *
  obtain ⟨p, hp⟩ : ∃ p, power + (ds.length : Int) - 1 = p := ⟨_, rfl⟩
  have same {d : Decimal} (coefficient : d.coefficient = c) (place : d.power = power) :
      d.ratio = Digits.ratio ⟨c, power⟩ := by
    rw [← coefficient, ← place]
    rfl
  dsimp only
  rw [hp, spread]
  split
  · have behind := List.forall_mem_append.2 ⟨areDigits_zeros (-p - 1).toNat, digits⟩
    refine ⟨isLiteral_point (areDigits_zeros 1) (by simp) behind, same ?_ ?_⟩
    · change digitsValue (List.replicate 1 '0' ++ (List.replicate (-p - 1).toNat '0' ++ ds)) = c
      rw [digitsValue_zeros_append, digitsValue_zeros_append, value]
    · simp only [Decimal.power, Option.elim_none, Option.getD_some, List.length_append,
        List.length_replicate]
      omega
  · dsimp only
    split
    · rename_i short
      have front : AreDigits (ds.take (p.toNat + 1)) := fun d hd =>
        digits d (List.mem_of_mem_take hd)
      have behind : AreDigits (ds.drop (p.toNat + 1)) := fun d hd =>
        digits d (List.mem_of_mem_drop hd)
      refine ⟨isLiteral_point front (by simp [ne]) behind, same ?_ ?_⟩
      · change digitsValue (ds.take (p.toNat + 1) ++ ds.drop (p.toNat + 1)) = c
        rw [List.take_append_drop, value]
      · simp only [Decimal.power, Option.elim_none, Option.getD_some, List.length_drop]
        omega
    · rename_i long
      obtain ⟨k, hk⟩ := Int.eq_ofNat_of_zero_le (a := power) (by omega)
      have width : p.toNat + 1 - ds.length = k := by omega
      have whole := List.forall_mem_append.2 ⟨digits, areDigits_zeros k⟩
      rw [width, hk, Digits.ratio_natCast]
      refine ⟨isLiteral_whole whole (by simp [ne]), ?_⟩
      change (digitsValue (ds ++ List.replicate k '0' ++ []) * tenTo 0, 1) = _
      rw [List.append_nil, digitsValue_append_zeros, value, tenTo_zero, Nat.mul_one]

end Layout

namespace Double

variable {x : Double}

/-- A shown double without a sign is a literal, and it is read as that double. -/
theorem ofDecimal?_write_plain (unsigned : x.negative = false) :
    (Layout.plain.write x).IsLiteral ∧ ofDecimal? (Layout.plain.write x) = some x := by
  obtain ⟨⟨c, power⟩, hr⟩ : ∃ r, shortestDigits Layout.plain.ties x = r := ⟨_, rfl⟩
  obtain ⟨literal, ratio⟩ := Layout.isLiteral_spread c power
  have written : Layout.plain.write x =
      let parts := Layout.spread false (digitsOf c) (power + ((digitsOf c).length : Int) - 1)
      ⟨false, parts.1, parts.2, none⟩ := by
    simp only [Layout.write, hr, unsigned]
    exact if_pos rfl
  rw [← written] at literal ratio
  refine ⟨literal, ?_⟩
  by_cases hx : x.significand = 0
  · have visible : shortestDigits Layout.plain.ties x = ⟨0, 0⟩ := if_pos (by simp [isZero, hx])
    obtain ⟨rfl, rfl⟩ := Digits.mk.inj (hr.symm.trans visible)
    have same : x = zero false := by
      rw [← unsigned]
      exact eq_zero_of_units (by rw [units, hx, Nat.zero_mul])
    rw [written, same]
    rfl
  · have contains := contains_shortestDigits Layout.plain.ties hx
    dsimp only at contains
    rw [hr, ← ratio] at contains
    rw [ofDecimal?_of_contains literal hx contains]
    exact congrArg some (withSign_self unsigned)

/-- No two doubles without a sign are shown alike. -/
lemma write_plain_injective {y : Double} (hx : x.negative = false) (hy : y.negative = false)
    (same : (Layout.plain.write x).spell = (Layout.plain.write y).spell) : x = y := by
  obtain ⟨literal, read⟩ := ofDecimal?_write_plain hx
  obtain ⟨literal', read'⟩ := ofDecimal?_write_plain hy
  rw [spell_injective literal literal' same, read'] at read
  exact (Option.some.inj read).symm

end Double

end Quill
