import Quill.Json.Number
import Quill.Number.Layout
import Quill.Proofs.Json.Numbers
import Quill.Proofs.Number.Shortest

/-!
# Written doubles

Doubles in data are spelled as JSON has its numbers (`isJson_write`). A JSON number may lie outside
the range of doubles, and even inside it the steps in which it is read round up more than once. No
double is written as a number that is lost in this way: every one is read as some double
(`double?_write`), though perhaps as one beside it.
-/

namespace Quill

/-- A natural number is spelled as JSON has it. -/
lemma isJson_ofNat (n : Nat) : (Decimal.ofNat n).IsJson := by
  refine ⟨areDigits_digitsOf n, Nat.toDigits_ne_nil, fun zero => ?_, nofun, nofun⟩
  obtain rfl | positive := Nat.eq_zero_or_pos n
  · rfl
  · exact absurd zero (head_digitsOf positive)

/-! ## Taking digits -/

/-- Digits are all taken where the number that they make fits. -/
lemma takeDigits_eq {s : Nat} {ds : List Char}
    (h : s * tenTo ds.length + digitsValue ds < wordLimit) :
    takeDigits s ds = (s * tenTo ds.length + digitsValue ds, ds.length) := by
  induction ds generalizing s with
  | nil =>
    rw [takeDigits, List.length_nil, tenTo_zero, Nat.mul_one]
    rfl
  | cons d ds ih =>
    have step : (10 * s + (d.toNat - '0'.toNat)) * tenTo ds.length + digitsValue ds =
        s * tenTo (d :: ds).length + digitsValue (d :: ds) := by
      rw [digitsValue_cons, List.length_cons, tenTo_succ]
      ring
    rw [← step] at h ⊢
    have fits : 10 * s + (d.toNat - '0'.toNat) < wordLimit := by
      have := Nat.le_mul_of_pos_right (10 * s + (d.toNat - '0'.toNat)) (tenTo_pos ds.length)
      omega
    rw [takeDigits]
    dsimp only
    rw [if_pos fits, ih h]
    rfl

namespace Json

/-- A number whose digits fit is read from its coefficient and its power. -/
lemma double?_eq {d : Decimal} (h : d.coefficient < wordLimit) :
    double? d = (Double.scale? d.coefficient d.power).map (·.withSign d.negative) := by
  have value : d.coefficient =
      digitsValue d.whole * tenTo (d.fraction.getD []).length + digitsValue (d.fraction.getD []) :=
    digitsValue_append _ _
  have whole : takeDigits 0 d.whole = (digitsValue d.whole, d.whole.length) := by
    have fits : digitsValue d.whole < wordLimit := by
      have := Nat.le_mul_of_pos_right (digitsValue d.whole)
        (tenTo_pos (d.fraction.getD []).length)
      omega
    rw [takeDigits_eq] <;> rw [Nat.zero_mul, Nat.zero_add]
    exact fits
  have fraction : takeDigits (digitsValue d.whole) (d.fraction.getD []) =
      (d.coefficient, (d.fraction.getD []).length) := by
    rw [value] at h ⊢
    exact takeDigits_eq h
  have power : ((d.whole.length - d.whole.length : Nat) : Int) - (d.fraction.getD []).length +
      d.exponent.elim 0 Exponent.value = d.power := by
    rw [Decimal.power]
    omega
  simp only [double?, whole, fraction, power]

end Json

/-! ## Layouts -/

namespace Layout

variable {c : Nat} {p : Int}

/-- Zeros are digits. -/
lemma areDigits_zeros (k : Nat) : AreDigits (List.replicate k '0') := by
  intro d hd
  obtain rfl := List.eq_of_mem_replicate hd
  rfl

/-- Zeros in front of digits leave their value alone. -/
lemma digitsValue_zeros_append (k : Nat) (ds : List Char) :
    digitsValue (List.replicate k '0' ++ ds) = digitsValue ds := by
  induction k with
  | zero => rfl
  | succ k ih =>
    rw [List.replicate_succ, List.cons_append, digitsValue_cons, ih]
    simp

/-- Digits on both sides of a point make a JSON number, and the point stands in front of the last of
them. -/
lemma isJson_point {whole fraction : List Char} (negative : Bool) (hw : AreDigits whole)
    (ne : whole ≠ []) (leading : whole.head? = some '0' → whole.length = 1)
    (hf : AreDigits fraction) (behind : fraction ≠ []) :
    let d : Decimal := ⟨negative, whole, some fraction, none⟩
    d.IsJson ∧ d.power < 0 := by
  refine ⟨⟨hw, ne, leading, ?_, nofun⟩, ?_⟩
  · rintro _ ⟨⟩
    exact ⟨hf, behind⟩
  · have := List.length_pos_iff.2 behind
    simp only [Decimal.power, Option.elim_none, Option.getD_some]
    omega

/-- So digits do that are spread around a point, and their number fits. -/
lemma isJson_spread (negative : Bool) (hc : 0 < c) (fits : c < wordLimit) (hp : p < 16) :
    let parts := spread true (digitsOf c) p
    let d : Decimal := ⟨negative, parts.1, parts.2, none⟩
    d.IsJson ∧ d.coefficient < wordLimit ∧ d.power < 0 := by
  have digits := areDigits_digitsOf c
  have ne : digitsOf c ≠ [] := Nat.toDigits_ne_nil
  have head := head_digitsOf hc
  have value := digitsValue_digitsOf c
  generalize digitsOf c = ds at *
  unfold spread
  dsimp only
  split
  · have behind := List.forall_mem_append.2 ⟨areDigits_zeros (-p - 1).toNat, digits⟩
    obtain ⟨json, power⟩ := isJson_point negative (areDigits_zeros 1) (by simp) (fun _ => rfl)
      behind (by simp [ne])
    have same : digitsValue (List.replicate 1 '0' ++ (List.replicate (-p - 1).toNat '0' ++ ds)) =
        c := by rw [digitsValue_zeros_append, digitsValue_zeros_append, value]
    exact ⟨json, lt_of_eq_of_lt same fits, power⟩
  · split
    · rename_i short
      have leading : (ds.take (p.toNat + 1)).head? = some '0' →
          (ds.take (p.toNat + 1)).length = 1 := by
        intro zero
        rw [List.head?_take, if_neg (by omega)] at zero
        exact absurd zero head
      obtain ⟨json, power⟩ := isJson_point negative
        (fun d hd => digits d (List.mem_of_mem_take hd)) (by simp [ne]) leading
        (fun d hd => digits d (List.mem_of_mem_drop hd)) (by simpa using short)
      have same : digitsValue (ds.take (p.toNat + 1) ++ ds.drop (p.toNat + 1)) = c := by
        rw [List.take_append_drop, value]
      exact ⟨json, lt_of_eq_of_lt same fits, power⟩
    · rename_i long
      have whole := List.forall_mem_append.2 ⟨digits, areDigits_zeros (p.toNat + 1 - ds.length)⟩
      have leading : (ds ++ List.replicate (p.toNat + 1 - ds.length) '0').head? = some '0' →
          (ds ++ List.replicate (p.toNat + 1 - ds.length) '0').length = 1 := by
        intro zero
        rw [List.head?_append_of_ne_nil _ ne] at zero
        exact absurd zero head
      obtain ⟨json, power⟩ := isJson_point negative whole (by simp [ne]) leading
        (areDigits_zeros 1) (by simp)
      have all : AreDigits ((ds ++ List.replicate (p.toNat + 1 - ds.length) '0') ++ ['0']) :=
        List.forall_mem_append.2 ⟨whole, areDigits_zeros 1⟩
      have few : tenTo 17 ≤ wordLimit := by decide
      refine ⟨json, Nat.lt_of_lt_of_le all.value_lt (Nat.le_trans (tenTo_le ?_) few), power⟩
      simp only [List.length_append, List.length_replicate, List.length_singleton]
      omega

/-- The exponent of a number in data. -/
lemma value_exponent (p : Int) :
    (Exponent.mk 'e' (some (if p < 0 then '-' else '+')) (digitsOf p.natAbs)).value = p := by
  rw [Exponent.value, digitsValue_digitsOf]
  by_cases hp : p < 0
  · rw [if_pos hp, if_pos rfl]
    omega
  · rw [if_neg hp, if_neg (by simp)]
    omega

/-- One digit in front of the point and an exponent make a JSON number, and none of the digits is
lost. -/
lemma isJson_scientific (negative : Bool) (c : Nat) (power : Int) :
    let d := scientific negative (digitsOf c) (power + ((digitsOf c).length : Int) - 1)
    d.IsJson ∧ d.coefficient = c ∧ d.power = power := by
  have digits := areDigits_digitsOf c
  have ne : digitsOf c ≠ [] := Nat.toDigits_ne_nil
  have value := digitsValue_digitsOf c
  generalize digitsOf c = ds at *
  obtain ⟨d, ds, rfl⟩ := List.exists_cons_of_ne_nil ne
  obtain ⟨hd, hds⟩ := List.forall_mem_cons.1 digits
  refine ⟨⟨?_, by simp [scientific], fun _ => by simp [scientific], ?_, ?_⟩, ?_, ?_⟩
  · rintro _ (_ | ⟨_, ⟨⟩⟩)
    exact hd
  · intro fs hfs
    cases ds with
    | nil => cases hfs
    | cons e ds =>
      cases hfs
      exact ⟨hds, List.cons_ne_nil _ _⟩
  · rintro _ ⟨⟩
    refine ⟨.inl rfl, .inr ?_, areDigits_digitsOf _, Nat.toDigits_ne_nil⟩
    split
    · exact .inr rfl
    · exact .inl rfl
  · rw [← value]
    cases ds <;> rfl
  · rw [Decimal.power, scientific, Option.elim_some, value_exponent]
    cases ds with
    | nil =>
      simp
    | cons e ds =>
      simp
      omega

/-- A double in data is a JSON number. All of its digits fit, and it is smaller than its digits or
says where the shortest ones stand. -/
theorem isJson_write (x : Double) :
    let d := data.write x
    d.IsJson ∧ d.negative = x.negative ∧ d.coefficient < wordLimit ∧
      (d.power < 0 ∨ x.significand ≠ 0 ∧ d.coefficient = (shortestDigits .toEven x).coefficient ∧
        d.power = (shortestDigits .toEven x).power) := by
  by_cases hx : x.significand = 0
  · have zero : shortestDigits .toEven x = ⟨0, 0⟩ := if_pos (by simp [Double.isZero, hx])
    have written : data.write x = ⟨x.negative, ['0'], some ['0'], none⟩ := by
      simp only [write, data, zero]
      rfl
    obtain ⟨json, power⟩ := isJson_point x.negative (areDigits_zeros 1) (by simp) (fun _ => rfl)
      (areDigits_zeros 1) (by simp)
    rw [written]
    exact ⟨json, rfl, by cases x.negative <;> decide, .inl power⟩
  · obtain ⟨pos, le, _⟩ := shortestDigits_spec .toEven hx
    have fits : (shortestDigits .toEven x).coefficient < wordLimit := by
      have few : tenTo 17 < wordLimit := by decide
      omega
    simp only [write]
    split
    · rename_i positional
      have below := of_decide_eq_true (Bool.and_eq_true_iff.1 positional).2
      obtain ⟨json, small, negative⟩ := isJson_spread x.negative pos fits below
      exact ⟨json, rfl, small, .inl negative⟩
    · obtain ⟨json, coefficient, power⟩ := isJson_scientific x.negative
        (shortestDigits .toEven x).coefficient (shortestDigits .toEven x).power
      exact ⟨json, rfl, coefficient.trans_lt fits, .inr ⟨hx, coefficient, power⟩⟩

end Layout

/-! ## Reading back -/

namespace Double

variable {x : Double} {c e : Nat}

/-- A number that fits into 64 bits is in the range of doubles. -/
lemma small_of_lt_wordLimit (h : c < wordLimit) : c * grains < 1 * overflow :=
  calc c * grains < wordLimit * grains := Nat.mul_lt_mul_of_pos_right h (twoTo_pos 1074)
    _ < 1 * overflow := by decide +kernel

/-- Scaled down, nothing is lost. -/
lemma exists_scale?_of_neg {power : Int} (h : c < wordLimit) (hp : power < 0) :
    ∃ y, scale? c power = some y := by
  obtain ⟨y, hy, _⟩ := exists_units_ofRatio? Nat.one_pos rfl (small_of_lt_wordLimit h)
  rw [scale?, hy, Option.bind_some, if_neg (Int.not_le.2 hp)]
  exact ⟨_, rfl⟩

/-- The units of a double are its magnitude in grains. -/
lemma units_eq (x : Double) : (x.units : ℚ) = x.magnitude * grains := by
  have grains_pos : (0 : ℚ) < grains := by exact_mod_cast twoTo_pos 1074
  rw [magnitude, div_mul_cancel₀ _ grains_pos.ne']

/-- A product below the overflow has a nearest double. -/
lemma exists_mul? {y z : Double} (h : y.magnitude * z.magnitude * grains < overflow) :
    ∃ w, y.mul? z = some w := by
  have grains_pos : (0 : ℚ) < grains := by exact_mod_cast twoTo_pos 1074
  have small : y.units * z.units * grains < grains * grains * overflow := by
    have units : (y.units * z.units * grains : ℚ) =
        grains * grains * (y.magnitude * z.magnitude * grains) := by
      rw [units_eq, units_eq]
      ring
    have : (y.units * z.units * grains : ℚ) < grains * grains * overflow := by
      rw [units]
      exact mul_lt_mul_of_pos_left h (mul_pos grains_pos grains_pos)
    exact_mod_cast this
  have grid_pos : 0 < grains * grains := Nat.mul_pos (twoTo_pos _) (twoTo_pos _)
  obtain ⟨w, hw, _⟩ := exists_units_ofRatio? grid_pos rfl small
  exact ⟨w, hw⟩

/-- A power of ten that is not twice as great as a double has a double near it. -/
lemma exists_powerOfTen (h : (tenTo e : ℚ) ≤ 2 * x.magnitude) :
    e ≤ 308 ∧ (powerOfTen e).magnitude ≤ (1 + roundoff) * tenTo e := by
  have grains_pos : (0 : ℚ) < grains := by exact_mod_cast twoTo_pos 1074
  have le : e ≤ 308 := by
    have units : tenTo e * grains ≤ 2 * x.units := by
      have : (tenTo e * grains : ℚ) ≤ 2 * x.units := by
        rw [units_eq, ← mul_assoc]
        gcongr
      exact_mod_cast this
    have large : tenTo e * grains < tenTo 309 * grains :=
      calc tenTo e * grains ≤ 2 * x.units := units
        _ < 2 * twoTo 2098 := Nat.mul_lt_mul_of_pos_left x.units_lt (by decide)
        _ ≤ tenTo 309 * grains := by decide +kernel
    have := tenTo_lt_iff.1 (Nat.lt_of_mul_lt_mul_right large)
    omega
  refine ⟨le, ?_⟩
  have small : tenTo e * grains < 1 * overflow :=
    calc tenTo e * grains ≤ tenTo 308 * grains :=
          Nat.mul_le_mul_right _ (tenTo_le le)
      _ < 1 * overflow := by decide +kernel
  obtain ⟨z, hz, near⟩ := exists_ofRatio? Nat.one_pos (tenTo_pos e) small
  rw [powerOfTen, hz, Option.getD_some]
  simpa using near

/-- Rounding up three times does not lead to the overflow, but perhaps from the last three
doubles. -/
lemma lt_overflow_of_le {m : ℚ} (h : m ≤ (1 + roundoff) ^ 3 * x.magnitude)
    (room : x.units ≤ (twoTo 53 - 4) * twoTo 2045) : m * grains < overflow := by
  have half_pos : (0 : ℚ) < twoTo 2044 := by exact_mod_cast twoTo_pos 2044
  have room : (x.units : ℚ) ≤ (twoTo 53 - 4 : ℕ) * twoTo 2045 := by exact_mod_cast room
  have limit : (overflow : ℚ) = (twoTo 54 - 1 : ℕ) * twoTo 2044 := Nat.cast_mul _ _
  have step : (twoTo 2045 : ℚ) = twoTo 2044 * 2 := by exact_mod_cast twoTo_succ 2044
  have factors : (1 + roundoff) ^ 3 * ((twoTo 53 - 4 : ℕ) * 2) < (twoTo 54 - 1 : ℕ) := by
    norm_num [roundoff, twoTo]
  calc m * grains
      ≤ (1 + roundoff) ^ 3 * x.magnitude * grains :=
        mul_le_mul_of_nonneg_right h (Nat.cast_nonneg _)
    _ = (1 + roundoff) ^ 3 * x.units := by rw [mul_assoc, ← units_eq]
    _ ≤ (1 + roundoff) ^ 3 * ((twoTo 53 - 4 : ℕ) * twoTo 2045) :=
        mul_le_mul_of_nonneg_left room (by norm_num [roundoff])
    _ = (1 + roundoff) ^ 3 * ((twoTo 53 - 4 : ℕ) * 2) * twoTo 2044 := by
        rw [step]
        ring
    _ < (twoTo 54 - 1 : ℕ) * twoTo 2044 := mul_lt_mul_of_pos_right factors half_pos
    _ = overflow := limit.symm

/-- Digits near a double that is not one of the last three are read as some double, although they
are rounded, and so are their power of ten and the product of the two. -/
lemma exists_scale?_of_near (hc : 0 < c) (fits : c < wordLimit)
    (near : (c * 10 ^ e : ℚ) ≤ (1 + roundoff) * x.magnitude)
    (room : x.units ≤ (twoTo 53 - 4) * twoTo 2045) : ∃ y, scale? c e = some y := by
  have one : (1 : ℚ) ≤ c := by exact_mod_cast hc
  have power_pos : (0 : ℚ) < tenTo e := by exact_mod_cast tenTo_pos e
  have nonneg := x.magnitude_nonneg
  rw [← Neighbourhood.cast_tenTo] at near
  have double : (tenTo e : ℚ) ≤ 2 * x.magnitude :=
    calc (tenTo e : ℚ) ≤ c * tenTo e := le_mul_of_one_le_left power_pos.le one
      _ ≤ (1 + roundoff) * x.magnitude := near
      _ ≤ 2 * x.magnitude := by
        gcongr
        norm_num [roundoff]
  obtain ⟨le, hz⟩ := exists_powerOfTen double
  obtain ⟨y, hy, below⟩ := exists_ofRatio? Nat.one_pos hc (small_of_lt_wordLimit fits)
  have below : y.magnitude ≤ (1 + roundoff) * c := by simpa using below
  have product : y.magnitude * (powerOfTen e).magnitude ≤ (1 + roundoff) ^ 3 * x.magnitude :=
    calc y.magnitude * (powerOfTen e).magnitude
        ≤ ((1 + roundoff) * c) * ((1 + roundoff) * tenTo e) :=
          mul_le_mul below hz (magnitude_nonneg _) (y.magnitude_nonneg.trans below)
      _ = (1 + roundoff) ^ 2 * (c * tenTo e) := by ring
      _ ≤ (1 + roundoff) ^ 2 * ((1 + roundoff) * x.magnitude) := by
        gcongr
      _ = (1 + roundoff) ^ 3 * x.magnitude := by ring
  obtain ⟨w, hw⟩ := exists_mul? (lt_overflow_of_le product room)
  refine ⟨w, ?_⟩
  rw [scale?, hy, Option.bind_some, if_pos (Int.natCast_nonneg e), mulPowerOfTen?,
    Int.toNat_natCast, if_pos le, hw]

/-- A double that is half of one or more has all its bits. -/
lemma normal_of_le (h : 1 ≤ 2 * x.magnitude) : twoTo 52 ≤ x.significand := by
  have grains_pos : (0 : ℚ) < grains := by exact_mod_cast twoTo_pos 1074
  have units : grains ≤ 2 * x.units := by
    have : (grains : ℚ) ≤ 2 * x.units := by
      rw [units_eq, ← mul_assoc]
      exact le_mul_of_one_le_left grains_pos.le h
    exact_mod_cast this
  obtain scale | normal := x.canonical
  · have small : x.units < twoTo 53 := by
      rw [Double.units, scale, twoTo_zero, Nat.mul_one]
      exact x.significand_lt
    have large : 2 * twoTo 53 ≤ grains := by decide +kernel
    omega
  · exact normal

/-- One of the last three doubles, the greatest first. -/
def last (negative : Bool) (k : Fin 3) : Double :=
  ⟨negative, twoTo 53 - 1 - k, 2045, by revert k; decide, by decide, .inr (by revert k; decide)⟩

/-- The doubles beyond the fourth last one are the last three. -/
lemma eq_last (h : (twoTo 53 - 4) * twoTo 2045 < x.units) : ∃ k, x = last x.negative k := by
  obtain ⟨negative, significand, scale, small, hk, canonical⟩ := x
  have top : scale = 2045 := by
    by_contra below
    have lower : significand * twoTo scale ≤ twoTo 53 * twoTo 2044 :=
      Nat.mul_le_mul small.le (twoTo_le (by omega))
    have half : twoTo 53 * twoTo 2044 = twoTo 52 * twoTo 2045 := by
      rw [← twoTo_add, ← twoTo_add]
    have upper : twoTo 52 * twoTo 2045 ≤ (twoTo 53 - 4) * twoTo 2045 :=
      Nat.mul_le_mul_right _ (by decide)
    simp only [units] at h
    omega
  subst top
  have large : twoTo 53 - 4 < significand := Nat.lt_of_mul_lt_mul_right h
  refine ⟨⟨twoTo 53 - 1 - significand, by omega⟩, ?_⟩
  simp only [last, Double.mk.injEq, true_and, and_true]
  omega

/-- The last three doubles are read back. -/
lemma double?_write_last :
    ∀ negative k, ∃ y, Json.double? (Layout.data.write (last negative k)) = some y := by
  simp only [← Option.isSome_iff_exists]
  decide +kernel

/-- Every double is read as some double from what it is written as. -/
theorem exists_double?_write (x : Double) :
    ∃ y, Json.double? (Layout.data.write x) = some y := by
  by_cases room : x.units ≤ (twoTo 53 - 4) * twoTo 2045
  · obtain ⟨_, _, fits, place⟩ := Layout.isJson_write x
    rw [Json.double?_eq fits]
    suffices ∃ y, scale? (Layout.data.write x).coefficient (Layout.data.write x).power = some y by
      obtain ⟨y, hy⟩ := this
      exact ⟨_, by rw [hy, Option.map_some]⟩
    by_cases down : (Layout.data.write x).power < 0
    · exact exists_scale?_of_neg fits down
    · obtain ⟨hx, coefficient, power⟩ := place.resolve_left down
      obtain ⟨hc, _, double, near⟩ := shortestDigits_spec .toEven hx
      obtain ⟨e, he⟩ := Int.eq_ofNat_of_zero_le (Int.not_lt.1 down)
      rw [he] at power
      rw [Digits.magnitude, ← power, zpow_natCast] at double near
      rw [coefficient] at fits
      rw [coefficient, he]
      have normal : twoTo 52 ≤ x.significand := by
        apply normal_of_le
        refine le_trans ?_ double
        have one : (1 : ℚ) ≤ (shortestDigits .toEven x).coefficient := by exact_mod_cast hc
        exact one_le_mul_of_one_le_of_one_le one (one_le_pow₀ (by norm_num))
      exact exists_scale?_of_near hc fits (near normal) room
  · obtain ⟨k, hk⟩ := eq_last (Nat.lt_of_not_le room)
    rw [hk]
    exact double?_write_last _ _

/-- The double that is read from what a double is written as. -/
def reread (x : Double) : Double :=
  (Json.double? (Layout.data.write x)).getD x

/-- Every double is read back from what it is written as, though not always as itself. -/
theorem double?_write (x : Double) : Json.double? (Layout.data.write x) = some x.reread := by
  obtain ⟨y, hy⟩ := exists_double?_write x
  rw [reread, hy, Option.getD_some]

end Double

end Quill
