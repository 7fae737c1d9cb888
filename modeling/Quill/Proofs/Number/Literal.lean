import Mathlib.Data.List.Induction
import Quill.Number.Double
import Quill.Proofs.Lexical.Numeral

/-!
# A literal for every double

Every finite double that has no sign is written by some number literal (`exists_literal_iff`). Since
`2 ^ -1074` is `5 ^ 1074` times `10 ^ -1074`, the magnitude of a double is a natural number of units
of the last decimal place, so the literal is exact and has no digit behind a point. Reading it
rounds a quotient that is a double already (`ofRatio?_eq_some`), and the short way out for numbers
far outside the range is not taken, since the magnitude tells the place of the first digit.
-/

namespace Quill

/-! ## Runs of digits -/

/-- The value of digits behind others is added to the value of those, shifted by their number. -/
lemma digitsValue_append (cs ds : List Char) :
    digitsValue (cs ++ ds) = digitsValue cs * tenTo ds.length + digitsValue ds := by
  induction ds using List.reverseRecOn with
  | nil => simp [digitsValue]
  | append_singleton ds d ih =>
    have last (cs : List Char) :
        digitsValue (cs ++ [d]) = 10 * digitsValue cs + (d.toNat - '0'.toNat) := by
      simp [digitsValue]
    rw [← List.append_assoc, last, last, ih, List.length_append, List.length_singleton, tenTo_succ]
    grind

/-- The value of digits by the first of them. -/
lemma digitsValue_cons (d : Char) (ds : List Char) :
    digitsValue (d :: ds) = (d.toNat - '0'.toNat) * tenTo ds.length + digitsValue ds := by
  rw [← List.singleton_append, digitsValue_append]
  simp [digitsValue]

/-- The value of digits is below the power of ten with as many zeros. -/
lemma AreDigits.value_lt {ds : List Char} (h : AreDigits ds) :
    digitsValue ds < tenTo ds.length := by
  induction ds with
  | nil => decide
  | cons d ds ih =>
    obtain ⟨hd, hds⟩ := List.forall_mem_cons.1 h
    have bounds := digit_bounds hd
    have digit : d.toNat - '0'.toNat ≤ 9 := by
      change d.toNat - 48 ≤ 9
      omega
    have := Nat.mul_le_mul_right (tenTo ds.length) digit
    have := ih hds
    rw [digitsValue_cons, List.length_cons, tenTo_succ]
    omega

/-- Leading zeros do not count. -/
lemma digitsValue_dropWhile (ds : List Char) :
    digitsValue (ds.dropWhile (· = '0')) = digitsValue ds := by
  induction ds with
  | nil => rfl
  | cons d ds ih =>
    by_cases hd : d = '0'
    · rw [List.dropWhile_cons_of_pos (by simpa using hd), ih, digitsValue_cons, hd]
      simp
    · rw [List.dropWhile_cons_of_neg (by simpa using hd)]

/-- A run of digits is at least as great as its first digit that is not zero. -/
lemma AreDigits.le_value {ds : List Char} (h : AreDigits ds) (hv : digitsValue ds ≠ 0) :
    tenTo (ds.dropWhile (· = '0')).length ≤ 10 * digitsValue ds := by
  induction ds with
  | nil => exact absurd rfl hv
  | cons d ds ih =>
    obtain ⟨hd, hds⟩ := List.forall_mem_cons.1 h
    by_cases zero : d = '0'
    · subst zero
      have same : digitsValue ('0' :: ds) = digitsValue ds := by simp [digitsValue_cons]
      rw [List.dropWhile_cons_of_pos (by decide)]
      rw [same] at hv ⊢
      exact ih hds hv
    · have bounds := digit_bounds hd
      have digit : 1 ≤ d.toNat - '0'.toNat := by
        have : d.toNat ≠ 48 := fun same => zero (Char.toNat_inj.1 same)
        change 1 ≤ d.toNat - 48
        omega
      have := Nat.mul_le_mul_right (tenTo ds.length) digit
      rw [List.dropWhile_cons_of_neg (by simpa using zero), digitsValue_cons, List.length_cons,
        tenTo_succ]
      omega

/-- The digits of a number are digits. -/
lemma areDigits_digitsOf (n : Nat) : AreDigits (digitsOf n) :=
  fun _ => Nat.isDigit_of_mem_toDigits (by decide) (by decide)

/-- The value of the digits of a number is that number. -/
lemma digitsValue_digitsOf (n : Nat) : digitsValue (digitsOf n) = n := by
  rw [digitsValue, digitsOf, ← Nat.ofDigitChars_eq_foldl, Nat.ofDigitChars_ten_toDigits]

namespace Decimal

/-- Every digit of a literal is a digit. -/
lemma IsLiteral.areDigits {d : Decimal} (h : d.IsLiteral) : AreDigits d.digits := by
  refine List.forall_mem_append.2 ⟨h.whole, ?_⟩
  cases hf : d.fraction with
  | none => exact areDigits_nil
  | some ds => exact h.fraction ds hf

/-- The significant digits bound the coefficient. -/
lemma IsLiteral.coefficient_lt {d : Decimal} (h : d.IsLiteral) :
    d.coefficient < tenTo d.significantDigits := by
  have dropped : AreDigits (d.digits.dropWhile (· = '0')) :=
    fun c hc => h.areDigits c ((List.dropWhile_sublist _).mem hc)
  have := dropped.value_lt
  rwa [digitsValue_dropWhile] at this

/-- The coefficient needs all of the significant digits. -/
lemma IsLiteral.le_coefficient {d : Decimal} (h : d.IsLiteral) (hc : d.coefficient ≠ 0) :
    tenTo d.significantDigits ≤ 10 * d.coefficient :=
  h.areDigits.le_value hc

end Decimal

/-! ## Rounding what is exact -/

/-- An exact quotient is not rounded. -/
lemma roundHalfEven_mul (q : Nat) {den : Nat} (h : 0 < den) : roundHalfEven (q * den) den = q := by
  have quotient : q * den / den = q := Nat.mul_div_cancel q h
  have remainder : q * den % den = 0 := Nat.mul_mod_left q den
  simp [roundHalfEven, quotient, remainder, h]

/-- Every factor of two adds one bit. -/
lemma log2_mul_twoTo {m : Nat} (h : m ≠ 0) (s : Nat) : (m * twoTo s).log2 = m.log2 + s := by
  obtain ⟨low, high⟩ := (Nat.log2_eq_iff h).1 rfl
  rw [Nat.log2_eq_iff (Nat.mul_ne_zero h (twoTo_pos s).ne')]
  constructor
  · rw [Nat.pow_add]
    exact Nat.mul_le_mul_right _ low
  · rw [Nat.add_right_comm, Nat.pow_add]
    exact Nat.mul_lt_mul_of_pos_right high (twoTo_pos s)

namespace Double

/-- The scale of a double is told by its magnitude. -/
lemma log2_units (x : Double) : x.units.log2 - 52 = x.scale := by
  by_cases zero : x.significand = 0
  · obtain scale | low := x.canonical
    · rw [units, zero, scale]
      rfl
    · exact absurd (zero ▸ low) (by decide)
  · have high : x.significand.log2 < 53 := (Nat.log2_lt zero).2 x.significand_lt
    have low : x.scale = 0 ∨ 52 ≤ x.significand.log2 := x.canonical.imp_right (Nat.le_log2 zero).2
    rw [units, log2_mul_twoTo zero]
    omega

/-- A quotient that is a double already is that double. -/
lemma ofRatio?_eq_some {x : Double} {num den : Nat} (unsigned : x.negative = false) (hd : 0 < den)
    (exact : num * grains = x.units * den) : ofRatio? num den = some x := by
  have quotient : x.units * den / den = x.units := Nat.mul_div_cancel _ hd
  have rounded : roundHalfEven (x.units * den) (den * twoTo x.scale) = x.significand := by
    have split : x.units * den = x.significand * (den * twoTo x.scale) := by
      rw [units]
      grind
    rw [split, roundHalfEven_mul _ (Nat.mul_pos hd (twoTo_pos _))]
  simp only [ofRatio?, exact, quotient, log2_units, rounded]
  rw [if_neg x.significand_lt.ne, ofParts?, dif_pos ⟨x.significand_lt, x.scale_le, x.canonical⟩,
    ← unsigned]

/-- A double with the sign that it has is itself. -/
lemma withSign_self {x : Double} {negative : Bool} (h : x.negative = negative) :
    x.withSign negative = x := by
  rw [withSign, ← h]

/-- There is one zero of each sign. -/
lemma eq_zero_of_units {x : Double} (h : x.units = 0) : x = zero x.negative := by
  obtain ⟨negative, significand, scale, _, _, canonical⟩ := x
  obtain rfl : significand = 0 := (Nat.mul_eq_zero.1 h).resolve_right (twoTo_pos scale).ne'
  obtain rfl : scale = 0 := canonical.resolve_right (by decide)
  rfl

/-- The units of a double are below the power of two for all of its places. -/
lemma units_lt (x : Double) : x.units < twoTo 2098 :=
  calc x.units < twoTo 53 * twoTo x.scale :=
        Nat.mul_lt_mul_of_pos_right x.significand_lt (twoTo_pos _)
    _ ≤ twoTo 53 * twoTo 2045 := Nat.mul_le_mul_left _ (twoTo_le x.scale_le)
    _ = twoTo 2098 := (twoTo_add 53 2045).symm

/-! ## The literal -/

/-- How many units of the last decimal place there are in a grain. -/
def lastPlaces : Nat := Nat.pow 5 1074

/-- The exponent of the last decimal place of a grain. -/
def lastExponent : Exponent := ⟨'e', some '-', digitsOf 1074⟩

/-- A literal that writes the double out to the last decimal place of a grain. -/
def literal (x : Double) : Decimal :=
  ⟨false, digitsOf (x.units * lastPlaces), none, some lastExponent⟩

/-- There is a unit of the last decimal place in a grain. -/
lemma lastPlaces_pos : 0 < lastPlaces := by
  decide +kernel

/-- The last decimal places of a grain make up its decimal digits. -/
lemma lastPlaces_mul_grains : lastPlaces * grains = tenTo 1074 := by
  decide +kernel

/-- The literal of a double is well-formed. -/
lemma isLiteral_literal (x : Double) : x.literal.IsLiteral where
  unsigned := rfl
  whole := areDigits_digitsOf _
  fraction := nofun
  ne_nil := .inl Nat.toDigits_ne_nil
  exponent := by
    rintro _ ⟨⟩
    exact ⟨.inl rfl, .inr (.inr rfl), areDigits_digitsOf 1074, nofun⟩

/-- The coefficient of the literal of a double counts its last decimal places. -/
lemma coefficient_literal (x : Double) : x.literal.coefficient = x.units * lastPlaces := by
  rw [Decimal.coefficient, Decimal.digits, literal, Option.getD_none, List.append_nil,
    digitsValue_digitsOf]

/-- The literal of a double ends at the last decimal place of a grain. -/
lemma power_literal (x : Double) : x.literal.power = -1074 := rfl

/-- The literal of a double as a quotient. -/
lemma ratio_literal (x : Double) : x.literal.ratio = (x.units * lastPlaces, tenTo 1074) := by
  have places : (-x.literal.power).toNat = 1074 := rfl
  rw [Decimal.ratio, if_neg (by rw [power_literal]; decide), coefficient_literal, places]

/-- The first digit of the literal stands where the literal is read as a quotient. -/
lemma place_literal {x : Double} (h : x.literal.coefficient ≠ 0) :
    -330 ≤ x.literal.power + x.literal.significantDigits ∧
      x.literal.power + x.literal.significantDigits ≤ 310 := by
  have units_pos : 1 ≤ x.units := by
    apply Nat.pos_of_ne_zero
    rintro zero
    rw [coefficient_literal, zero, Nat.zero_mul] at h
    exact h rfl
  have lower : tenTo 743 < tenTo x.literal.significantDigits :=
    calc tenTo 743 ≤ 1 * lastPlaces := by decide +kernel
      _ ≤ x.units * lastPlaces := Nat.mul_le_mul_right _ units_pos
      _ = x.literal.coefficient := x.coefficient_literal.symm
      _ < tenTo x.literal.significantDigits := x.isLiteral_literal.coefficient_lt
  have upper : tenTo x.literal.significantDigits < tenTo 1385 :=
    calc tenTo x.literal.significantDigits ≤ 10 * x.literal.coefficient :=
          x.isLiteral_literal.le_coefficient h
      _ = 10 * (x.units * lastPlaces) := by rw [coefficient_literal]
      _ ≤ 10 * (twoTo 2098 * lastPlaces) :=
        Nat.mul_le_mul_left _ (Nat.mul_le_mul_right _ x.units_lt.le)
      _ < tenTo 1385 := by decide +kernel
  have low := tenTo_lt_iff.1 lower
  have high := tenTo_lt_iff.1 upper
  rw [power_literal]
  omega

/-- The literal of a double is read as that double. -/
theorem ofDecimal?_literal {x : Double} (unsigned : x.negative = false) :
    ofDecimal? x.literal = some x := by
  simp only [ofDecimal?]
  by_cases h : x.literal.coefficient = 0
  · have zero : x.units = 0 := by
      rw [coefficient_literal] at h
      exact (Nat.mul_eq_zero.1 h).resolve_right lastPlaces_pos.ne'
    rw [if_pos (.inl h), ← unsigned, ← eq_zero_of_units zero, Option.map_some]
    exact congrArg some (withSign_self unsigned)
  · obtain ⟨low, high⟩ := place_literal h
    have exact : x.units * lastPlaces * grains = x.units * tenTo 1074 := by
      rw [Nat.mul_assoc, lastPlaces_mul_grains]
    rw [if_neg (by omega), if_neg (by omega), ratio_literal,
      ofRatio?_eq_some unsigned (tenTo_pos _) exact, Option.map_some]
    exact congrArg some (withSign_self unsigned)

/-- A literal is read as a double without a sign. -/
lemma unsigned_of_ofDecimal? {d : Decimal} (h : d.IsLiteral) {x : Double}
    (hx : ofDecimal? d = some x) : x.negative = false := by
  obtain ⟨_, _, rfl⟩ := Option.map_eq_some_iff.1 hx
  exact h.unsigned

/-- The doubles that literals are read as are those without a sign. -/
theorem exists_literal_iff (x : Double) :
    (∃ d : Decimal, d.IsLiteral ∧ ofDecimal? d = some x) ↔ x.negative = false := by
  constructor
  · rintro ⟨d, hd, hx⟩
    exact unsigned_of_ofDecimal? hd hx
  · intro unsigned
    exact ⟨x.literal, x.isLiteral_literal, ofDecimal?_literal unsigned⟩

end Double

end Quill
