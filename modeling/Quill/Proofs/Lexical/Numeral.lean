import Mathlib.Data.List.TakeWhile
import Mathlib.Tactic.Common
import Quill.Token.Numeral

/-!
# Number literals

Which texts are number literals, and that the reader takes the longest of those in front of a text
(`scanNumeral?_append`). A literal is kept by its parts, and the parts can be told from the text
alone (`spell_injective`), so a literal has one value.
-/

namespace Quill

/-- Every character is a decimal digit. -/
def AreDigits (cs : List Char) : Prop :=
  ∀ c ∈ cs, c.isDigit = true

/-- An `e` of either case, a sign if there is one, and at least one digit. -/
structure Exponent.IsLiteral (e : Exponent) : Prop where
  mark : e.mark = 'e' ∨ e.mark = 'E'
  sign : e.sign = none ∨ e.sign = some '+' ∨ e.sign = some '-'
  digits : AreDigits e.digits
  ne_nil : e.digits ≠ []

/-- Digits, with a point and digits behind it or without, and an exponent or none. There is a digit
in front of the point or behind it, and no sign. -/
structure Decimal.IsLiteral (d : Decimal) : Prop where
  unsigned : d.negative = false
  whole : AreDigits d.whole
  fraction : ∀ ds ∈ d.fraction, AreDigits ds
  ne_nil : d.whole ≠ [] ∨ d.fraction.getD [] ≠ []
  exponent : ∀ e ∈ d.exponent, e.IsLiteral

/-- The code points of the digits lie between 48 and 57. -/
lemma digit_bounds {c : Char} (h : c.isDigit = true) : 48 ≤ c.toNat ∧ c.toNat ≤ 57 := by
  obtain ⟨low, high⟩ := Bool.and_eq_true_iff.1 h
  exact ⟨of_decide_eq_true low, of_decide_eq_true high⟩

/-- No digits are digits. -/
lemma areDigits_nil : AreDigits [] := nofun

/-- The digits at the front of a text are digits. -/
lemma areDigits_takeWhile (cs : List Char) : AreDigits (cs.takeWhile Char.isDigit) :=
  fun _ => List.mem_takeWhile_imp

/-- Digits in front of a text are taken with those it goes on with. -/
lemma takeDigits_append {ds : List Char} (h : AreDigits ds) (cs : List Char) :
    Cut.takeWhile Char.isDigit (ds ++ cs) =
      ⟨ds ++ cs.takeWhile Char.isDigit, cs.dropWhile Char.isDigit⟩ := by
  rw [Cut.takeWhile, List.takeWhile_append_of_pos h, List.dropWhile_append_of_pos h]

/-- Digits in front of another character are taken by themselves. -/
lemma takeDigits_before {ds : List Char} (h : AreDigits ds) {c : Char} (hc : c.isDigit = false)
    (cs : List Char) : Cut.takeWhile Char.isDigit (ds ++ c :: cs) = ⟨ds, c :: cs⟩ := by
  rw [takeDigits_append h, List.takeWhile_cons_of_neg (by simp [hc]),
    List.dropWhile_cons_of_neg (by simp [hc]), List.append_nil]

/-- The mark of an exponent is neither a digit nor a point. -/
lemma not_isDigit_of_mark {c : Char} (h : c = 'e' ∨ c = 'E') : c.isDigit = false ∧ c ≠ '.' := by
  obtain rfl | rfl := h <;> decide

/-! ## What is read is a literal -/

/-- A sign is plus or minus, or there is none. -/
lemma scanSign_eq (cs : List Char) :
    (scanSign cs).1 = none ∨ (scanSign cs).1 = some '+' ∨ (scanSign cs).1 = some '-' := by
  unfold scanSign
  split
  · exact .inr (.inl rfl)
  · exact .inr (.inr rfl)
  · exact .inl rfl

/-- An exponent that is scanned is well-formed. -/
lemma isLiteral_of_scanExponent {cs : List Char} :
    ∀ e ∈ (scanExponent cs).1, e.IsLiteral := by
  unfold scanExponent
  split
  · rename_i mark rest
    dsimp only
    split
    · rename_i h
      rintro e ⟨⟩
      exact ⟨h.1, scanSign_eq rest, areDigits_takeWhile _, h.2⟩
    · nofun
  · nofun

/-- The digits of a fraction that is scanned are digits. -/
lemma areDigits_of_scanFraction {cs : List Char} : ∀ ds ∈ (scanFraction cs).1, AreDigits ds := by
  unfold scanFraction
  split
  · rintro ds ⟨⟩
    exact areDigits_takeWhile _
  · nofun

/-- A number that is scanned is well-formed. -/
lemma isLiteral_of_scanNumeral? {cs rest : List Char} {d : Decimal}
    (h : scanNumeral? cs = some (d, rest)) : d.IsLiteral := by
  unfold scanNumeral? at h
  dsimp only at h
  split at h
  · cases h
  · rename_i ne
    cases h
    exact ⟨rfl, areDigits_takeWhile _, areDigits_of_scanFraction, by simpa [imp_iff_not_or] using ne,
      isLiteral_of_scanExponent⟩

/-! ## What is a literal is read -/

/-- Behind a sign, or where none has to be, the digits of an exponent follow. -/
lemma scanSign_append {sign : Option Char} {ds cs : List Char}
    (hs : sign = none ∨ sign = some '+' ∨ sign = some '-') (hd : AreDigits ds) (ne : ds ≠ []) :
    scanSign (sign.toList ++ (ds ++ cs)) = (sign, ds ++ cs) := by
  obtain rfl | rfl | rfl := hs
  · obtain ⟨d, ds, rfl⟩ := List.exists_cons_of_ne_nil ne
    have hd : d.isDigit = true := hd d List.mem_cons_self
    unfold scanSign
    split
    · rename_i h
      cases h
      cases hd
    · rename_i h
      cases h
      cases hd
    · rfl
  · rfl
  · rfl

/-- An exponent in front of a text is taken, with the digits the text goes on with. -/
lemma scanExponent_append {e : Exponent} (h : e.IsLiteral) (cs : List Char) :
    scanExponent (e.spell ++ cs) =
      (some ⟨e.mark, e.sign, e.digits ++ cs.takeWhile Char.isDigit⟩,
        cs.dropWhile Char.isDigit) := by
  rw [Exponent.spell, List.cons_append, List.append_assoc, scanExponent,
    scanSign_append h.sign h.digits h.ne_nil, takeDigits_append h.digits]
  exact if_pos ⟨h.mark, by simp [h.ne_nil]⟩

/-- A text that does not begin with a point begins with no fraction. -/
lemma scanFraction_cons {c : Char} (h : c ≠ '.') (cs : List Char) :
    scanFraction (c :: cs) = (none, c :: cs) := by
  unfold scanFraction
  split
  · rename_i hc
    exact absurd (List.cons.inj hc).1 h
  · rfl

/-- What stands behind an exponent is no longer than the text. -/
lemma length_scanExponent_le (cs : List Char) : (scanExponent cs).2.length ≤ cs.length := by
  have := congrArg List.length (scanExponent_spell cs)
  rw [List.length_append] at this
  omega

/-- What stands behind a fraction is no longer than the text. -/
lemma length_scanFraction_le (cs : List Char) : (scanFraction cs).2.length ≤ cs.length := by
  have := congrArg List.length (scanFraction_spell cs)
  rw [List.length_append] at this
  omega

/-- The reading of a text whose digits and fraction are known. -/
lemma scanNumeral?_eq {cs : List Char} {whole : Cut} {fraction : Option (List Char) × List Char}
    (hw : Cut.takeWhile Char.isDigit cs = whole) (hf : scanFraction whole.rest = fraction)
    (ne : whole.taken ≠ [] ∨ fraction.1.getD [] ≠ []) :
    scanNumeral? cs = some (⟨false, whole.taken, fraction.1, (scanExponent fraction.2).1⟩,
      (scanExponent fraction.2).2) := by
  subst hw hf
  rw [scanNumeral?]
  exact if_neg (by simpa [imp_iff_not_or] using ne)

/-- The reader takes at least the literal that stands in front of a text, and nothing else when
nothing is behind it. -/
theorem scanNumeral?_append {d : Decimal} (h : d.IsLiteral) (rest : List Char) :
    ∃ d' rest', scanNumeral? (d.spell ++ rest) = some (d', rest') ∧
      rest'.length ≤ rest.length ∧ (rest = [] → d' = d) := by
  obtain ⟨_, whole, fraction, exponent⟩ := d
  obtain ⟨rfl, hw, hf, ne, he⟩ := h
  dsimp only at hw hf ne he
  have drop_le : (rest.dropWhile Char.isDigit).length ≤ rest.length :=
    List.length_dropWhile_le _ _
  -- Digits may go on behind whichever part the literal ends with, and behind no other.
  match fraction, exponent with
  | some ds, some e =>
    have he := he e rfl
    have hm := not_isDigit_of_mark he.mark
    have spell : Decimal.spell ⟨false, whole, some ds, some e⟩ ++ rest =
        whole ++ '.' :: (ds ++ (e.spell ++ rest)) := by simp [Decimal.spell]
    have hwhole := takeDigits_before hw (c := '.') rfl (ds ++ (e.spell ++ rest))
    have hfraction : scanFraction ('.' :: (ds ++ (e.spell ++ rest))) =
        (some ds, e.spell ++ rest) := by
      rw [scanFraction, Exponent.spell, List.cons_append, takeDigits_before (hf ds rfl) hm.1]
    rw [spell, scanNumeral?_eq hwhole hfraction ne, scanExponent_append he]
    exact ⟨_, _, rfl, drop_le, by rintro rfl; simp⟩
  | some ds, none =>
    have spell : Decimal.spell ⟨false, whole, some ds, none⟩ ++ rest =
        whole ++ '.' :: (ds ++ rest) := by simp [Decimal.spell]
    have hwhole := takeDigits_before hw (c := '.') rfl (ds ++ rest)
    have hfraction : scanFraction ('.' :: (ds ++ rest)) =
        (some (ds ++ rest.takeWhile Char.isDigit), rest.dropWhile Char.isDigit) := by
      rw [scanFraction, takeDigits_append (hf ds rfl)]
    have ne' : whole ≠ [] ∨ ds ++ rest.takeWhile Char.isDigit ≠ [] :=
      ne.imp_right (List.append_ne_nil_of_left_ne_nil · _)
    rw [spell, scanNumeral?_eq hwhole hfraction ne']
    exact ⟨_, _, rfl, (length_scanExponent_le _).trans drop_le, by rintro rfl; simp [scanExponent]⟩
  | none, some e =>
    have he := he e rfl
    have hm := not_isDigit_of_mark he.mark
    have spell : Decimal.spell ⟨false, whole, none, some e⟩ ++ rest =
        whole ++ (e.spell ++ rest) := by simp [Decimal.spell]
    have hwhole : Cut.takeWhile Char.isDigit (whole ++ (e.spell ++ rest)) =
        ⟨whole, e.spell ++ rest⟩ := takeDigits_before hw hm.1 _
    have hfraction : scanFraction (e.spell ++ rest) = (none, e.spell ++ rest) :=
      scanFraction_cons hm.2 _
    rw [spell, scanNumeral?_eq hwhole hfraction ne, scanExponent_append he]
    exact ⟨_, _, rfl, drop_le, by rintro rfl; simp⟩
  | none, none =>
    have spell : Decimal.spell ⟨false, whole, none, none⟩ ++ rest = whole ++ rest := by
      simp [Decimal.spell]
    rw [spell, scanNumeral?_eq (takeDigits_append hw rest) rfl (by simp_all)]
    refine ⟨_, _, rfl, ?_, by rintro rfl; simp [scanFraction, scanExponent]⟩
    exact (length_scanExponent_le _).trans ((length_scanFraction_le _).trans drop_le)

/-- A number is scanned from its own spelling, up to the end. -/
lemma scanNumeral?_spell {d : Decimal} (h : d.IsLiteral) : scanNumeral? d.spell = some (d, []) := by
  obtain ⟨d', rest', hs, hr, hd⟩ := scanNumeral?_append h []
  rw [List.append_nil] at hs
  obtain rfl := hd rfl
  obtain rfl := List.length_eq_zero_iff.1 (Nat.le_zero.1 hr)
  exact hs

/-- The text of a literal tells its parts. -/
lemma spell_injective {d d' : Decimal} (h : d.IsLiteral) (h' : d'.IsLiteral)
    (spell : d.spell = d'.spell) : d = d' := by
  have hs := scanNumeral?_spell h
  rw [spell, scanNumeral?_spell h'] at hs
  cases hs
  rfl

/-- A number begins with a digit or with a point. -/
lemma Decimal.IsLiteral.head {d : Decimal} (h : d.IsLiteral) :
    ∃ c cs, d.spell = c :: cs ∧ (c.isDigit = true ∨ c = '.') := by
  obtain ⟨_, whole, fraction, exponent⟩ := d
  obtain ⟨rfl, hw, _, ne, _⟩ := h
  match whole, fraction with
  | c :: cs, _ => exact ⟨c, _, rfl, .inl (hw c List.mem_cons_self)⟩
  | [], some ds => exact ⟨'.', _, rfl, .inr rfl⟩
  | [], none => simp at ne

/-- A text that begins with neither a digit nor a point begins with no literal. -/
lemma scanNumeral?_eq_none {c : Char} {cs : List Char} (hd : c.isDigit = false) (hp : c ≠ '.') :
    scanNumeral? (c :: cs) = none := by
  have hw : Cut.takeWhile Char.isDigit (c :: cs) = ⟨[], c :: cs⟩ :=
    takeDigits_before areDigits_nil hd cs
  rw [scanNumeral?, hw, scanFraction_cons hp]
  exact if_pos ⟨rfl, rfl⟩

end Quill
