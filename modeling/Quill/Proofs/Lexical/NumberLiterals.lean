import Quill.Proofs.Lexical.Characters
import Quill.Proofs.Lexical.Tiling
import Quill.Proofs.Number.Magnitude

/-!
# Number literals in a source

What the scanner yields for a number literal is settled by the literal's magnitude
(`literals_read_by_magnitude`). A text that begins with a digit or a point has no other lexeme in
front than literals, so the longest literal is the longest lexeme, and it has a kind where the
magnitude has a nearest double. How many digits spell that magnitude does not matter.
-/

namespace Quill

/-- In front of the text stands a number literal behind trivia, and no longer one is there. -/
structure LiteralAhead (cs gap : List Char) (d : Decimal) (rest : List Char) : Prop where
  text : cs = gap ++ (d.spell ++ rest)
  trivia : Gap gap
  literal : d.IsLiteral
  length_le : ∀ d' : Decimal, d'.IsLiteral → d'.spell <+: d.spell ++ rest →
    d'.spell.length ≤ d.spell.length

/-- A lexeme that begins with a digit or a point is a number literal. -/
lemma Lexeme.exists_literal {c : Char} {cs : List Char} {k : Option Kind}
    (h : Lexeme (c :: cs) k) (hc : c.isDigit = true ∨ c = '.') :
    ∃ d : Decimal, d.IsLiteral ∧ d.spell = c :: cs := by
  have numeric : ¬ Symbolic c := fun symbolic => by
    obtain digit | point := hc
    · exact Bool.false_ne_true (symbolic.digit.symm.trans digit)
    · exact symbolic.point point
  generalize text : c :: cs = front at h
  cases h with
  | number hd => exact ⟨_, hd, rfl⟩
  | string _ =>
    obtain rfl := (List.cons.inj text).1
    exact absurd hc (by decide)
  | word start _ =>
    obtain rfl := (List.cons.inj text).1
    exact absurd (symbolic_of_isWordStart start) numeric
  | operator op =>
    obtain ⟨o, os, spell, symbolic, _⟩ := operator_head op
    obtain rfl := (List.cons.inj (text.trans spell)).1
    exact absurd symbolic numeric
  | mark m =>
    obtain ⟨o, spell, symbolic, _⟩ := mark_head m
    obtain rfl := (List.cons.inj (text.trans spell)).1
    exact absurd symbolic numeric

/-- Neither a blank nor a comment begins with a digit or a point. -/
lemma Decimal.IsLiteral.bare {d : Decimal} (h : d.IsLiteral) (rest : List Char) :
    Bare (d.spell ++ rest) := by
  obtain ⟨c, cs, spell, _⟩ := h.head
  have inner : Inner c := h.inner c (spell ▸ List.mem_cons_self)
  rw [spell]
  refine ⟨fun _ hc => ?_, fun comment => ?_⟩
  · cases hc
    exact inner.1.not_blank
  · exact inner.2 (List.cons_prefix_cons.1 comment).1.symm

namespace LiteralAhead

variable {cs gap rest : List Char} {d : Decimal}

/-- The longest literal is the longest lexeme. -/
lemma longest (h : LiteralAhead cs gap d rest) :
    Longest (d.spell ++ rest) d.spell ((Double.nearest? d.magnitude).map .number) where
  isPrefix := List.prefix_append _ _
  lexeme := Double.ofDecimal?_eq_nearest? h.literal ▸ .number h.literal
  length_le other k hp ho := by
    obtain ⟨c, ds, spell, first⟩ := h.literal.head
    obtain ⟨o, os, rfl⟩ := List.exists_cons_of_ne_nil ho.ne_nil
    have same : o = c := by
      rw [spell] at hp
      exact (List.cons_prefix_cons.1 hp).1
    obtain ⟨d', hd', spell'⟩ := ho.exists_literal (same ▸ first)
    exact spell' ▸ h.length_le d' hd' (spell' ▸ hp)

/-- A magnitude without a nearest double is reported at the first character, with all of the
literal. -/
lemma items_of_none (h : LiteralAhead cs gap d rest) (hd : Double.nearest? d.magnitude = none)
    (p : Position) :
    (Scanner.mk p (some cs)).items = [.error ⟨p.after gap, .invalidNumber (.ofList d.spell)⟩] := by
  have longest := h.longest
  rw [hd] at longest
  rw [h.text, Scanner.items_of_read
    (Scanner.read_fault h.trivia (h.literal.bare rest) (.invalidNumber longest) p),
    Scanner.items_finished]
  rfl

/-- A magnitude with a nearest double is a token of that double, and what is behind it is read. -/
lemma items_of_some (h : LiteralAhead cs gap d rest) {x : Double}
    (hx : Double.nearest? d.magnitude = some x) (p : Position) :
    (Scanner.mk p (some cs)).items = .ok ⟨.number x, .ofList d.spell, p.after gap⟩ ::
      (Scanner.mk ((p.after gap).after d.spell) (some rest)).items := by
  have longest := h.longest
  rw [hx] at longest
  rw [h.text, Scanner.items_of_read
    (Scanner.read_token h.trivia (h.literal.bare rest) longest p)]

/-- The token that a literal yields has the nearest double of its magnitude. -/
lemma nearest?_of_head (h : LiteralAhead cs gap d rest) {p : Position} {x : Double}
    (hx : (Scanner.mk p (some cs)).items.head? =
      some (.ok ⟨.number x, .ofList d.spell, p.after gap⟩)) :
    Double.nearest? d.magnitude = some x := by
  cases hd : Double.nearest? d.magnitude with
  | none =>
    rw [h.items_of_none hd] at hx
    cases hx
  | some y =>
    rw [h.items_of_some hd] at hx
    cases hx
    rfl

end LiteralAhead

/-- A literal that nothing follows stands in front by itself. -/
lemma literalAhead_append {gap : List Char} {d : Decimal} (hg : Gap gap) (hd : d.IsLiteral) :
    LiteralAhead (gap ++ d.spell) gap d [] where
  text := by rw [List.append_nil]
  trivia := hg
  literal := hd
  length_le _ _ hp := by
    rw [List.append_nil] at hp
    exact hp.length_le

/-- A number literal is rejected, as a whole and at its first character, exactly where its magnitude
is `2 ^ 1024 - 2 ^ 970` or more, however many digits it has. Otherwise it is a token of the double
nearest to that magnitude, an even one where two are as near. Two literals of one magnitude are the
same double, and the greater of two literals is not the smaller double. -/
theorem literals_read_by_magnitude {cs gap rest : List Char} {d : Decimal}
    (h : LiteralAhead cs gap d rest) (p : Position) :
    ((Scanner.mk p (some cs)).items = [.error ⟨p.after gap, .invalidNumber (.ofList d.spell)⟩] ↔
      2 ^ 1024 - 2 ^ 970 ≤ d.magnitude) ∧
    (d.magnitude < 2 ^ 1024 - 2 ^ 970 →
      ∃ x : Double, x.IsNearest d.magnitude ∧
        (Scanner.mk p (some cs)).items = .ok ⟨.number x, .ofList d.spell, p.after gap⟩ ::
          (Scanner.mk ((p.after gap).after d.spell) (some rest)).items) ∧
    ∀ (cs' gap' rest' : List Char) (d' : Decimal) (p' : Position) (x x' : Double),
      LiteralAhead cs' gap' d' rest' →
      (Scanner.mk p (some cs)).items.head? =
        some (.ok ⟨.number x, .ofList d.spell, p.after gap⟩) →
      (Scanner.mk p' (some cs')).items.head? =
        some (.ok ⟨.number x', .ofList d'.spell, p'.after gap'⟩) →
      (d.magnitude = d'.magnitude → x = x') ∧ (d.magnitude ≤ d'.magnitude → x.value ≤ x'.value) := by
  have nonneg := d.magnitude_nonneg
  refine ⟨?_, fun small => ?_, fun cs' gap' rest' d' p' x x' h' hx hx' => ?_⟩
  · rw [← Double.nearest?_eq_none_iff nonneg]
    constructor
    · intro rejected
      by_contra some_near
      obtain ⟨x, hx⟩ := Option.ne_none_iff_exists'.1 some_near
      rw [h.items_of_some hx] at rejected
      cases rejected
    · exact fun hd => h.items_of_none hd p
  · have some_near : Double.nearest? d.magnitude ≠ none := fun hd =>
      absurd ((Double.nearest?_eq_none_iff nonneg).1 hd) (not_le.2 small)
    obtain ⟨x, hx⟩ := Option.ne_none_iff_exists'.1 some_near
    exact ⟨x, Double.isNearest_of_nearest? nonneg hx, h.items_of_some hx p⟩
  · have hx := h.nearest?_of_head hx
    have hx' := h'.nearest?_of_head hx'
    refine ⟨fun same => ?_, fun le => Double.value_le_of_nearest? nonneg le hx hx'⟩
    rw [same] at hx
    exact Option.some.inj (hx.symm.trans hx')

/-- The least power of ten that is too great: `1e309`. -/
def greatLiteral : Decimal :=
  ⟨false, ['1'], none, some ⟨'e', none, "309".toList⟩⟩

/-- The literal that is too great is well-formed. -/
lemma isLiteral_greatLiteral : greatLiteral.IsLiteral where
  unsigned := rfl
  whole := areDigits_digitsOf 1
  fraction := nofun
  ne_nil := .inl (by decide)
  exponent := by
    rintro _ ⟨⟩
    exact ⟨.inl rfl, .inl rfl, areDigits_digitsOf 309, by decide⟩

/-- The magnitude of the literal that is too great. -/
lemma magnitude_greatLiteral : greatLiteral.magnitude = 10 ^ 309 := by
  have coefficient : greatLiteral.coefficient = 1 := by decide
  have power : greatLiteral.power = (309 : Nat) := by decide
  rw [Decimal.magnitude, coefficient, power, zpow_natCast, Nat.cast_one, one_mul]

/-- It is rejected where it stands, behind a blank. -/
theorem greatLiteral_rejected :
    LiteralAhead " 1e309".toList [' '] greatLiteral [] ∧
      (Scanner.mk .start (some " 1e309".toList)).items =
        [.error ⟨⟨1, 1, 2⟩, .invalidNumber "1e309"⟩] := by
  have ahead : LiteralAhead " 1e309".toList [' '] greatLiteral [] :=
    literalAhead_append (.blank rfl .nil) isLiteral_greatLiteral
  refine ⟨ahead, (literals_read_by_magnitude ahead .start).1.2 ?_⟩
  have less : (twoTo 1024 : ℚ) ≤ tenTo 309 := by
    exact_mod_cast (by decide +kernel : twoTo 1024 ≤ tenTo 309)
  rw [Double.cast_twoTo, Neighbourhood.cast_tenTo] at less
  rw [magnitude_greatLiteral]
  exact (sub_le_self _ (by positivity)).trans less

end Quill
