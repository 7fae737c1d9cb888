import Quill.Json.Piece
import Quill.Proofs.Lexical.Numeral

/-!
# Numbers in JSON text

Which decimals are spelled as JSON has its numbers (`Decimal.IsJson`). Such a number is read back in
front of everything that it cannot go on with (`readNumber?_spell`).
-/

namespace Quill

/-- A number as JSON spells it: a digit on each side of a point, and no needless leading zero. -/
structure Decimal.IsJson (d : Decimal) : Prop where
  whole : AreDigits d.whole
  ne_nil : d.whole ≠ []
  leading : d.whole.head? = some '0' → d.whole.length = 1
  fraction : ∀ ds ∈ d.fraction, AreDigits ds ∧ ds ≠ []
  exponent : ∀ e ∈ d.exponent, e.IsLiteral

namespace Json

/-- No number goes on with this text. -/
def EndsNumber (cs : List Char) : Prop :=
  ∀ c ∈ cs.head?, c.isDigit = false ∧ c ≠ '.' ∧ c ≠ 'e' ∧ c ≠ 'E'

variable {rest : List Char}

/-- Digits in front of a text that does not begin with one are taken by themselves. -/
lemma takeDigits_of_head {ds : List Char} (h : AreDigits ds)
    (hr : ∀ c ∈ rest.head?, c.isDigit = false) :
    Cut.takeWhile Char.isDigit (ds ++ rest) = ⟨ds, rest⟩ := by
  cases rest with
  | nil =>
    rw [takeDigits_append h]
    simp
  | cons c cs => exact takeDigits_before h (hr c rfl) cs

/-- An exponent is read off the front of a text that does not go on with it. -/
lemma scanExponent_spell_append {exponent : Option Exponent} (h : ∀ e ∈ exponent, e.IsLiteral)
    (hr : EndsNumber rest) :
    scanExponent (exponent.elim [] Exponent.spell ++ rest) = (exponent, rest) := by
  cases exponent with
  | none =>
    cases rest with
    | nil => rfl
    | cons c cs =>
      obtain ⟨_, _, small, capital⟩ := hr c rfl
      exact if_neg fun taken => taken.1.elim small capital
  | some e =>
    have digits := takeDigits_of_head areDigits_nil fun c hc => (hr c hc).1
    obtain ⟨taken, left⟩ := Cut.mk.inj digits
    rw [List.nil_append] at taken left
    rw [Option.elim_some, scanExponent_append (h e rfl), taken, left, List.append_nil]

/-- A fraction is read off the front of a text that does not go on with it. -/
lemma scanFraction_spell_append {fraction : Option (List Char)}
    (h : ∀ ds ∈ fraction, AreDigits ds)
    (hr : ∀ c ∈ rest.head?, c.isDigit = false ∧ c ≠ '.') :
    scanFraction (fraction.elim [] ('.' :: ·) ++ rest) = (fraction, rest) := by
  cases fraction with
  | none =>
    cases rest with
    | nil => rfl
    | cons c cs => exact scanFraction_cons (hr c rfl).2 cs
  | some ds =>
    rw [Option.elim_some, List.cons_append, scanFraction,
      takeDigits_of_head (h ds rfl) fun c hc => (hr c hc).1]

/-- The sign, the digits, the fraction and the exponent, one behind the other. -/
lemma spell_eq (d : Decimal) :
    d.spell = (if d.negative then ['-'] else []) ++ (d.whole ++
      (d.fraction.elim [] ('.' :: ·) ++ d.exponent.elim [] Exponent.spell)) := by
  obtain ⟨negative, whole, fraction, exponent⟩ := d
  cases fraction <;> cases exponent <;> simp [Decimal.spell]

/-- Behind its sign, a number begins with a digit. -/
lemma readMinus_append (negative : Bool) {c : Char} (hc : c.isDigit = true) (cs : List Char) :
    readMinus ((if negative then ['-'] else []) ++ c :: cs) = (negative, c :: cs) := by
  cases negative with
  | true => rfl
  | false =>
    unfold readMinus
    split
    · rename_i h
      cases h
      cases hc
    · rfl

/-- The text behind a fraction begins with no digit and with no second point. -/
lemma head_exponent {exponent : Option Exponent} (h : ∀ e ∈ exponent, e.IsLiteral)
    (hr : EndsNumber rest) :
    ∀ c ∈ (exponent.elim [] Exponent.spell ++ rest).head?, c.isDigit = false ∧ c ≠ '.' := by
  cases exponent with
  | none => exact fun c hc => ⟨(hr c hc).1, (hr c hc).2.1⟩
  | some e =>
    rintro _ ⟨⟩
    exact not_isDigit_of_mark (h e rfl).mark

/-- No digit stands behind the whole part of a number, with a fraction or without. -/
lemma head_fraction (fraction : Option (List Char))
    (hr : ∀ c ∈ rest.head?, c.isDigit = false) :
    ∀ c ∈ (fraction.elim [] ('.' :: ·) ++ rest).head?, c.isDigit = false := by
  cases fraction with
  | none => exact hr
  | some ds =>
    rintro _ ⟨⟩
    rfl

/-- A number that is written out is read back. -/
theorem readNumber?_spell {d : Decimal} (h : d.IsJson) (hr : EndsNumber rest) :
    readNumber? (d.spell ++ rest) = some (d, rest) := by
  obtain ⟨negative, whole, fraction, exponent⟩ := d
  obtain ⟨hw, ne, leading, hf, he⟩ := h
  dsimp only at hw ne leading hf he
  have behind := head_exponent he hr
  have signed : readMinus (Decimal.spell ⟨negative, whole, fraction, exponent⟩ ++ rest) =
      (negative, whole ++ (fraction.elim [] ('.' :: ·) ++
        (exponent.elim [] Exponent.spell ++ rest))) := by
    obtain ⟨c, cs, rfl⟩ := List.exists_cons_of_ne_nil ne
    rw [spell_eq]
    simpa using readMinus_append negative (hw c List.mem_cons_self)
      (cs ++ (fraction.elim [] ('.' :: ·) ++ (exponent.elim [] Exponent.spell ++ rest)))
  have pointed := head_fraction fraction fun c hc => (behind c hc).1
  have digits := takeDigits_of_head hw pointed
  have point := scanFraction_spell_append (fun ds hds => (hf ds hds).1) behind
  rw [readNumber?, signed, digits, point, scanExponent_spell_append he hr]
  refine if_neg ?_
  rintro (nothing | ⟨zero, longer⟩ | nothing)
  · exact ne nothing
  · exact longer (leading zero)
  · exact (hf [] nothing).2 rfl

/-- The first character of a number. -/
lemma exists_cons_spell {d : Decimal} (h : d.IsJson) :
    ∃ c cs, d.spell = c :: cs ∧ (c = '-' ∨ c.isDigit = true) := by
  obtain ⟨c, cs, hc⟩ := List.exists_cons_of_ne_nil h.ne_nil
  rw [spell_eq, hc]
  cases d.negative with
  | true => exact ⟨_, _, rfl, .inl rfl⟩
  | false => exact ⟨c, _, rfl, .inr (h.whole c (hc ▸ List.mem_cons_self))⟩

/-- A text that begins with a minus or a digit begins with a number, or with no piece at all. -/
lemma readPiece?_number {c : Char} (hc : c = '-' ∨ c.isDigit = true) (cs : List Char) :
    readPiece? (c :: cs) = (readNumber? (c :: cs)).map fun r => (.scalar (.number r.1), r.2) := by
  unfold readPiece?
  split
  case h_11 => rfl
  all_goals
    rename_i h
    cases h
    simp [Char.isDigit] at hc

end Json

end Quill
