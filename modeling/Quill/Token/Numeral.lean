import Quill.Number.Scan

/-!
# Number literals

A number literal is digits with an optional point and fraction, or a point with at least one digit
behind it, and then an optional exponent, which needs a digit. The longest such text is taken: an
`e` without digits is left to what follows.
-/

namespace Quill

/-- The number literal at the front of a text, and the rest. -/
def scanNumeral? (cs : List Char) : Option (Decimal × List Char) :=
  let whole := Cut.takeWhile Char.isDigit cs
  let fraction := scanFraction whole.rest
  if whole.taken = [] ∧ fraction.1.getD [] = [] then
    none
  else
    let exponent := scanExponent fraction.2
    some (⟨false, whole.taken, fraction.1, exponent.1⟩, exponent.2)

/-- A literal is cut from its text. -/
theorem spell_of_scanNumeral? {cs rest : List Char} {d : Decimal}
    (h : scanNumeral? cs = some (d, rest)) : d.spell ++ rest = cs := by
  unfold scanNumeral? at h
  dsimp only at h
  split at h
  · simp at h
  · cases h
    have hw := Cut.text_takeWhile Char.isDigit cs
    have hf := scanFraction_spell (Cut.takeWhile Char.isDigit cs).rest
    have he := scanExponent_spell (scanFraction (Cut.takeWhile Char.isDigit cs).rest).2
    generalize Cut.takeWhile Char.isDigit cs = w at *
    generalize scanFraction w.rest = f at *
    generalize scanExponent f.2 = e at *
    obtain ⟨f1, f2⟩ := f
    obtain ⟨e1, e2⟩ := e
    rw [Cut.text] at hw
    rw [← hw, ← hf, ← he]
    cases f1 <;> cases e1 <;> simp [Decimal.spell]

/-- A literal has at least one character. -/
theorem spell_ne_nil_of_scanNumeral? {cs rest : List Char} {d : Decimal}
    (h : scanNumeral? cs = some (d, rest)) : d.spell ≠ [] := by
  unfold scanNumeral? at h
  dsimp only at h
  split at h
  · simp at h
  · rename_i hne
    cases h
    cases hf : (scanFraction (Cut.takeWhile Char.isDigit cs).rest).1 <;>
      simp_all [Decimal.spell]

end Quill
