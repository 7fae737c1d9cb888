import Quill.Number.Decimal
import Quill.Text.Cut

/-!
# Parts of a written decimal

The fraction and the exponent of a decimal at the front of a text. A point is taken with the digits
behind it, if any; an exponent is taken only with a digit.
-/

namespace Quill

/-- The sign at the front of a text, if there is one. -/
def scanSign : List Char → Option Char × List Char
  | '+' :: rest => (some '+', rest)
  | '-' :: rest => (some '-', rest)
  | rest => (none, rest)

/-- The exponent at the front of a text, if there is one with a digit. -/
def scanExponent : List Char → Option Exponent × List Char
  | mark :: rest =>
    let signed := scanSign rest
    let digits := Cut.takeWhile Char.isDigit signed.2
    if (mark = 'e' ∨ mark = 'E') ∧ digits.taken ≠ [] then
      (some ⟨mark, signed.1, digits.taken⟩, digits.rest)
    else
      (none, mark :: rest)
  | [] => (none, [])

/-- The point and the digits behind it at the front of a text, if there is a point. -/
def scanFraction (cs : List Char) : Option (List Char) × List Char :=
  match cs with
  | '.' :: rest =>
    let digits := Cut.takeWhile Char.isDigit rest
    (some digits.taken, digits.rest)
  | _ => (none, cs)

/-- The sign of an exponent and what stands behind it make up the text. -/
theorem scanSign_spell (cs : List Char) : (scanSign cs).1.toList ++ (scanSign cs).2 = cs := by
  unfold scanSign
  split <;> rfl

/-- An exponent and what stands behind it make up the text. -/
theorem scanExponent_spell (cs : List Char) :
    ((scanExponent cs).1.elim [] Exponent.spell) ++ (scanExponent cs).2 = cs := by
  unfold scanExponent
  split
  · rename_i mark rest
    dsimp only
    split
    · have hs := scanSign_spell rest
      have hd := Cut.text_takeWhile Char.isDigit (scanSign rest).2
      simp only [Cut.text] at hd
      simp [Exponent.spell, hd, hs]
    · rfl
  · rfl

/-- A fraction and what stands behind it make up the text. -/
theorem scanFraction_spell (cs : List Char) :
    ((scanFraction cs).1.elim [] ('.' :: ·)) ++ (scanFraction cs).2 = cs := by
  unfold scanFraction
  split <;> simp [Cut.takeWhile]

end Quill
