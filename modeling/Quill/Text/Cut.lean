/-!
# Cuts

A text cut in two, as a reader leaves it: the characters it took and the rest.
-/

namespace Quill

/-- A text in two parts. -/
structure Cut where
  taken : List Char
  rest : List Char
  deriving DecidableEq

namespace Cut

/-- The text that was cut. -/
def text (k : Cut) : List Char :=
  k.taken ++ k.rest

/-- The cut with more characters in front. -/
def prepend (cs : List Char) (k : Cut) : Cut :=
  ⟨cs ++ k.taken, k.rest⟩

/-- Takes characters as long as they satisfy `p`. -/
def takeWhile (p : Char → Bool) (cs : List Char) : Cut :=
  ⟨cs.takeWhile p, cs.dropWhile p⟩

/-- What is put in front of a cut is put in front of its text. -/
@[simp] theorem text_prepend (cs : List Char) (k : Cut) :
    (k.prepend cs).text = cs ++ k.text := by
  simp [text, prepend]

/-- A cut behind the characters of a kind is a cut of the text. -/
@[simp] theorem text_takeWhile (p : Char → Bool) (cs : List Char) :
    (takeWhile p cs).text = cs := by
  simp [text, takeWhile]

/-- What is put in front of a cut leaves its rest alone. -/
@[simp] theorem rest_prepend (cs : List Char) (k : Cut) : (k.prepend cs).rest = k.rest := rfl

/-- What is put in front of a cut is taken with it. -/
@[simp] theorem taken_prepend (cs : List Char) (k : Cut) :
    (k.prepend cs).taken = cs ++ k.taken := rfl

/-- The rest is shorter than the text by what was taken. -/
theorem length_rest {k : Cut} {cs : List Char} (h : k.text = cs) :
    k.rest.length + k.taken.length = cs.length := by
  subst h
  simp [text, Nat.add_comm]

end Cut

end Quill
