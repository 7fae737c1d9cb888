import Quill.Json.Basic
import Quill.Json.Text
import Quill.Number.Scan

/-!
# Pieces of JSON text

JSON text cut into its pieces: brackets, commas, colons, strings, numbers and the three words. White
space between pieces is dropped, so two texts that differ in nothing else have the same pieces.
-/

namespace Quill

namespace Json

/-- A piece of JSON text. -/
inductive Piece where
  | beginArray
  | endArray
  | beginObject
  | endObject
  | comma
  | colon
  | string (text : Option String)
  | scalar (value : Json)

/-- Whether the character is JSON white space. -/
def isSpace (c : Char) : Bool :=
  c == ' ' || c == '\n' || c == '\t' || c == '\r'

/-- Whether a minus stands at the front of a text, and the text behind it. -/
def readMinus : List Char → Bool × List Char
  | '-' :: rest => (true, rest)
  | cs => (false, cs)

/-- The number at the front of a text: no needless leading zero, and digits on both sides of a
point. -/
def readNumber? (cs : List Char) : Option (Decimal × List Char) :=
  let signed := readMinus cs
  let whole := Cut.takeWhile Char.isDigit signed.2
  let fraction := scanFraction whole.rest
  let exponent := scanExponent fraction.2
  if whole.taken = [] ∨ (whole.taken.head? = some '0' ∧ whole.taken.length ≠ 1) ∨
      fraction.1 = some [] then
    none
  else
    some (⟨signed.1, whole.taken, fraction.1, exponent.1⟩, exponent.2)

/-- The piece at the front of a text that starts with no white space, and the text behind it. -/
def readPiece? : List Char → Option (Piece × List Char)
  | '[' :: rest => some (.beginArray, rest)
  | ']' :: rest => some (.endArray, rest)
  | '{' :: rest => some (.beginObject, rest)
  | '}' :: rest => some (.endObject, rest)
  | ',' :: rest => some (.comma, rest)
  | ':' :: rest => some (.colon, rest)
  | '"' :: rest => (readString? rest).map fun r => (.string r.1, r.2)
  | 'n' :: 'u' :: 'l' :: 'l' :: rest => some (.scalar .null, rest)
  | 't' :: 'r' :: 'u' :: 'e' :: rest => some (.scalar (.bool true), rest)
  | 'f' :: 'a' :: 'l' :: 's' :: 'e' :: rest => some (.scalar (.bool false), rest)
  | cs => (readNumber? cs).map fun r => (.scalar (.number r.1), r.2)

/-- What stands behind a minus sign is no longer than the text. -/
theorem length_readMinus (cs : List Char) : (readMinus cs).2.length ≤ cs.length := by
  unfold readMinus
  split <;> simp

/-- A number has at least one digit. -/
theorem length_of_readNumber? {cs rest : List Char} {d : Decimal}
    (h : readNumber? cs = some (d, rest)) : rest.length < cs.length := by
  unfold readNumber? at h
  dsimp only at h
  split at h
  · simp at h
  · rename_i hv
    cases h
    have hs := length_readMinus cs
    generalize (readMinus cs).2 = body at *
    have hw := Cut.length_rest (Cut.text_takeWhile Char.isDigit body)
    have hf := congrArg List.length (scanFraction_spell (Cut.takeWhile Char.isDigit body).rest)
    have he := congrArg List.length
      (scanExponent_spell (scanFraction (Cut.takeWhile Char.isDigit body).rest).2)
    rw [List.length_append] at hf he
    have hne : (Cut.takeWhile Char.isDigit body).taken ≠ [] := fun h0 => hv (.inl h0)
    have := List.length_pos_iff.2 hne
    omega

/-- Every piece leaves less to read. -/
theorem length_of_readPiece? {cs rest : List Char} {p : Piece}
    (h : readPiece? cs = some (p, rest)) : rest.length < cs.length := by
  unfold readPiece? at h
  split at h
  case h_7 more =>
    obtain ⟨r, hr, he⟩ := Option.map_eq_some_iff.1 h
    cases he
    have := length_of_readString? hr
    simp only [List.length_cons]
    omega
  case h_11 =>
    obtain ⟨r, hr, he⟩ := Option.map_eq_some_iff.1 h
    cases he
    exact length_of_readNumber? hr
  all_goals
    cases h
    simp only [List.length_cons]
    omega

/-- The pieces of a text. There are none when some part of it is no piece. -/
def pieces? (cs : List Char) : Option (List Piece) :=
  match cs with
  | [] => some []
  | c :: more =>
    if isSpace c then
      pieces? more
    else
      match h : readPiece? (c :: more) with
      | none => none
      | some (p, rest) =>
        have : rest.length < more.length + 1 := length_of_readPiece? h
        (pieces? rest).map (p :: ·)
termination_by cs.length

end Json

end Quill
