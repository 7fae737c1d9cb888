import Mathlib.Tactic.Common
import Quill.Json.Render
import Quill.Json.Text
import Quill.Proofs.Lexical.StringLiteral

/-!
# Strings in JSON text

The texts between two quotes, and what they mean: each character as itself, behind a backslash, or
as one or two units of UTF-16. The reader takes all of them (`readString?_of_spells`), and what is
written out is one of them (`spellsString_renderString`). Half of a pair that stands alone is no
character. The string that is no text is written as one.
-/

namespace Quill

namespace Json

/-! ## Characters -/

/-- The letter behind a backslash, and the character that both stand for. -/
inductive LetterEscape : Char → Char → Prop where
  | quote : LetterEscape '"' '"'
  | backslash : LetterEscape '\\' '\\'
  | slash : LetterEscape '/' '/'
  | backspace : LetterEscape 'b' '\x08'
  | formFeed : LetterEscape 'f' '\x0c'
  | newline : LetterEscape 'n' '\n'
  | carriageReturn : LetterEscape 'r' '\r'
  | tab : LetterEscape 't' '\t'

/-- A unit of UTF-16 as four hexadecimal digits of either case. -/
inductive SpellsUnit : Nat → List Char → Prop where
  | digits {a b c d i j k l} :
    HexDigit a i →
    HexDigit b j →
    HexDigit c k →
    HexDigit d l →
    SpellsUnit (((i * 16 + j) * 16 + k) * 16 + l) ['\\', 'u', a, b, c, d]

/-- The unit is the first half of a pair. -/
def IsHigh (n : Nat) : Prop :=
  0xd800 ≤ n ∧ n < 0xdc00

/-- The unit is the second half of a pair. -/
def IsLow (n : Nat) : Prop :=
  0xdc00 ≤ n ∧ n < 0xe000

/-- A character between two quotes. -/
inductive SpellsChar : Char → List Char → Prop where
  | plain {c} :
    c ≠ '"' →
    c ≠ '\\' →
    0x20 ≤ c.toNat →
    SpellsChar c [c]
  | letter {e c} :
    LetterEscape e c →
    SpellsChar c ['\\', e]
  | unit {c unit} :
    SpellsUnit c.toNat unit →
    SpellsChar c unit
  | pair {c m n high low} :
    SpellsUnit m high →
    SpellsUnit n low →
    IsHigh m →
    IsLow n →
    c.toNat = 0x10000 + (m - 0xd800) * 0x400 + (n - 0xdc00) →
    SpellsChar c (high ++ low)

/-- What is between two quotes, and the characters that it means. Half of a pair that stands alone
is no character, and then the string is no text. -/
inductive SpellsString : Option (List Char) → List Char → Prop where
  | nil : SpellsString (some []) []
  | char {c s front rest} :
    SpellsChar c front →
    SpellsString s rest →
    SpellsString (s.map (c :: ·)) (front ++ rest)
  | half {n s unit rest} :
    SpellsUnit n unit →
    IsHigh n ∨ IsLow n →
    (IsHigh n → ∀ m low more, SpellsUnit m low → IsLow m → rest ≠ low ++ more) →
    SpellsString s rest →
    SpellsString none (unit ++ rest)

/-! ## Reading -/

section

variable {c : Char} {n : Nat} {unit front body : List Char}

/-- A character that stands for itself is read as itself. -/
lemma readUnits?_plain (quote : c ≠ '"') (backslash : c ≠ '\\') (control : ¬ c.toNat < 0x20)
    (cs : List Char) :
    readUnits? (c :: cs) = (readUnits? cs).map fun r => (c.toNat :: r.1, r.2) := by
  rw [readUnits?]
  · exact if_neg control
  all_goals
    intros
    simp_all

/-- The letter of an escape is read as the character that it stands for. -/
lemma escape?_of_letterEscape {e : Char} (h : LetterEscape e c) : escape? e = some c := by
  cases h <;> rfl

/-- A character is no half of a pair. -/
lemma not_half (c : Char) : ¬ IsHigh c.toNat ∧ ¬ IsLow c.toNat := by
  have valid : c.toNat < 0xd800 ∨ 0xdfff < c.toNat ∧ c.toNat < 0x110000 := c.valid
  unfold IsHigh IsLow
  omega

/-- Half of a surrogate pair is no character. -/
lemma scalar?_half (h : IsHigh n ∨ IsLow n) : scalar? n = none := by
  cases hn : scalar? n with
  | none => rfl
  | some c =>
    rw [scalar?_eq_some_iff] at hn
    subst hn
    obtain ⟨high, low⟩ := not_half c
    exact absurd h (not_or.2 ⟨high, low⟩)

/-- A character is not joined with what is behind it. -/
lemma joinPair?_toNat (c : Char) (n : Nat) : joinPair? c.toNat n = none := by
  rw [joinPair?, if_neg]
  rintro ⟨low, high, _⟩
  exact (not_half c).1 ⟨low, high⟩

/-- A unit is read off the front of a string, with the units behind it. -/
lemma readUnits?_unit (h : SpellsUnit n unit) (cs : List Char) :
    readUnits? (unit ++ cs) = (readUnits? cs).map fun r => (n :: r.1, r.2) := by
  cases h with
  | @digits a b c d i j k l ha hb hc hd =>
    have quad : hexQuad? a b c d = some (((i * 16 + j) * 16 + k) * 16 + l) :=
      hexQuad?_eq_some_iff.2 ⟨i, j, k, l, ha, hb, hc, hd, rfl⟩
    simp only [List.cons_append, List.nil_append, readUnits?, quad]

/-- A character is read as one unit that is no half, or as a pair of them. -/
lemma readUnits?_char (h : SpellsChar c front) (cs : List Char) :
    ∃ us, readUnits? (front ++ cs) = (readUnits? cs).map (fun r => (us ++ r.1, r.2)) ∧
      (us = [c.toNat] ∨ ∃ m n, us = [m, n] ∧ IsHigh m ∧ joinPair? m n = some c.toNat) := by
  cases h with
  | plain quote backslash visible =>
    exact ⟨[c.toNat], readUnits?_plain quote backslash (Nat.not_lt.2 visible) cs, .inl rfl⟩
  | letter he =>
    refine ⟨[c.toNat], ?_, .inl rfl⟩
    have stands := escape?_of_letterEscape he
    cases he <;> simp [readUnits?, stands]
  | unit hu => exact ⟨[c.toNat], readUnits?_unit hu cs, .inl rfl⟩
  | @pair _ m n high low hm hn first second point =>
    refine ⟨[m, n], ?_, .inr ⟨m, n, rfl, first, ?_⟩⟩
    · rw [List.append_assoc, readUnits?_unit hm, readUnits?_unit hn, Option.map_map]
      rfl
    · rw [joinPair?, if_pos ⟨first.1, first.2, second.1, second.2⟩, ← point]

/-- The unit of a character is read as that character. -/
lemma ofUnits?_char (c : Char) (us : List Nat) :
    ofUnits? (c.toNat :: us) = (ofUnits? us).map (c :: ·) := by
  have named : scalar? c.toNat = some c := scalar?_eq_some_iff.2 rfl
  cases us with
  | nil => simp [ofUnits?, named]
  | cons n us => simp only [ofUnits?, joinPair?_toNat, named, Option.bind_some]

/-- The two units of a character beyond the first plane are read as that character. -/
lemma ofUnits?_pair {m : Nat} (h : joinPair? m n = some c.toNat) (us : List Nat) :
    ofUnits? (m :: n :: us) = (ofUnits? us).map (c :: ·) := by
  have named : scalar? c.toNat = some c := scalar?_eq_some_iff.2 rfl
  simp only [ofUnits?, h, named, Option.bind_some]

/-- Half of a pair makes no text, unless the other half is behind it. -/
lemma ofUnits?_half (h : IsHigh n ∨ IsLow n) {us : List Nat}
    (alone : IsHigh n → ∀ m ∈ us.head?, ¬ IsLow m) : ofUnits? (n :: us) = none := by
  cases us with
  | nil => simp [ofUnits?, scalar?_half h]
  | cons m us =>
    have apart : joinPair? n m = none := by
      rw [joinPair?, if_neg]
      rintro ⟨low, high, second⟩
      exact alone ⟨low, high⟩ m rfl second
    simp only [ofUnits?, apart, scalar?_half h, Option.bind_none]

/-- Up to its closing quote, a string is read as the characters that it means. -/
lemma readString?_of_spells {s : Option (List Char)} (h : SpellsString s body) (rest : List Char) :
    readString? (body ++ '"' :: rest) = some (s.map String.ofList, rest) := by
  -- A string that is read as beginning with a second half does begin with one.
  have units : ∃ us, readUnits? (body ++ '"' :: rest) = some (us, rest) ∧ ofUnits? us = s ∧
      ∀ m ∈ us.head?, IsLow m → ∃ low more, SpellsUnit m low ∧ body = low ++ more := by
    induction h with
    | nil => exact ⟨[], by simp [readUnits?], rfl, nofun⟩
    | @char c s front more hc _ ih =>
      obtain ⟨us, read, means, _⟩ := ih
      obtain ⟨vs, front_read, one | ⟨m, n, two, high, joined⟩⟩ :=
        readUnits?_char hc (more ++ '"' :: rest)
      · subst one
        refine ⟨c.toNat :: us, ?_, ?_, ?_⟩
        · rw [List.append_assoc, front_read, read]
          rfl
        · rw [ofUnits?_char, means]
        · rintro _ ⟨⟩ low
          exact absurd low (not_half c).2
      · subst two
        refine ⟨m :: n :: us, ?_, ?_, ?_⟩
        · rw [List.append_assoc, front_read, read]
          rfl
        · rw [ofUnits?_pair joined, means]
        · rintro _ ⟨⟩ low
          exact absurd low.1 (Nat.not_le_of_lt high.2)
    | @half n s unit more hn half alone _ ih =>
      obtain ⟨us, read, _, first⟩ := ih
      refine ⟨n :: us, ?_, ?_, ?_⟩
      · rw [List.append_assoc, readUnits?_unit hn, read]
        rfl
      · apply ofUnits?_half half
        intro high m hm low
        obtain ⟨front, behind, spelled, same⟩ := first m hm low
        exact alone high m front behind spelled low same
      · rintro _ ⟨⟩ _
        exact ⟨unit, more, hn, rfl⟩
  obtain ⟨us, read, means, _⟩ := units
  rw [readString?, read, Option.map_some, means]

end

/-! ## Writing -/

/-- A number below sixteen is written by its hexadecimal digit. -/
lemma hexDigit_hexDigit : ∀ n < 16, HexDigit (hexDigit n) n := by
  intro n hn
  left
  revert n
  decide

/-- A character is spelled by what it is written as. -/
lemma spellsChar_escapeChar (c : Char) : SpellsChar c (escapeChar c) := by
  unfold escapeChar
  split
  · subst c
    exact .letter .quote
  split
  · subst c
    exact .letter .backslash
  split
  · subst c
    exact .letter .backspace
  split
  · subst c
    exact .letter .formFeed
  split
  · subst c
    exact .letter .newline
  split
  · subst c
    exact .letter .carriageReturn
  split
  · subst c
    exact .letter .tab
  split
  · have zero := hexDigit_hexDigit 0 (by decide)
    have unit := SpellsUnit.digits zero zero (hexDigit_hexDigit (c.toNat / 16) (by omega))
      (hexDigit_hexDigit (c.toNat % 16) (by omega))
    have value : ((0 * 16 + 0) * 16 + c.toNat / 16) * 16 + c.toNat % 16 = c.toNat := by omega
    rw [value] at unit
    exact .unit unit
  · rename_i quote backslash _ _ _ _ _ control
    exact .plain quote backslash (Nat.le_of_not_lt control)

/-- A text is spelled by its characters, each escaped where it has to be. -/
lemma spellsString_escaped (cs : List Char) : SpellsString (some cs) (cs.flatMap escapeChar) := by
  induction cs with
  | nil => exact .nil
  | cons c cs ih => exact .char (spellsChar_escapeChar c) ih

/-- The string that is no text is written as half a pair. -/
lemma spellsString_half : SpellsString none "\\ud800".toList := by
  have zero := hexDigit_hexDigit 0 (by decide)
  have unit : SpellsUnit 0xd800 "\\ud800".toList :=
    .digits (hexDigit_hexDigit 13 (by decide)) (hexDigit_hexDigit 8 (by decide)) zero zero
  refine .half unit (.inl ⟨by decide, by decide⟩) ?_ .nil
  rintro _ m low more ⟨⟩ _
  simp

/-- A string is spelled by what is written between its quotes. -/
theorem spellsString_renderString (s : Option String) :
    ∃ body, renderString s = '"' :: (body ++ ['"']) ∧ SpellsString (s.map String.toList) body := by
  cases s with
  | none => exact ⟨"\\ud800".toList, rfl, spellsString_half⟩
  | some s => exact ⟨_, rfl, spellsString_escaped s.toList⟩

end Json

end Quill
