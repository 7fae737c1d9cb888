import Mathlib.Tactic.Common
import Mathlib.Tactic.IntervalCases
import Quill.Token.StringLiteral

/-!
# String literals

What may stand between the quotes of a string literal and what it means, as texts and apart from the
reader that decodes them. A literal that cannot be read either breaks off, at the end of the text or
of the line, or has a backslash with nothing behind it that is an escape. These are all the ways a
text can go on behind an opening quote (`exists_stringBody`), and the reader tells them apart.
-/

namespace Quill

/-- The letter behind a backslash, and the character that both stand for. -/
inductive ShortEscape : Char → Char → Prop where
  | quote : ShortEscape '"' '"'
  | backslash : ShortEscape '\\' '\\'
  | slash : ShortEscape '/' '/'
  | apostrophe : ShortEscape '\'' '\''
  | newline : ShortEscape 'n' '\n'
  | tab : ShortEscape 't' '\t'
  | carriageReturn : ShortEscape 'r' '\r'
  | backspace : ShortEscape 'b' '\x08'
  | formFeed : ShortEscape 'f' '\x0c'
  | null : ShortEscape '0' '\x00'

/-- A hexadecimal digit of either case, and its value. -/
def HexDigit (c : Char) (n : Nat) : Prop :=
  "0123456789abcdef".toList[n]? = some c ∨ "0123456789ABCDEF".toList[n]? = some c

/-- What stands behind a backslash, and the character it stands for. -/
inductive Escape : List Char → Char → Prop where
  | short {e v} :
    ShortEscape e v →
    Escape [e] v
  | unicode {a b c d i j k l v} :
    HexDigit a i →
    HexDigit b j →
    HexDigit c k →
    HexDigit d l →
    v.toNat = ((i * 16 + j) * 16 + k) * 16 + l →
    Escape ['u', a, b, c, d] v

/-- What stands between two quotes, and the text that it means. -/
inductive StringBody : List Char → List Char → Prop where
  | nil : StringBody [] []
  | plain {c cs vs} :
    c ≠ '"' →
    c ≠ '\\' →
    c ≠ '\n' →
    StringBody cs vs →
    StringBody (c :: cs) (c :: vs)
  | escape {es v cs vs} :
    Escape es v →
    StringBody cs vs →
    StringBody ('\\' :: (es ++ cs)) (v :: vs)

/-- The line or the text ends before a closing quote, perhaps right behind a backslash. -/
inductive BreaksOff : List Char → Prop where
  | atEnd : BreaksOff []
  | atNewline {cs} : BreaksOff ('\n' :: cs)
  | escapeAtEnd : BreaksOff ['\\']
  | escapeAtNewline {cs} : BreaksOff ('\\' :: '\n' :: cs)

/-- No escape stands behind a backslash, though the line goes on with a letter. -/
structure BadEscape (letter : Char) (cs : List Char) : Prop where
  newline : letter ≠ '\n'
  escape : ∀ es v, Escape es v → ¬ es <+: letter :: cs

/-! ## Escapes -/

/-- The short escapes are those that the scanner has. -/
lemma shortEscape?_eq_some_iff {e v : Char} : shortEscape? e = some v ↔ ShortEscape e v := by
  constructor
  · intro h
    unfold shortEscape? at h
    split at h <;> cases h <;> constructor
  · rintro ⟨⟩ <;> rfl

/-- A property of the characters in a range is one of their code points. -/
lemma char_of_range {P : Char → Prop} {a b : Nat}
    (h : ∀ n, a ≤ n → n ≤ b → P (Char.ofNat n)) {c : Char} (hc : a ≤ c.toNat ∧ c.toNat ≤ b) :
    P c := by
  have := h c.toNat hc.1 hc.2
  rwa [Char.ofNat_toNat] at this

/-- The value of a hexadecimal digit is below sixteen. -/
lemma HexDigit.lt {c : Char} {n : Nat} (h : HexDigit c n) : n < 16 := by
  obtain h | h := h <;> exact (List.getElem?_eq_some_iff.1 h).1

/-- The hexadecimal digits are those that the scanner has. -/
lemma hexDigit?_eq_some_iff {c : Char} {n : Nat} : hexDigit? c = some n ↔ HexDigit c n := by
  constructor
  · intro h
    unfold hexDigit? at h
    split at h
    · rename_i range
      cases h
      refine char_of_range (P := fun c => HexDigit c (c.toNat - 48)) (a := 48) (b := 57) ?_ range
      intro n _ _
      interval_cases n <;> exact .inl rfl
    · split at h
      · rename_i range
        cases h
        refine char_of_range (P := fun c => HexDigit c (c.toNat - 97 + 10)) (a := 97) (b := 102)
          ?_ range
        intro n _ _
        interval_cases n <;> exact .inl rfl
      · split at h
        · rename_i range
          cases h
          refine char_of_range (P := fun c => HexDigit c (c.toNat - 65 + 10)) (a := 65) (b := 70)
            ?_ range
          intro n _ _
          interval_cases n <;> exact .inr rfl
        · cases h
  · intro h
    have hn := h.lt
    obtain h | h := h
    · interval_cases n <;> cases h <;> rfl
    · interval_cases n <;> cases h <;> rfl

/-- A hexadecimal digit has one value. -/
lemma HexDigit.unique {c : Char} {n m : Nat} (h : HexDigit c n) (h' : HexDigit c m) : n = m :=
  Option.some.inj ((hexDigit?_eq_some_iff.2 h).symm.trans (hexDigit?_eq_some_iff.2 h'))

/-- Four characters are read as a number exactly if each of them is a hexadecimal digit. -/
lemma hexQuad?_eq_some_iff {a b c d : Char} {n : Nat} :
    hexQuad? a b c d = some n ↔
      ∃ i j k l, HexDigit a i ∧ HexDigit b j ∧ HexDigit c k ∧ HexDigit d l ∧
        n = ((i * 16 + j) * 16 + k) * 16 + l := by
  simp only [← hexDigit?_eq_some_iff]
  unfold hexQuad?
  constructor
  · intro h
    split at h
    · rename_i ha hb hc hd
      cases h
      exact ⟨_, _, _, _, ha, hb, hc, hd, rfl⟩
    · cases h
  · rintro ⟨i, j, k, l, ha, hb, hc, hd, rfl⟩
    simp only [ha, hb, hc, hd]

/-- A number is read as a character exactly if it is the code point of that character. -/
lemma scalar?_eq_some_iff {n : Nat} {v : Char} : scalar? n = some v ↔ v.toNat = n := by
  unfold scalar?
  constructor
  · intro h
    by_cases valid : n.isValidChar
    · rw [dif_pos valid] at h
      cases h
      rfl
    · rw [dif_neg valid] at h
      cases h
  · rintro rfl
    have valid : v.toNat.isValidChar := v.valid
    rw [dif_pos valid]
    rfl

/-- Four digits behind a `u` are an escape exactly when they name a character. -/
lemma unicode_iff {a b c d v : Char} :
    (hexQuad? a b c d).bind scalar? = some v ↔ Escape ['u', a, b, c, d] v := by
  simp only [Option.bind_eq_some_iff, hexQuad?_eq_some_iff, scalar?_eq_some_iff]
  constructor
  · rintro ⟨_, ⟨i, j, k, l, ha, hb, hc, hd, rfl⟩, hv⟩
    exact .unicode ha hb hc hd hv
  · intro h
    cases h with
    | unicode ha hb hc hd hv => exact ⟨_, ⟨_, _, _, _, ha, hb, hc, hd, rfl⟩, hv⟩

/-! ## Reading a literal -/

/-- The reading with more decoded characters and their spelling in front. -/
def StringScan.behind (value spelling : List Char) : StringScan → StringScan
  | closed vs cut => closed (value ++ vs) (cut.prepend spelling)
  | unterminated => unterminated
  | badEscape before letter => badEscape (spelling ++ before) letter

/-- With nothing in front, a reading is as it was. -/
lemma StringScan.behind_nil (s : StringScan) : s.behind [] [] = s := by
  cases s <;> rfl

/-- What is put in front of a reading is put there character by character. -/
lemma StringScan.behind_cons (s : StringScan) (v : Char) (vs es cs : List Char) :
    s.behind (v :: vs) (es ++ cs) = (s.behind vs cs).prepend v es := by
  cases s <;> simp [behind, prepend, Cut.prepend]

/-- A plain character stands for itself. -/
lemma scanString_plain {c : Char} (quote : c ≠ '"') (backslash : c ≠ '\\') (newline : c ≠ '\n')
    (cs : List Char) : scanString (c :: cs) = (scanString cs).prepend c [c] := by
  rw [scanString]
  all_goals
    intros
    simp_all

/-- An escape stands for its character. -/
lemma scanString_escape {es : List Char} {v : Char} (h : Escape es v) (cs : List Char) :
    scanString ('\\' :: (es ++ cs)) = (scanString cs).prepend v ('\\' :: es) := by
  cases h with
  | short h =>
    cases h <;> simp [scanString, shortEscape?]
  | @unicode a b c d i j k l v ha hb hc hd hv =>
    have decoded := unicode_iff.2 (Escape.unicode ha hb hc hd hv)
    simp only [List.cons_append, List.nil_append, scanString, decoded]

/-- What may stand in a literal is decoded. -/
lemma scanString_append {spelling value : List Char} (h : StringBody spelling value)
    (rest : List Char) :
    scanString (spelling ++ rest) = (scanString rest).behind value spelling := by
  induction h with
  | nil => exact (StringScan.behind_nil _).symm
  | @plain c cs vs quote backslash newline _ ih =>
    rw [List.cons_append, scanString_plain quote backslash newline, ih]
    exact (StringScan.behind_cons _ c vs [c] cs).symm
  | @escape es v cs vs he _ ih =>
    rw [List.cons_append, List.append_assoc, scanString_escape he, ih]
    exact (StringScan.behind_cons _ v vs ('\\' :: es) cs).symm

/-- A literal that breaks off is unterminated. -/
lemma scanString_of_breaksOff {cs : List Char} (h : BreaksOff cs) :
    scanString cs = .unterminated := by
  cases h <;> simp [scanString]

/-- A text whose first letter is no short escape, and that has no four digits behind a `u` that name
a character, begins with no escape. -/
lemma not_escape {e : Char} {cs : List Char} (short : shortEscape? e = none)
    (unicode : ∀ a b c d rest, e = 'u' → cs = a :: b :: c :: d :: rest →
      (hexQuad? a b c d).bind scalar? = none) :
    ∀ es v, Escape es v → ¬ es <+: e :: cs := by
  rintro es v he ⟨rest, split⟩
  -- The second copy outlives the case analysis, which needs the characters by name.
  have again := he
  cases he with
  | short hs =>
    cases split
    rw [shortEscape?_eq_some_iff.2 hs] at short
    cases short
  | @unicode a b c d =>
    cases split
    have decoded := unicode a b c d rest rfl rfl
    rw [unicode_iff.2 again] at decoded
    cases decoded

/-- A literal with a bad escape is refused with the letter of that escape. -/
lemma scanString_of_badEscape {letter : Char} {cs : List Char} (h : BadEscape letter cs) :
    scanString ('\\' :: letter :: cs) = .badEscape [] letter := by
  have short : shortEscape? letter = none := by
    rw [Option.eq_none_iff_forall_ne_some]
    intro v hv
    exact h.escape [letter] v (.short (shortEscape?_eq_some_iff.1 hv)) ⟨cs, rfl⟩
  unfold scanString
  split
  · rename_i hc; cases hc
  · rename_i hc; cases hc
  · rename_i hc; cases hc
  · rename_i hc; cases hc
  · rename_i hc
    cases hc
    exact absurd rfl h.newline
  · rename_i a b c d rest hc
    cases hc
    split
    · rename_i v hv
      exact absurd ⟨rest, rfl⟩ (h.escape _ v (unicode_iff.1 hv))
    · rfl
  · rename_i e rest _ _ hc
    cases hc
    rw [short]
  · rename_i c rest _ _ _ _ _ hne hc
    cases hc
    exact (hne letter cs rfl rfl).elim

/-- Behind an opening quote stands what may stand in a literal, and then a closing quote, the place
where the literal breaks off, or a backslash that opens no escape. -/
lemma exists_stringBody (cs : List Char) :
    ∃ spelling value rest, cs = spelling ++ rest ∧ StringBody spelling value ∧
      ((∃ after, rest = '"' :: after) ∨ BreaksOff rest ∨
        ∃ letter after, rest = '\\' :: letter :: after ∧ BadEscape letter after) := by
  fun_induction scanString cs with
  | case1 => exact ⟨[], [], _, rfl, .nil, .inr (.inl .atEnd)⟩
  | case2 => exact ⟨[], [], _, rfl, .nil, .inr (.inl .atNewline)⟩
  | case3 rest => exact ⟨[], [], _, rfl, .nil, .inl ⟨rest, rfl⟩⟩
  | case4 => exact ⟨[], [], _, rfl, .nil, .inr (.inl .escapeAtEnd)⟩
  | case5 => exact ⟨[], [], _, rfl, .nil, .inr (.inl .escapeAtNewline)⟩
  | case6 a b c d rest v hv ih =>
    obtain ⟨spelling, value, rest, rfl, body, ends⟩ := ih
    exact ⟨_, _, rest, rfl, .escape (unicode_iff.1 hv) body, ends⟩
  | case7 a b c d rest hv =>
    refine ⟨[], [], _, rfl, .nil, .inr (.inr ⟨'u', _, rfl, by decide, not_escape rfl ?_⟩)⟩
    rintro _ _ _ _ _ _ ⟨⟩
    exact hv
  | case8 e rest _ _ v hv ih =>
    obtain ⟨spelling, value, rest, rfl, body, ends⟩ := ih
    exact ⟨_, _, rest, rfl, .escape (.short (shortEscape?_eq_some_iff.1 hv)) body, ends⟩
  | case9 e rest newline unicode hv =>
    refine ⟨[], [], _, rfl, .nil, .inr (.inr ⟨e, rest, rfl, newline, not_escape hv ?_⟩)⟩
    intro a b c d rest' he hr
    exact (unicode a b c d rest' he hr).elim
  | case10 c rest newline quote atEnd _ _ escape ih =>
    have backslash : c ≠ '\\' := by
      intro hc
      cases rest with
      | nil => exact atEnd hc rfl
      | cons e rest => exact escape e rest hc rfl
    obtain ⟨spelling, value, rest, rfl, body, ends⟩ := ih
    exact ⟨c :: spelling, c :: value, rest, rfl, .plain quote backslash newline body, ends⟩

/-- What the reader makes of the text behind an opening quote, whichever way it goes on. -/
lemma scanString_cases (cs : List Char) :
    (∃ spelling value after, cs = spelling ++ '"' :: after ∧ StringBody spelling value ∧
      scanString cs = .closed value ⟨spelling ++ ['"'], after⟩) ∨
    (∃ spelling value rest, cs = spelling ++ rest ∧ StringBody spelling value ∧ BreaksOff rest ∧
      scanString cs = .unterminated) ∨
    ∃ before value letter after, cs = before ++ '\\' :: letter :: after ∧
      StringBody before value ∧ BadEscape letter after ∧
      scanString cs = .badEscape before letter := by
  obtain ⟨spelling, value, rest, rfl, body, ⟨after, rfl⟩ | off | ⟨letter, after, rfl, bad⟩⟩ :=
    exists_stringBody cs
  · have read : scanString (spelling ++ '"' :: after) =
        .closed (value ++ []) ⟨spelling ++ ['"'], after⟩ := by
      rw [scanString_append body, scanString]
      rfl
    rw [List.append_nil] at read
    exact .inl ⟨spelling, value, after, rfl, body, read⟩
  · have read : scanString (spelling ++ rest) = .unterminated := by
      rw [scanString_append body, scanString_of_breaksOff off]
      rfl
    exact .inr (.inl ⟨spelling, value, rest, rfl, body, off, read⟩)
  · have read : scanString (spelling ++ '\\' :: letter :: after) =
        .badEscape (spelling ++ []) letter := by
      rw [scanString_append body, scanString_of_badEscape bad]
      rfl
    rw [List.append_nil] at read
    exact .inr (.inr ⟨spelling, value, letter, after, rfl, body, bad, read⟩)

/-- The reader comes to a closing quote exactly behind what may stand in a literal. -/
theorem scanString_eq_closed_iff {cs value : List Char} {cut : Cut} :
    scanString cs = .closed value cut ↔
      cut.text = cs ∧ ∃ spelling, StringBody spelling value ∧ cut.taken = spelling ++ ['"'] := by
  constructor
  · intro h
    obtain ⟨spelling, _, after, _, body, read⟩ | ⟨_, _, _, _, _, _, read⟩ |
      ⟨_, _, _, _, _, _, _, read⟩ := scanString_cases cs <;> rw [read] at h <;> cases h
    exact ⟨(text_of_scanString read).1, spelling, body, rfl⟩
  · rintro ⟨rfl, spelling, body, taken⟩
    rw [Cut.text, taken, List.append_assoc, scanString_append body, List.cons_append,
      List.nil_append, scanString]
    simp [StringScan.behind, Cut.prepend, ← taken]

/-- The reader finds no closing quote exactly where the literal breaks off. -/
theorem scanString_eq_unterminated_iff {cs : List Char} :
    scanString cs = .unterminated ↔
      ∃ spelling value rest, cs = spelling ++ rest ∧ StringBody spelling value ∧ BreaksOff rest := by
  constructor
  · intro h
    obtain ⟨_, _, _, _, _, read⟩ | ⟨spelling, value, rest, text, body, off, read⟩ |
      ⟨_, _, _, _, _, _, _, read⟩ := scanString_cases cs <;> rw [read] at h <;> cases h
    exact ⟨spelling, value, rest, text, body, off⟩
  · rintro ⟨spelling, value, rest, rfl, body, off⟩
    rw [scanString_append body, scanString_of_breaksOff off]
    rfl

/-- The reader stops at a backslash exactly where it opens no escape. -/
theorem scanString_eq_badEscape_iff {cs before : List Char} {letter : Char} :
    scanString cs = .badEscape before letter ↔
      ∃ value after, cs = before ++ '\\' :: letter :: after ∧ StringBody before value ∧
        BadEscape letter after := by
  constructor
  · intro h
    obtain ⟨_, _, _, _, _, read⟩ | ⟨_, _, _, _, _, _, read⟩ |
      ⟨_, value, _, after, text, body, bad, read⟩ := scanString_cases cs <;>
      rw [read] at h <;> cases h
    exact ⟨value, after, text, body, bad⟩
  · rintro ⟨value, after, rfl, body, bad⟩
    rw [scanString_append body, scanString_of_badEscape bad, StringScan.behind, List.append_nil]

end Quill
