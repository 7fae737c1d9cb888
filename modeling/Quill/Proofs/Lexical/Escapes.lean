import Quill.Proofs.Lexical.Places
import Quill.Proofs.Lexical.Resuming

/-!
# Spellings of strings

A string literal is any spelling of its value between quotes, and it is read wherever the scanner
comes to it. A backslash with a letter that has no meaning, with too few hexadecimal digits behind a
`u`, or with four that name a surrogate, is an error at the backslash, whatever stands behind it.
-/

namespace Quill

/-- The text behind a backslash, a letter and what follows it, spells no character: the letter has
no meaning, one of the four characters behind a `u` is no digit, or the digits name a surrogate. -/
inductive Misspelt : Char → List Char → Prop where
  | letter {e cs} :
    e ≠ 'u' →
    e ≠ '\n' →
    (∀ v, ¬ ShortEscape e v) →
    Misspelt e cs
  | digit {digits c cs} :
    digits.length < 4 →
    (∀ d ∈ digits, ∃ n, HexDigit d n) →
    (∀ n, ¬ HexDigit c n) →
    Misspelt 'u' (digits ++ c :: cs)
  | surrogate {a b c d i j k l cs} :
    HexDigit a i →
    HexDigit b j →
    HexDigit c k →
    HexDigit d l →
    0xd800 ≤ ((i * 16 + j) * 16 + k) * 16 + l →
    ((i * 16 + j) * 16 + k) * 16 + l ≤ 0xdfff →
    Misspelt 'u' (a :: b :: c :: d :: cs)

/-! ## No escape -/

/-- Where one of the four characters behind a `u` is missing or no digit, there is no escape. -/
lemma badEscape_of_digits {digits cs : List Char} (short : digits.length < 4)
    (ends : ∀ c ∈ cs.head?, ∀ n, ¬ HexDigit c n) : BadEscape 'u' (digits ++ cs) := by
  refine ⟨by decide, fun es v he hp => ?_⟩
  cases he with
  | short he =>
    obtain ⟨rfl, -⟩ := List.cons_prefix_cons.1 hp
    cases he
  | @unicode a b c d i j k l v ha hb hc hd hv =>
    have hex : ∀ x ∈ [a, b, c, d], ∃ n, HexDigit x n := by
      simp only [List.forall_mem_cons]
      exact ⟨⟨i, ha⟩, ⟨j, hb⟩, ⟨k, hc⟩, ⟨l, hd⟩, nofun⟩
    have four := (List.cons_prefix_cons.1 hp).2
    -- So the first character behind the digits would be one of the four.
    obtain ⟨more, split⟩ : digits <+: [a, b, c, d] :=
      List.prefix_of_prefix_length_le (List.prefix_append _ _) four (Nat.le_of_lt short)
    rw [← split] at four hex
    cases more with
    | nil =>
      have length := congrArg List.length split
      simp at length
      omega
    | cons x more =>
      obtain ⟨rest, rfl⟩ := (List.prefix_append_right_inj digits).1 four
      obtain ⟨n, hn⟩ := hex x (by simp)
      exact ends x rfl n hn

/-- No character is a surrogate. -/
lemma toNat_not_surrogate (v : Char) : ¬ (0xd800 ≤ v.toNat ∧ v.toNat ≤ 0xdfff) := by
  rintro ⟨low, high⟩
  have valid : v.toNat < 0xd800 ∨ 0xdfff < v.toNat ∧ v.toNat < 0x110000 := v.valid
  omega

/-- An escape that is misspelt is a bad one. -/
lemma Misspelt.badEscape {letter : Char} {cs : List Char} (h : Misspelt letter cs) :
    BadEscape letter cs := by
  cases h with
  | letter code newline meaning =>
    refine ⟨newline, fun es v he hp => ?_⟩
    cases he with
    | short he =>
      obtain ⟨rfl, -⟩ := List.cons_prefix_cons.1 hp
      exact meaning v he
    | unicode _ _ _ _ _ => exact code (List.cons_prefix_cons.1 hp).1.symm
  | @digit digits c cs short _ other =>
    refine badEscape_of_digits short ?_
    rintro _ ⟨⟩
    exact other
  | surrogate ha hb hc hd low high =>
    refine ⟨by decide, fun es v he hp => ?_⟩
    cases he with
    | short he =>
      obtain ⟨rfl, -⟩ := List.cons_prefix_cons.1 hp
      cases he
    | unicode ha' hb' hc' hd' hv =>
      simp only [List.cons_prefix_cons] at hp
      obtain ⟨-, rfl, rfl, rfl, rfl, -⟩ := hp
      obtain rfl := ha.unique ha'
      obtain rfl := hb.unique hb'
      obtain rfl := hc.unique hc'
      obtain rfl := hd.unique hd'
      exact toNat_not_surrogate v ⟨hv ▸ low, hv ▸ high⟩

/-! ## Literals in a text -/

variable {p : Position} {spelling value rest : List Char} {items : List Item}

/-- A quote is apart from the lexeme in front of it. -/
lemma apart_quote (cs : List Char) : Apart ('"' :: cs) := by
  rintro _ ⟨⟩
  exact .inr (.inr rfl)

/-- A quote begins neither a blank nor a comment. -/
lemma bare_quote (cs : List Char) : Bare ('"' :: cs) := by
  refine ⟨?_, fun hp => absurd (List.cons_prefix_cons.1 hp).1 (by decide)⟩
  rintro _ ⟨⟩
  decide

/-- No string is longer than the one that the first closing quote ends. -/
lemma StringBody.longest (h : StringBody spelling value) (rest : List Char) :
    Longest ('"' :: (spelling ++ ['"']) ++ rest) ('"' :: (spelling ++ ['"']))
      (some (.string (String.ofList value))) :=
  (scanSymbol_eq_token_iff.1 (scanSymbol_string h rest)).2

/-- A lexeme that is a string is written as a literal that spells it. -/
lemma Lexeme.exists_spelling {front : List Char} {value : String}
    (h : Lexeme front (some (.string value))) :
    ∃ spelling, front = '"' :: (spelling ++ ['"']) ∧ StringBody spelling value.toList := by
  generalize hk : some (Kind.string value) = k at h
  cases h with
  | number _ => simp at hk
  | @string spelling _ body =>
    cases hk
    rw [String.toList_ofList]
    exact ⟨spelling, rfl, body⟩
  | _ => cases hk

/-- A literal is one token, and the text behind it is read from its closing quote on. -/
lemma StringBody.tiles (h : StringBody spelling value)
    (behind : Tiles (p.after ('"' :: (spelling ++ ['"']))) rest items) :
    Tiles p ('"' :: (spelling ++ ['"']) ++ rest)
      (.ok ⟨.string (String.ofList value), String.ofList ('"' :: (spelling ++ ['"'])), p⟩ ::
        items) := by
  have tiles := Tiles.token Gap.nil (bare_quote _) (h.longest rest) behind
  exact tiles

/-- What is wrong behind a quote ends the items. -/
lemma Fault.tiles_quote {cs before : List Char} {reason : LexReason}
    (h : Fault ('"' :: cs) before reason) (p : Position) :
    Tiles p ('"' :: cs) [.error ⟨p.after before, reason⟩] := by
  have tiles := @Tiles.fault p _ _ _ _ Gap.nil (bare_quote cs) h
  exact tiles

/-- The tokens of the text in front, and then what is made of the text behind a quote. -/
lemma tokenize_quote {front cs : List Char} {ts : List Token}
    (read : tokenize (String.ofList front) = (ts ++ [Token.endAt p]).map .ok)
    (behind : Tiles p ('"' :: cs) items) :
    tokenize (String.ofList (front ++ '"' :: cs)) = ts.map .ok ++ items := by
  rw [tokenize_append read (apart_quote cs), items_of_tiles behind]

/-- At every place that the scanner comes to, a literal is read as the one string that it spells,
and a literal with a misspelt escape as an error at the backslash of the first such escape. And
every string of a text is written as a literal that spells it. -/
theorem string_literals_decoded :
    (∀ front ts p, tokenize (String.ofList front) = (ts ++ [Token.endAt p]).map .ok →
      (∀ spelling value rest, StringBody spelling value →
        let literal := '"' :: (spelling ++ ['"'])
        tokenize (String.ofList (front ++ (literal ++ rest))) = ts.map .ok ++
          .ok ⟨.string (String.ofList value), String.ofList literal, p⟩ ::
            (Scanner.mk (p.after literal) (some rest)).items) ∧
      ∀ spelling value letter rest, StringBody spelling value → Misspelt letter rest →
        tokenize (String.ofList (front ++ '"' :: (spelling ++ '\\' :: letter :: rest))) =
          ts.map .ok ++ [.error ⟨p.after ('"' :: spelling), .invalidEscape letter⟩]) ∧
    ∀ source t value, .ok t ∈ tokenize source → t.kind = .string value →
      ∃ spelling, t.lexeme.toList = '"' :: (spelling ++ ['"']) ∧
        StringBody spelling value.toList := by
  refine ⟨fun front ts p read => ⟨?_, ?_⟩, ?_⟩
  · intro spelling value rest body
    exact tokenize_quote read (body.tiles (tiles_items _ rest))
  · intro spelling value letter rest body wrong
    have fault := Fault.invalidEscape body wrong.badEscape
    exact tokenize_quote read (fault.tiles_quote p)
  · intro source t value ht hk
    have lexeme := (tiles_tokenize source).lexeme ht (by simp [hk])
    rw [hk] at lexeme
    exact lexeme.exists_spelling

/-- A capital letter by its code point and a slash by a short escape, between the parentheses of a
call. With a surrogate in front of an unknown letter, the surrogate is the error. -/
theorem literals_in_call :
    let opened : List Token :=
      [⟨.word "f", "f", ⟨0, 1, 1⟩⟩, ⟨.mark .leftParen, "(", ⟨1, 1, 2⟩⟩]
    let closing : List Token := [⟨.mark .rightParen, ")", ⟨12, 1, 13⟩⟩, .endAt ⟨13, 1, 14⟩]
    tokenize "f(\"\\u004a\\/\")" = opened.map .ok ++
      .ok ⟨.string "J/", "\"\\u004a\\/\"", ⟨2, 1, 3⟩⟩ :: closing.map .ok ∧
    tokenize "f(\"é\\ud800\\q\")" = opened.map .ok ++
      [.error ⟨⟨5, 1, 5⟩, .invalidEscape 'u'⟩] := by
  intro opened closing
  have read : tokenize (String.ofList "f(".toList) =
      (opened ++ [Token.endAt ⟨2, 1, 3⟩]).map .ok := by decide +kernel
  obtain ⟨decoded, wrong⟩ := string_literals_decoded.1 _ _ _ read
  constructor
  · have code : Escape "u004a".toList 'J' :=
      .unicode (i := 0) (j := 0) (k := 4) (l := 10) (.inl rfl) (.inl rfl) (.inl rfl) (.inl rfl) rfl
    have body : StringBody "\\u004a\\/".toList "J/".toList :=
      .escape code (.escape (.short .slash) .nil)
    have text : "f(\"\\u004a\\/\")" =
        String.ofList ("f(".toList ++ ('"' :: ("\\u004a\\/".toList ++ ['"']) ++ [')'])) := by
      decide +kernel
    have rest : (Scanner.mk ⟨12, 1, 13⟩ (some [')'])).items = closing.map .ok := by decide +kernel
    rw [text, ← rest]
    exact decoded _ _ [')'] body
  · have surrogate : Misspelt 'u' "d800\\q\")".toList :=
      .surrogate (i := 13) (j := 8) (k := 0) (l := 0) (.inl rfl) (.inl rfl) (.inl rfl) (.inl rfl)
        (by decide) (by decide)
    have body : StringBody ['é'] ['é'] := .plain (by decide) (by decide) (by decide) .nil
    have text : "f(\"é\\ud800\\q\")" =
        String.ofList ("f(".toList ++ '"' :: (['é'] ++ '\\' :: 'u' :: "d800\\q\")".toList)) := by
      decide +kernel
    rw [text]
    exact wrong _ _ _ _ body surrogate

end Quill
