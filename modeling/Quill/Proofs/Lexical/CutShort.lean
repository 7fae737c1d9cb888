import Quill.Proofs.Lexical.Escapes

/-!
# Literals cut short

What becomes of a string literal when the text or the line ends inside it. It is reported at its
opening quote as a literal without an end, also right behind a backslash. Only where a `u` and fewer
than four digits are left of an escape, the escape is what is reported, at its backslash
(`cut_literal_unterminated_iff`).
-/

namespace Quill

/-- The text ends, or the line does. -/
inductive LineEnd : List Char → Prop where
  | text : LineEnd []
  | newline {cs} : LineEnd ('\n' :: cs)

/-- What is left of a literal ends in an escape by code point, with fewer than four characters
behind its `u`. In front of its backslash stands `before`. -/
inductive EndsInCode : List Char → List Char → Prop where
  | intro {spelling value digits} :
    StringBody spelling value →
    digits.length < 4 →
    EndsInCode ('"' :: (spelling ++ '\\' :: 'u' :: digits)) ('"' :: spelling)

/-! ## What is left -/

/-- A part in front of an escape is nothing, or a `u` with some of its digits. -/
lemma Escape.of_prefix {es part : List Char} {v : Char} (h : Escape es v) (hp : part <+: es)
    (shorter : part.length < es.length) :
    part = [] ∨ ∃ digits, part = 'u' :: digits ∧ digits.length < 4 := by
  cases part with
  | nil => exact .inl rfl
  | cons x digits =>
    cases h with
    | short _ => simp at shorter
    | unicode _ _ _ _ _ =>
      obtain ⟨rfl, -⟩ := List.cons_prefix_cons.1 hp
      exact .inr ⟨digits, rfl, Nat.lt_of_succ_lt_succ shorter⟩

/-- A part in front of what may stand in a literal may stand in one up to its last escape, if that
one is cut. -/
lemma StringBody.of_prefix {spelling value part : List Char} (h : StringBody spelling value)
    (hp : part <+: spelling) :
    ∃ whole value' last, part = whole ++ last ∧ StringBody whole value' ∧
      (last = [] ∨ last = ['\\'] ∨ ∃ digits, last = '\\' :: 'u' :: digits ∧ digits.length < 4) := by
  induction h generalizing part with
  | nil =>
    obtain rfl := List.prefix_nil.1 hp
    exact ⟨[], [], [], rfl, .nil, .inl rfl⟩
  | @plain c cs vs quote backslash newline _ ih =>
    cases part with
    | nil => exact ⟨[], [], [], rfl, .nil, .inl rfl⟩
    | cons x part =>
      obtain ⟨rfl, inside⟩ := List.cons_prefix_cons.1 hp
      obtain ⟨whole, value', last, rfl, body, hlast⟩ := ih inside
      exact ⟨x :: whole, x :: value', last, rfl, .plain quote backslash newline body, hlast⟩
  | @escape es v cs vs he _ ih =>
    cases part with
    | nil => exact ⟨[], [], [], rfl, .nil, .inl rfl⟩
    | cons x part =>
      obtain ⟨rfl, inside⟩ := List.cons_prefix_cons.1 hp
      -- The part ends inside this escape, or goes on behind it.
      obtain shorter | longer := Nat.lt_or_ge part.length es.length
      · have cut := List.prefix_of_prefix_length_le inside (List.prefix_append es cs) shorter.le
        obtain rfl | ⟨digits, rfl, few⟩ := he.of_prefix cut shorter
        · exact ⟨[], [], _, rfl, .nil, .inr (.inl rfl)⟩
        · exact ⟨[], [], _, rfl, .nil, .inr (.inr ⟨digits, rfl, few⟩)⟩
      · obtain ⟨part, rfl⟩ := List.prefix_of_prefix_length_le (List.prefix_append es cs) inside longer
        obtain ⟨whole, value', last, rfl, body, hlast⟩ :=
          ih ((List.prefix_append_right_inj es).1 inside)
        exact ⟨'\\' :: (es ++ whole), v :: value', last, by simp, .escape he body, hlast⟩

/-- The end of a line breaks a literal off. -/
lemma LineEnd.breaksOff {cs : List Char} (h : LineEnd cs) : BreaksOff cs := by
  cases h with
  | text => exact .atEnd
  | newline => exact .atNewline

/-- The end of a line breaks a literal off right behind a backslash too. -/
lemma LineEnd.breaksOff_backslash {cs : List Char} (h : LineEnd cs) : BreaksOff ('\\' :: cs) := by
  cases h with
  | text => exact .escapeAtEnd
  | newline => exact .escapeAtNewline

/-- Neither the end of a line nor the end of the text is a digit. -/
lemma LineEnd.no_digit {cs : List Char} (h : LineEnd cs) :
    ∀ c ∈ cs.head?, ∀ n, ¬ HexDigit c n := by
  cases h with
  | text => nofun
  | newline =>
    rintro _ ⟨⟩ n hn
    exact hn.ne_newline rfl

/-! ## What is reported -/

section

variable {spelling value cut ending : List Char}

/-- An escape by code point that is cut is a bad escape. -/
lemma EndsInCode.fault {before : List Char} (h : EndsInCode cut before) (ends : LineEnd ending) :
    Fault (cut ++ ending) before (.invalidEscape 'u') := by
  cases h with
  | @intro spelling value digits body few =>
    have fault := Fault.invalidEscape body (badEscape_of_digits few ends.no_digit)
    simpa using fault

/-- A part in front of a literal ends in an escape by code point, or breaks off. -/
lemma StringBody.fault_of_cut (body : StringBody spelling value)
    (isPart : cut <+: '"' :: (spelling ++ ['"'])) (nonempty : cut ≠ [])
    (proper : cut ≠ '"' :: (spelling ++ ['"'])) (ends : LineEnd ending) :
    (∃ before, EndsInCode cut before) ∨ Fault (cut ++ ending) [] .unterminatedString := by
  obtain ⟨c, part, rfl⟩ := List.exists_cons_of_ne_nil nonempty
  obtain ⟨rfl, hp⟩ := List.cons_prefix_cons.1 isPart
  obtain rfl | inside := List.prefix_concat_iff.1 hp
  · exact absurd rfl proper
  · obtain ⟨whole, value', last, rfl, whole_body, rfl | rfl | ⟨digits, rfl, few⟩⟩ :=
      body.of_prefix inside
    · have fault := Fault.unterminatedString whole_body ends.breaksOff
      exact .inr (by simpa using fault)
    · have fault := Fault.unterminatedString whole_body ends.breaksOff_backslash
      exact .inr (by simpa using fault)
    · exact .inl ⟨_, .intro whole_body few⟩

end

/-- A literal that the end of the text or of the line cuts short is reported as one without an end,
at its opening quote, unless it is cut in an escape by code point. Then a bad escape is reported, at
its backslash. -/
theorem cut_literal_unterminated_iff {front : List Char} {ts : List Token} {p : Position}
    (read : tokenize (String.ofList front) = (ts ++ [Token.endAt p]).map .ok)
    {spelling value cut ending : List Char} (body : StringBody spelling value)
    (isPart : cut <+: '"' :: (spelling ++ ['"'])) (nonempty : cut ≠ [])
    (proper : cut ≠ '"' :: (spelling ++ ['"'])) (ends : LineEnd ending) :
    (tokenize (String.ofList (front ++ (cut ++ ending))) =
        ts.map .ok ++ [.error ⟨p, .unterminatedString⟩] ↔ ¬ ∃ before, EndsInCode cut before) ∧
    ∀ before, EndsInCode cut before →
      tokenize (String.ofList (front ++ (cut ++ ending))) =
        ts.map .ok ++ [.error ⟨p.after before, .invalidEscape 'u'⟩] := by
  obtain ⟨part, rfl⟩ : ∃ part, cut = '"' :: part := by
    obtain ⟨c, part, rfl⟩ := List.exists_cons_of_ne_nil nonempty
    exact ⟨part, by rw [(List.cons_prefix_cons.1 isPart).1]⟩
  have inCode : ∀ before, EndsInCode ('"' :: part) before →
      tokenize (String.ofList (front ++ '"' :: (part ++ ending))) =
        ts.map .ok ++ [.error ⟨p.after before, .invalidEscape 'u'⟩] :=
    fun before h => tokenize_quote read ((h.fault ends).tiles_quote p)
  refine ⟨⟨?_, fun no_code => ?_⟩, inCode⟩
  · rintro unterminated ⟨before, code⟩
    have same := List.append_cancel_left ((inCode before code).symm.trans unterminated)
    simp at same
  · obtain code | fault := body.fault_of_cut isPart nonempty proper ends
    · exact absurd code no_code
    · exact tokenize_quote read (fault.tiles_quote p)

/-! ## Cut in an escape, and behind a backslash -/

/-- A letter by its code point. -/
lemma body_codePoint : StringBody "\\u004a".toList ['J'] := by
  have code : Escape "u004a".toList 'J' :=
    .unicode (i := 0) (j := 0) (k := 4) (l := 10) (.inl rfl) (.inl rfl) (.inl rfl) (.inl rfl) rfl
  exact .escape code .nil

/-- The quote, the backslash and the `u` are there. -/
lemma EndsInCode.three_le_length {cut before : List Char} (h : EndsInCode cut before) :
    3 ≤ cut.length := by
  cases h
  simp only [List.length_cons, List.length_append]
  omega

/-- Cut behind its backslash, a literal has no end. Cut behind two of its digits, it has a bad
escape. -/
theorem cut_codePoint :
    tokenize "print \"\\" =
      [.ok ⟨.word "print", "print", ⟨0, 1, 1⟩⟩, .error ⟨⟨6, 1, 7⟩, .unterminatedString⟩] ∧
    tokenize "print \"\\u00\n4a\"" =
      [.ok ⟨.word "print", "print", ⟨0, 1, 1⟩⟩, .error ⟨⟨7, 1, 8⟩, .invalidEscape 'u'⟩] := by
  let ts : List Token := [⟨.word "print", "print", ⟨0, 1, 1⟩⟩]
  have read : tokenize (String.ofList "print ".toList) =
      (ts ++ [Token.endAt ⟨6, 1, 7⟩]).map .ok := by decide +kernel
  constructor
  · have isPart : "\"\\".toList <+: '"' :: ("\\u004a".toList ++ ['"']) := by decide
    have cut := cut_literal_unterminated_iff read body_codePoint isPart (by decide) (by decide) .text
    refine cut.1.2 ?_
    rintro ⟨_, code⟩
    exact absurd code.three_le_length (by decide)
  · have isPart : "\"\\u00".toList <+: '"' :: ("\\u004a".toList ++ ['"']) := by decide
    have ends : LineEnd "\n4a\"".toList := .newline
    have cut := cut_literal_unterminated_iff read body_codePoint isPart (by decide) (by decide) ends
    exact cut.2 ['"'] (.intro .nil (by decide))

/-- Not every literal that is cut short is reported as one without an end. -/
theorem not_every_cut_unterminated :
    ¬ ∀ spelling value cut ending, StringBody spelling value →
      cut <+: '"' :: (spelling ++ ['"']) → cut ≠ [] → cut ≠ '"' :: (spelling ++ ['"']) →
      LineEnd ending →
      tokenizeAll (String.ofList (cut ++ ending)) = .error ⟨.start, .unterminatedString⟩ := by
  intro always
  have unterminated := always _ _ "\"\\u00".toList [] body_codePoint (by decide) (by decide)
    (by decide) .text
  revert unterminated
  decide +kernel

end Quill
