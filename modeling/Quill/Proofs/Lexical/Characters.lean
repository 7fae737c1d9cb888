import Mathlib.Tactic.Common
import Quill.Proofs.Lexical.Lexeme
import Quill.Proofs.Lexical.Trivia

/-!
# What lexemes are made of

A lexeme lies on one line, and blanks stand in it only between quotes. So no lexeme goes on across
the trivia behind another one: the longest lexeme in front of a text stays the longest when the text
is cut off behind it, and any lexeme is the longest when trivia or nothing stands behind it.
-/

namespace Quill

variable {front : List Char} {k : Option Kind}

/-- A printable character of ASCII, and no space. -/
def Graphic (c : Char) : Prop :=
  33 ≤ c.toNat ∧ c.toNat ≤ 126

/-- Whether a character is graphic can be computed. -/
instance : DecidablePred Graphic :=
  fun c => inferInstanceAs (Decidable (33 ≤ c.toNat ∧ c.toNat ≤ 126))

/-- A graphic character is no blank. -/
lemma Graphic.not_blank {c : Char} (h : Graphic c) : isBlank c = false := by
  obtain ⟨low, high⟩ := h
  simp only [isBlank, inRanges, blankRanges, List.any_cons, List.any_nil, Bool.or_false,
    Bool.or_eq_false_iff, Bool.and_eq_false_iff, decide_eq_false_iff_not]
  omega

/-- A graphic character is no line feed. -/
lemma Graphic.ne_newline {c : Char} (h : Graphic c) : c ≠ '\n' := by
  rintro rfl
  exact absurd h.1 (by decide)

/-- Letters and digits are graphic. -/
lemma graphic_of_isAlphanum {c : Char} (h : c.isAlphanum = true) : Graphic c := by
  obtain alpha | digit := Bool.or_eq_true_iff.1 h
  · obtain upper | lower := Bool.or_eq_true_iff.1 alpha
    · have bounds : 65 ≤ c.toNat ∧ c.toNat ≤ 90 := of_decide_eq_true upper
      exact ⟨by omega, by omega⟩
    · have bounds : 97 ≤ c.toNat ∧ c.toNat ≤ 122 := by
        obtain ⟨low, high⟩ := Bool.and_eq_true_iff.1 lower
        exact ⟨of_decide_eq_true low, of_decide_eq_true high⟩
      exact ⟨by omega, by omega⟩
  · have bounds := digit_bounds digit
    exact ⟨by omega, by omega⟩

/-! ## The characters of each class -/

/-- The character can stand behind the first of a lexeme that is no string. -/
def Inner (c : Char) : Prop :=
  Graphic c ∧ c ≠ '('

/-- Whether a character can stand inside a lexeme can be computed. -/
instance : DecidablePred Inner :=
  fun c => inferInstanceAs (Decidable (Graphic c ∧ c ≠ '('))

/-- Letters and digits can stand inside a lexeme. -/
lemma inner_of_isAlphanum {c : Char} (h : c.isAlphanum = true) : Inner c := by
  refine ⟨graphic_of_isAlphanum h, ?_⟩
  rintro rfl
  revert h
  decide

/-- The characters of a word can stand inside a lexeme. -/
lemma inner_of_isWordChar {c : Char} (h : isWordChar c = true) : Inner c := by
  rw [isWordChar, Bool.or_eq_true, beq_iff_eq] at h
  obtain h | rfl := h
  · exact inner_of_isAlphanum h
  · decide

/-- What begins a word can stand in one. -/
lemma isWordChar_of_isWordStart {c : Char} (h : isWordStart c = true) : isWordChar c = true := by
  rw [isWordStart, Bool.or_eq_true] at h
  rw [isWordChar, Char.isAlphanum, Bool.or_eq_true, Bool.or_eq_true]
  exact h.imp_left .inl

section

variable {P : Char → Prop}

/-- What holds of every digit and of the marks of an exponent holds of the characters of an
exponent. -/
lemma Exponent.IsLiteral.forall_mem_spell {e : Exponent} (h : e.IsLiteral)
    (digit : ∀ c, c.isDigit = true → P c) (mark : ∀ c ∈ ['e', 'E', '+', '-'], P c) :
    ∀ c ∈ e.spell, P c := by
  refine List.forall_mem_cons.2 ⟨?_, List.forall_mem_append.2 ⟨?_, ?_⟩⟩
  · obtain letter | letter := h.mark <;> exact mark _ (by simp [letter])
  · obtain sign | sign | sign := h.sign <;> rw [sign]
    · nofun
    · exact List.forall_mem_singleton.2 (mark _ (by simp))
    · exact List.forall_mem_singleton.2 (mark _ (by simp))
  · exact fun c hc => digit c (h.digits c hc)

/-- A number literal is digits, the point, the letter of the exponent and its sign. -/
lemma Decimal.IsLiteral.forall_mem_spell {d : Decimal} (h : d.IsLiteral)
    (digit : ∀ c, c.isDigit = true → P c) (mark : ∀ c ∈ ['.', 'e', 'E', '+', '-'], P c) :
    ∀ c ∈ d.spell, P c := by
  obtain ⟨_, whole, fraction, exponent⟩ := d
  obtain ⟨rfl, hw, hf, _, he⟩ := h
  obtain ⟨point, letters⟩ := List.forall_mem_cons.1 mark
  refine List.forall_mem_append.2 ⟨List.forall_mem_append.2 ⟨fun c hc => digit c (hw c hc), ?_⟩, ?_⟩
  · cases fraction with
    | none => nofun
    | some ds => exact List.forall_mem_cons.2 ⟨point, fun c hc => digit c (hf ds rfl c hc)⟩
  · cases exponent with
    | none => nofun
    | some e => exact (he e rfl).forall_mem_spell digit letters

end

/-- The characters of a number can stand inside a lexeme. -/
lemma Decimal.IsLiteral.inner {d : Decimal} (h : d.IsLiteral) : ∀ c ∈ d.spell, Inner c := by
  refine h.forall_mem_spell (fun c hc => inner_of_isAlphanum ?_) (by simp [Inner, Graphic])
  rw [Char.isAlphanum, hc, Bool.or_true]

/-- The characters of an operator can stand inside a lexeme. -/
lemma operator_inner (op : Operator) : ∀ c ∈ op.text.toList, Inner c := by
  cases op <;> simp [Operator.text, Inner, Graphic]

/-- The character of a mark is graphic. -/
lemma mark_graphic {c : Char} {m : Mark} (h : Mark.ofChar? c = some m) : Graphic c := by
  unfold Mark.ofChar? at h
  split at h
  all_goals first | decide | cases h

/-- A lexeme is a string, or one character with no blank and no parenthesis behind it. -/
lemma Lexeme.cases_string (h : Lexeme front k) :
    (∃ spelling value, front = '"' :: (spelling ++ ['"']) ∧ StringBody spelling value) ∨
      ∃ c cs, front = c :: cs ∧ c ≠ '"' ∧ Graphic c ∧ ∀ x ∈ cs, Inner x := by
  cases h with
  | string body => exact .inl ⟨_, _, rfl, body⟩
  | @number d hd =>
    obtain ⟨c, cs, spell, first⟩ := hd.head
    have inner := hd.inner
    rw [spell] at inner ⊢
    obtain ⟨hc, hcs⟩ := List.forall_mem_cons.1 inner
    refine .inr ⟨c, cs, rfl, ?_, hc.1, hcs⟩
    rintro rfl
    revert first
    decide
  | word hc hcs =>
    exact .inr ⟨_, _, rfl, (symbolic_of_isWordStart hc).quote,
      (inner_of_isWordChar (isWordChar_of_isWordStart hc)).1,
      fun x hx => inner_of_isWordChar (hcs x hx)⟩
  | operator op =>
    obtain ⟨c, cs, text, symbolic, _⟩ := operator_head op
    have inner := operator_inner op
    rw [text] at inner ⊢
    obtain ⟨hc, hcs⟩ := List.forall_mem_cons.1 inner
    exact .inr ⟨c, cs, rfl, symbolic.quote, hc.1, hcs⟩
  | mark m =>
    obtain ⟨c, text, symbolic, _, is_mark⟩ := mark_head m
    exact .inr ⟨c, [], text, symbolic.quote, mark_graphic is_mark, nofun⟩

/-- The character begins no string and closes no comment. -/
def Unquoted (c : Char) : Prop :=
  c ≠ '"' ∧ c ≠ '#'

/-- Whether a character is unquoted can be computed. -/
instance : DecidablePred Unquoted :=
  fun c => inferInstanceAs (Decidable (c ≠ '"' ∧ c ≠ '#'))

/-- The characters of a word are unquoted. -/
lemma unquoted_of_isWordChar {c : Char} (h : isWordChar c = true) : Unquoted c := by
  constructor
  · rintro rfl
    revert h
    decide
  · rintro rfl
    revert h
    decide

/-- The characters of an operator are unquoted. -/
lemma operator_unquoted (op : Operator) : ∀ c ∈ op.text.toList, Unquoted c := by
  cases op <;> simp [Operator.text, Unquoted]

/-- The character of a mark is unquoted. -/
lemma mark_unquoted (m : Mark) : ∀ c ∈ m.text.toList, Unquoted c := by
  cases m <;> simp [Mark.text, Unquoted]

/-- Quotes and number signs stand in no lexeme but a string. -/
lemma Lexeme.string_or_unquoted (h : Lexeme front k) :
    (∃ spelling value, front = '"' :: (spelling ++ ['"']) ∧
      k = some (.string (String.ofList value)) ∧ StringBody spelling value) ∨
      ∀ c ∈ front, Unquoted c := by
  cases h with
  | string body => exact .inl ⟨_, _, rfl, rfl, body⟩
  | number hd =>
    refine .inr (hd.forall_mem_spell (fun c hc => unquoted_of_isWordChar ?_) (by simp [Unquoted]))
    rw [isWordChar, Char.isAlphanum, hc, Bool.or_true, Bool.true_or]
  | word hc hcs =>
    refine .inr (List.forall_mem_cons.2 ⟨?_, fun x hx => unquoted_of_isWordChar (hcs x hx)⟩)
    exact unquoted_of_isWordChar (isWordChar_of_isWordStart hc)
  | operator op => exact .inr (operator_unquoted op)
  | mark m => exact .inr (mark_unquoted m)

/-! ## Lines -/

/-- The letter of a short escape is no line feed. -/
lemma ShortEscape.ne_newline {e v : Char} (h : ShortEscape e v) : e ≠ '\n' := by
  cases h <;> decide

/-- A hexadecimal digit is no line feed. -/
lemma HexDigit.ne_newline {c : Char} {n : Nat} (h : HexDigit c n) : c ≠ '\n' := by
  rintro rfl
  obtain h | h := h
  · exact absurd (List.mem_of_getElem? h) (by decide)
  · exact absurd (List.mem_of_getElem? h) (by decide)

/-- There is no line feed in an escape. -/
lemma Escape.newline_notMem {es : List Char} {v : Char} (h : Escape es v) : '\n' ∉ es := by
  cases h with
  | short h => simpa using h.ne_newline.symm
  | unicode ha hb hc hd _ =>
    simp [ha.ne_newline.symm, hb.ne_newline.symm, hc.ne_newline.symm, hd.ne_newline.symm]

/-- There is no line feed between the quotes of a string. -/
lemma StringBody.newline_notMem {spelling value : List Char} (h : StringBody spelling value) :
    '\n' ∉ spelling := by
  induction h with
  | nil => exact List.not_mem_nil
  | plain _ _ newline _ ih => simp [newline.symm, ih]
  | escape he _ ih => simp [he.newline_notMem, ih]

/-- A lexeme lies on one line. -/
theorem Lexeme.newline_notMem (h : Lexeme front k) : '\n' ∉ front := by
  obtain ⟨spelling, value, rfl, body⟩ | ⟨c, cs, rfl, _, hc, hcs⟩ := h.cases_string
  · simp [body.newline_notMem]
  · intro mem
    cases mem with
    | head => exact hc.ne_newline rfl
    | tail _ mem => exact (hcs _ mem).1.ne_newline rfl

/-! ## What stands behind a lexeme -/

/-- A text that is cut off begins with no more than it did. -/
lemma Longest.of_prefix {cs cs' : List Char} (h : Longest cs front k) (hf : front <+: cs')
    (hcs : cs' <+: cs) : Longest cs' front k where
  isPrefix := hf
  lexeme := h.lexeme
  length_le other k' ho := h.length_le other k' (ho.trans hcs)

/-- A text is bare if one is that goes on with it. -/
lemma Bare.of_prefix {cs cs' : List Char} (h : Bare cs) (hcs : cs' <+: cs) : Bare cs' where
  blank c hc := by
    obtain ⟨rest, rfl⟩ := hcs
    refine h.blank c ?_
    cases cs' with
    | nil => cases hc
    | cons _ _ => exact hc
  comment hp := h.comment (hp.trans hcs)

/-- Nothing comes next, or a blank or a parenthesis. -/
def Separated (cs : List Char) : Prop :=
  ∀ c ∈ cs.head?, isBlank c = true ∨ c = '('

/-- Trivia begin with a blank or a parenthesis, or are empty. -/
lemma separated_of_gap {gap : List Char} (h : Gap gap) : Separated gap := by
  rintro c hc
  cases h with
  | nil => cases hc
  | blank blank _ =>
    cases hc
    exact .inl blank
  | comment _ _ =>
    cases hc
    exact .inr rfl

/-- A separated text that is not empty stays separated, whatever comes behind it. -/
lemma Separated.append {cs : List Char} (h : Separated cs) (ne : cs ≠ []) (rest : List Char) :
    Separated (cs ++ rest) := by
  obtain ⟨c, cs, rfl⟩ := List.exists_cons_of_ne_nil ne
  exact h

/-- Only the mark begins with a parenthesis. -/
lemma Lexeme.eq_leftParen {cs : List Char} (h : Lexeme ('(' :: cs) k) : cs = [] := by
  generalize text : '(' :: cs = front at h
  cases h with
  | number hd =>
    obtain ⟨c, _, spell, first⟩ := hd.head
    rw [spell] at text
    obtain ⟨rfl, rfl⟩ := List.cons.inj text
    exact absurd first (by decide)
  | string _ => cases text
  | word hc _ =>
    cases text
    exact absurd hc (by decide)
  | operator op => cases op <;> cases text
  | mark m =>
    cases m <;> cases text
    rfl

/-- Nothing comes next, or a character that is part of no lexeme but a string, or begins one. -/
def Apart (cs : List Char) : Prop :=
  ∀ c ∈ cs.head?, isBlank c = true ∨ c = '(' ∨ c = '"'

/-- What is separated from a lexeme is apart from it. -/
lemma Separated.apart {cs : List Char} (h : Separated cs) : Apart cs :=
  fun c hc => (h c hc).imp_right .inl

/-- A text that is apart does not begin with `#`. -/
lemma Apart.head_ne_sign {cs : List Char} (h : Apart cs) : cs.head? ≠ some '#' :=
  fun sign => absurd (h '#' sign) (by decide)

/-- What is no trivia stays none, unless a number sign is behind it. -/
lemma Bare.append {cs rest : List Char} (h : Bare cs) (ne : cs ≠ [])
    (head : rest.head? ≠ some '#') : Bare (cs ++ rest) := by
  obtain ⟨c, cs, rfl⟩ := List.exists_cons_of_ne_nil ne
  refine ⟨h.blank, ?_⟩
  rintro ⟨after, text⟩
  obtain ⟨rfl, tail⟩ := List.cons.inj text
  cases cs with
  | nil =>
    -- A parenthesis begins a comment with the number sign behind it.
    exact head (congrArg List.head? tail).symm
  | cons c' cs =>
    obtain ⟨rfl, _⟩ := List.cons.inj tail
    exact h.comment ⟨cs, rfl⟩

/-- A lexeme is no trivia, unless a number sign is behind it. -/
lemma Lexeme.bare_of_head (h : Lexeme front k) {rest : List Char} (head : rest.head? ≠ some '#') :
    Bare (front ++ rest) := by
  have alone : Bare front := by
    refine ⟨fun c hc => ?_, ?_⟩
    · obtain ⟨spelling, value, rfl, _⟩ | ⟨c', cs, rfl, _, graphic, _⟩ := h.cases_string
      · cases hc
        decide
      · cases hc
        exact graphic.not_blank
    · rintro ⟨after, rfl⟩
      exact List.cons_ne_nil _ _ h.eq_leftParen
  exact alone.append h.ne_nil head

/-- In front of what separates it from the next one, a lexeme is no trivia. -/
theorem Lexeme.bare (h : Lexeme front k) {rest : List Char} (hr : Separated rest) :
    Bare (front ++ rest) :=
  h.bare_of_head hr.apart.head_ne_sign

/-- Two strings in front of one text are the same. -/
lemma StringBody.unique {spelling value rest spelling' value' rest' : List Char}
    (h : StringBody spelling value) (h' : StringBody spelling' value')
    (text : spelling ++ '"' :: rest = spelling' ++ '"' :: rest') : spelling = spelling' := by
  have closed : scanString (spelling ++ '"' :: rest) = .closed value ⟨spelling ++ ['"'], rest⟩ :=
    scanString_eq_closed_iff.2 ⟨by simp [Cut.text], spelling, h, rfl⟩
  have closed' : scanString (spelling' ++ '"' :: rest') =
      .closed value' ⟨spelling' ++ ['"'], rest'⟩ :=
    scanString_eq_closed_iff.2 ⟨by simp [Cut.text], spelling', h', rfl⟩
  rw [text, closed'] at closed
  have cuts := congrArg Cut.taken (StringScan.closed.inj closed).2
  exact (List.append_cancel_right cuts).symm

/-- A lexeme that goes on behind another one is no string, and goes on with nothing that separates
the two. -/
lemma Lexeme.inner_behind (h : Lexeme front k) {more : List Char} {k' : Option Kind}
    (h' : Lexeme (front ++ more) k') : ∀ x ∈ more, Inner x ∧ x ≠ '"' := by
  obtain ⟨f, fs, rfl⟩ := List.exists_cons_of_ne_nil h.ne_nil
  obtain unquoted | ⟨spelling', value', text, -, body'⟩ := h'.string_or_unquoted.symm
  · obtain ⟨_, _, text, _⟩ | ⟨c, cs, text, _, _, inner⟩ := h'.cases_string
    · exact absurd rfl (unquoted '"' (text ▸ List.mem_cons_self)).1
    · obtain ⟨rfl, rfl⟩ := List.cons.inj text
      exact fun x hx => ⟨inner x (by simp [hx]), (unquoted x (by simp [hx])).1⟩
  · obtain ⟨spelling, value, same, body⟩ | ⟨c, cs, same, quote, _⟩ := h.cases_string
    · -- Both are strings, and there is only one in front of a text.
      rw [same] at text
      simp only [List.cons_append, List.append_assoc, List.nil_append, List.cons.injEq,
        true_and] at text
      obtain rfl := body.unique body' text
      obtain rfl : more = [] := by simpa using text
      nofun
    · obtain ⟨rfl, rfl⟩ := List.cons.inj same
      exact absurd (List.cons.inj text).1 quote

/-- The longest lexeme stays the longest in front of what no lexeme goes on with. -/
lemma Longest.append {cs rest : List Char} (h : Longest cs front k) (hr : Apart rest) :
    Longest (cs ++ rest) front k := by
  refine ⟨h.isPrefix.trans (List.prefix_append _ _), h.lexeme, fun other k' ho hk => ?_⟩
  by_contra longer
  obtain ⟨back, rfl⟩ := h.isPrefix
  obtain ⟨more, rfl⟩ : front <+: other :=
    List.prefix_of_prefix_length_le (h.isPrefix.trans (List.prefix_append _ _)) ho
      (Nat.le_of_not_le longer)
  rw [List.append_assoc, List.prefix_append_right_inj] at ho
  obtain inside | ⟨beyond, rfl⟩ := List.prefix_or_prefix_of_prefix ho (List.prefix_append _ _)
  · exact longer (h.length_le _ _ ((List.prefix_append_right_inj front).2 inside) hk)
  · cases beyond with
    | nil =>
      rw [List.append_nil] at hk longer
      exact longer (h.length_le _ _ (List.prefix_refl _) hk)
    | cons x beyond =>
      obtain ⟨after, rfl⟩ := (List.prefix_append_right_inj back).1 ho
      obtain ⟨⟨graphic, paren⟩, quote⟩ := h.lexeme.inner_behind hk x (by simp)
      obtain blank | same | same := hr x rfl
      · rw [graphic.not_blank] at blank
        cases blank
      · exact paren same
      · exact quote same

/-- No lexeme goes on across what separates it from the next one. -/
theorem Lexeme.longest (h : Lexeme front k) {rest : List Char} (hr : Separated rest) :
    Longest (front ++ rest) front k := by
  have alone : Longest front front k :=
    ⟨List.prefix_refl front, h, fun _ _ ho _ => ho.length_le⟩
  exact alone.append hr.apart

end Quill
