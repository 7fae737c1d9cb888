import Quill.Proofs.Number.Shown
import Quill.Proofs.Tree.WellFormed
import Quill.Tree.Display

/-!
# Shown expressions are unambiguous

A shown expression can be told from its text, together with where it ends (`Expr.spell_unique`): the
first character tells the form, a word or a number ends where its characters do, a quoted string at
the first quote that no backslash is in front of, and everything else in a bracket. Signs stand in
front of their operand without one, which is no matter, for nothing else begins with them.
-/

namespace Quill

/-! ## Runs -/

/-- Where characters of one sort are followed by another one or by nothing, the text tells them. -/
lemma append_inj_of_run {p : Char → Bool} {w w' r r' : List Char} (hw : ∀ c ∈ w, p c = true)
    (hw' : ∀ c ∈ w', p c = true) (hr : ∀ c ∈ r.head?, p c = false)
    (hr' : ∀ c ∈ r'.head?, p c = false) (same : w ++ r = w' ++ r') : w = w' ∧ r = r' := by
  have ends {r : List Char} (hr : ∀ c ∈ r.head?, p c = false) : r.takeWhile p = [] := by
    cases r with
    | nil => rfl
    | cons c r => exact List.takeWhile_cons_of_neg (by simp [hr c rfl])
  have taken := congrArg (List.takeWhile p) same
  rw [List.takeWhile_append_of_pos hw, List.takeWhile_append_of_pos hw', ends hr, ends hr',
    List.append_nil, List.append_nil] at taken
  subst taken
  exact ⟨rfl, List.append_cancel_left same⟩

/-! ## Quoted strings -/

/-- The digits below sixteen are told apart by their characters. -/
lemma digitChar_injective : ∀ m < 16, ∀ n < 16, Nat.digitChar m = Nat.digitChar n → m = n := by
  decide

/-- Numbers are told apart by their hexadecimal digits. -/
lemma toDigits_injective {m n : Nat} (same : Nat.toDigits 16 m = Nat.toDigits 16 n) : m = n := by
  induction m using Nat.strongRecOn generalizing n with
  | ind m ih =>
    have last {k : Nat} (hk : 16 ≤ k) (j : Nat) : Nat.toDigits 16 k ≠ [Nat.digitChar j] := by
      rw [Nat.toDigits_of_base_le (by decide) hk]
      intro one
      have width := congrArg List.length one
      have := List.length_pos_iff.2 (Nat.toDigits_ne_nil (b := 16) (n := k / 16))
      simp only [List.length_append, List.length_singleton] at width
      omega
    by_cases hm : m < 16 <;> by_cases hn : n < 16
    · rw [Nat.toDigits_of_lt_base hm, Nat.toDigits_of_lt_base hn] at same
      exact digitChar_injective m hm n hn (List.singleton_inj.1 same)
    · rw [Nat.toDigits_of_lt_base hm] at same
      exact absurd same.symm (last (Nat.le_of_not_lt hn) m)
    · rw [Nat.toDigits_of_lt_base hn] at same
      exact absurd same (last (Nat.le_of_not_lt hm) n)
    · rw [Nat.toDigits_of_base_le (by decide) (Nat.le_of_not_lt hm),
        Nat.toDigits_of_base_le (by decide) (Nat.le_of_not_lt hn)] at same
      obtain ⟨front, digit⟩ := List.append_inj' same rfl
      have quotients := ih (m / 16) (by omega) front
      have remainders := digitChar_injective _ (Nat.mod_lt m (by decide)) _
        (Nat.mod_lt n (by decide)) (List.singleton_inj.1 digit)
      omega

/-- There is no brace among the hexadecimal digits of a number. -/
lemma brace_notMem_toDigits (n : Nat) : '}' ∉ Nat.toDigits 16 n := by
  induction n using Nat.strongRecOn with
  | ind n ih =>
    rw [Nat.toDigits_eq_if (by decide)]
    split
    · simp
    · have := ih (n / 16) (by omega)
      simp [this]

/-- The character that a short escape stands for, by the letter behind the backslash. -/
def escaped (m : Char) : Char :=
  if m = '0' then
    '\x00'
  else if m = 't' then
    '\t'
  else if m = 'r' then
    '\r'
  else if m = 'n' then
    '\n'
  else
    m

/-- A character in a quoted string stands for itself, behind a backslash, or as its code point. -/
lemma quoteChar_cases (c : Char) :
    (quoteChar '"' c = [c] ∧ c ≠ '\\' ∧ c ≠ '"') ∨
      (∃ m, quoteChar '"' c = ['\\', m] ∧ m ≠ 'u' ∧ escaped m = c) ∨
      quoteChar '"' c = codePointEscape c := by
  unfold quoteChar
  split
  · rename_i h
    exact .inr (.inl ⟨_, rfl, by decide, h.symm⟩)
  · split
    · rename_i h
      exact .inr (.inl ⟨_, rfl, by decide, h.symm⟩)
    · split
      · rename_i h
        exact .inr (.inl ⟨_, rfl, by decide, h.symm⟩)
      · split
        · rename_i h
          exact .inr (.inl ⟨_, rfl, by decide, h.symm⟩)
        · split
          · rename_i h
            obtain rfl | rfl := h
            · exact .inr (.inl ⟨_, rfl, by decide, rfl⟩)
            · exact .inr (.inl ⟨_, rfl, by decide, rfl⟩)
          · rename_i h
            split
            · exact .inl ⟨rfl, not_or.1 h⟩
            · exact .inr (.inr rfl)

/-- A quoted character does not begin like the end of the string. -/
lemma quoteChar_append_ne (c : Char) (r r' : List Char) : quoteChar '"' c ++ r ≠ '"' :: r' := by
  obtain ⟨h, _, ne⟩ | ⟨m, h, _⟩ | h := quoteChar_cases c <;> rw [h]
  · simpa using fun same _ => ne same
  · simp
  · simp [codePointEscape]

/-- A quoted character can be told from what follows. -/
lemma quoteChar_append_inj {c c' : Char} {r r' : List Char}
    (same : quoteChar '"' c ++ r = quoteChar '"' c' ++ r') : c = c' ∧ r = r' := by
  obtain ⟨h, bare, _⟩ | ⟨m, h, letter, stands⟩ | h := quoteChar_cases c <;>
    obtain ⟨h', bare', _⟩ | ⟨m', h', letter', stands'⟩ | h' := quoteChar_cases c' <;>
    rw [h, h'] at same
  · exact List.cons_eq_cons.1 same
  · exact absurd (List.cons_eq_cons.1 same).1 bare
  · exact absurd (List.cons_eq_cons.1 same).1 bare
  · exact absurd (List.cons_eq_cons.1 same).1.symm bare'
  · simp only [List.cons_append, List.nil_append, List.cons_eq_cons, true_and] at same
    exact ⟨by rw [← stands, ← stands', same.1], same.2⟩
  · simp only [codePointEscape, List.cons_append, List.nil_append, List.cons_eq_cons,
      true_and] at same
    exact absurd same.1 letter
  · exact absurd (List.cons_eq_cons.1 same).1.symm bare'
  · simp only [codePointEscape, List.cons_append, List.nil_append, List.cons_eq_cons,
      true_and] at same
    exact absurd same.1.symm letter'
  · simp only [codePointEscape, List.cons_append, List.append_assoc, List.nil_append,
      List.cons_eq_cons, true_and] at same
    have inner (n : Nat) : ∀ d ∈ Nat.toDigits 16 n, (d != '}') = true := by
      intro d hd
      rw [bne_iff_ne]
      rintro rfl
      exact brace_notMem_toDigits n hd
    obtain ⟨digits, rest⟩ := append_inj_of_run (inner _) (inner _) (by simp) (by simp) same
    exact ⟨Char.toNat_inj.1 (toDigits_injective digits), (List.cons_eq_cons.1 rest).2⟩

/-- A quoted string can be told from what follows. -/
lemma quoteWith_append_inj {cs cs' r r' : List Char}
    (same : quoteWith '"' cs ++ r = quoteWith '"' cs' ++ r') : cs = cs' ∧ r = r' := by
  simp only [quoteWith, List.cons_append, List.append_assoc, List.nil_append, List.cons_eq_cons,
    true_and] at same
  induction cs generalizing cs' with
  | nil =>
    cases cs' with
    | nil => exact ⟨rfl, (List.cons_eq_cons.1 same).2⟩
    | cons c' cs' =>
      rw [List.flatMap_cons, List.append_assoc] at same
      exact absurd same.symm (quoteChar_append_ne _ _ _)
  | cons c cs ih =>
    rw [List.flatMap_cons, List.append_assoc] at same
    cases cs' with
    | nil => exact absurd same (quoteChar_append_ne _ _ _)
    | cons c' cs' =>
      rw [List.flatMap_cons, List.append_assoc] at same
      obtain ⟨rfl, tails⟩ := quoteChar_append_inj same
      obtain ⟨rfl, rest⟩ := ih tails
      exact ⟨rfl, rest⟩

/-! ## How shown expressions begin -/

/-- The sorts of characters that a shown expression can begin with, and any other. -/
inductive Lead where
  | letter
  | digit
  | bracket
  | quote
  | sign
  | other

/-- The sort of the character. -/
def Lead.of (c : Char) : Lead :=
  if isWordStart c then
    letter
  else if c.isDigit ∨ c = '.' then
    digit
  else if c = '(' then
    bracket
  else if c = '"' then
    quote
  else if c = '!' ∨ c = '-' then
    sign
  else
    other

/-- The sort of the character that the shown expression begins with. -/
def Expr.lead : Expr → Lead
  | .binary _ _ _ => .bracket
  | .unary _ _ => .sign
  | .number _ => .digit
  | .string _ => .quote
  | .bool _ | .none | .ref _ | .call _ _ => .letter

/-- What begins a word is of the sort of letters. -/
lemma Lead.of_isWordStart {c : Char} (h : isWordStart c = true) : of c = letter :=
  if_pos h

/-- What begins a number is of the sort of digits. -/
lemma Lead.of_digit {c : Char} (h : c.isDigit = true ∨ c = '.') : of c = digit := by
  have inner : isWordStart c = false := by
    rw [← Bool.not_eq_true]
    intro start
    have symbolic := symbolic_of_isWordStart start
    obtain digit | point := h
    · rw [symbolic.digit] at digit
      cases digit
    · exact symbolic.point point
  rw [of, inner, if_neg Bool.false_ne_true, if_pos h]

variable {d d' : Division} {e e' : Expr} {r r' : List Char}

/-- An identifier begins with a letter, whatever stands behind it. -/
lemma IsIdentifier.head {x : String} (h : IsIdentifier x) (r : List Char) :
    (x.toList ++ r).head?.map Lead.of = some .letter := by
  obtain ⟨c, cs, text, hc, _⟩ := h.word
  rw [text]
  exact congrArg some (Lead.of_isWordStart (isWordStart_iff.2 hc))

/-- The first character of a shown expression is of its sort. -/
lemma Expr.WellFormed.head (h : e.WellFormed d) (r : List Char) :
    (e.spell ++ r).head?.map Lead.of = some e.lead := by
  cases h with
  | binary _ _ _ => rfl
  | @unary op _ _ => cases op <;> rfl
  | @number x unsigned =>
    obtain ⟨c, cs, text, hc⟩ := (Double.ofDecimal?_write_plain unsigned).1.head
    rw [Expr.spell, text]
    exact congrArg some (Lead.of_digit hc)
  | string => rfl
  | @bool b => cases b <;> rfl
  | none => rfl
  | ref name => exact name.head r
  | call name _ =>
    rw [Expr.spell, List.append_assoc]
    exact name.head _

/-- Two expressions that are shown alike begin with a character of one sort. -/
lemma lead_eq (h : e.WellFormed d) (h' : e'.WellFormed d') (same : e.spell ++ r = e'.spell ++ r') :
    e.lead = e'.lead := by
  have heads := h.head r
  rw [same, h'.head r'] at heads
  exact (Option.some.inj heads).symm

/-! ## Where shown expressions end -/

/-- Behind a shown expression there is a blank, a closing parenthesis, or nothing. -/
def Closing (r : List Char) : Prop :=
  ∀ c ∈ r.head?, c = ' ' ∨ c = ')'

/-- A blank may stand behind a shown expression. -/
lemma closing_blank (r : List Char) : Closing (' ' :: r) := by
  simp [Closing]

/-- A closing parenthesis may stand behind a shown expression. -/
lemma closing_parenthesis (r : List Char) : Closing (')' :: r) := by
  simp [Closing]

/-- A closing character ends a run of others. -/
lemma Closing.run_ends {p : Char → Bool} (h : Closing r) (blank : p ' ' = false)
    (parenthesis : p ')' = false) : ∀ c ∈ r.head?, p c = false := by
  intro c hc
  obtain rfl | rfl := h c hc
  · exact blank
  · exact parenthesis

/-- The expression is told by its text, wherever that ends. -/
def Expr.Told (e : Expr) : Prop :=
  ∀ {d e' r r'}, e'.WellFormed d → Closing r → Closing r' → e.spell ++ r = e'.spell ++ r' →
    e = e' ∧ r = r'

/-- Operators are told apart by their symbols. -/
lemma symbol_injective {op op' : BinaryOp} (same : op.symbol = op'.symbol) : op = op' := by
  cases op <;> cases op' <;> first | rfl | exact absurd same (by decide)

/-- There is no blank in the symbol of an operator. -/
lemma symbol_run (op : BinaryOp) : ∀ c ∈ op.symbol.toList, (c != ' ') = true := by
  cases op <;> simp [BinaryOp.symbol]

/-- The word that the shown expression begins with, if it begins with one. -/
def Expr.leadingWord : Expr → String
  | .bool true => Keyword.kwTrue.text
  | .bool false => Keyword.kwFalse.text
  | .none => Keyword.kwNone.text
  | .ref x | .call x _ => x
  | _ => ""

/-- What is behind that word, where `r` is behind the expression. -/
def Expr.behindWord (r : List Char) : Expr → List Char
  | .call _ es => '(' :: (Expr.spellArgs es ++ ')' :: r)
  | _ => r

/-- A word consists of characters of words. -/
lemma IsWord.run {x : String} (h : IsWord x) : ∀ c ∈ x.toList, isWordChar c = true := by
  obtain ⟨c, cs, text, hc, hcs⟩ := h
  rw [text]
  exact List.forall_mem_cons.2 ⟨isWordChar_of_isWordStart (isWordStart_iff.2 hc),
    fun c' hc' => isWordChar_iff.2 (hcs c' hc')⟩

/-- An expression that begins with a word is that word and what is behind it. -/
lemma Expr.WellFormed.spell_word (h : e.WellFormed d) (word : e.lead = .letter) (r : List Char) :
    e.spell ++ r = e.leadingWord.toList ++ e.behindWord r ∧ IsWord e.leadingWord := by
  cases h with
  | @bool b => cases b <;> exact ⟨rfl, isWord_keyword _⟩
  | none => exact ⟨rfl, isWord_keyword _⟩
  | ref name => exact ⟨rfl, name.word⟩
  | call name _ =>
    refine ⟨?_, name.word⟩
    simp only [Expr.spell, Expr.leadingWord, Expr.behindWord, List.append_assoc, List.cons_append,
      List.nil_append]
  | _ => cases word

/-- The word ends where its characters do. -/
lemma Closing.behindWord_ends (h : Closing r) (e : Expr) :
    ∀ c ∈ (e.behindWord r).head?, isWordChar c = false := by
  unfold Expr.behindWord
  split
  · intro c hc
    cases hc
    decide
  · exact h.run_ends (by decide) (by decide)

/-- Two expressions that begin with words begin with the same word, and go on alike. -/
lemma word_eq (h : e.WellFormed d) (h' : e'.WellFormed d') (closing : Closing r)
    (closing' : Closing r') (word : e.lead = .letter) (word' : e'.lead = .letter)
    (same : e.spell ++ r = e'.spell ++ r') :
    e.leadingWord = e'.leadingWord ∧ e.behindWord r = e'.behindWord r' := by
  obtain ⟨text, run⟩ := h.spell_word word r
  obtain ⟨text', run'⟩ := h'.spell_word word' r'
  rw [text, text'] at same
  obtain ⟨words, behind⟩ := append_inj_of_run run.run run'.run (closing.behindWord_ends e)
    (closing'.behindWord_ends e') same
  exact ⟨String.toList_inj.1 words, behind⟩

/-- The expression that a word alone stands for. -/
def Expr.ofWord (x : String) : Expr :=
  if x = Keyword.kwTrue.text then
    .bool true
  else if x = Keyword.kwFalse.text then
    .bool false
  else if x = Keyword.kwNone.text then
    .none
  else
    .ref x

/-- A shown expression that is a word alone is the one that the word stands for. -/
lemma Expr.WellFormed.ofWord (h : e.WellFormed d) (word : e.lead = .letter)
    (bare : ∀ f es, e ≠ .call f es) : Expr.ofWord e.leadingWord = e := by
  cases h with
  | @bool b => cases b <;> rfl
  | none => rfl
  | ref name =>
    exact (if_neg (name.name .kwTrue)).trans
      ((if_neg (name.name .kwFalse)).trans (if_neg (name.name .kwNone)))
  | call _ _ => exact absurd rfl (bare _ _)
  | _ => cases word

/-- Behind the word of an expression that is no call, there is what stands behind the expression. -/
lemma behindWord_of_bare (bare : ∀ f es, e ≠ .call f es) : e.behindWord r = r := by
  unfold Expr.behindWord
  split
  · exact absurd rfl (bare _ _)
  · rfl

/-- What closes an expression is no parenthesis that opens. -/
lemma Closing.ne_call (h : Closing r) {rest : List Char} : r ≠ '(' :: rest := by
  rintro rfl
  exact absurd (h '(' rfl) (by decide)

/-- What is behind an argument, where the other arguments and the end of the call follow. -/
def behindArg (es : List Expr) (r : List Char) : List Char :=
  if es.isEmpty then
    ')' :: r
  else
    ' ' :: (Expr.spellArgs es ++ ')' :: r)

/-- Arguments are shown one after the other, up to the parenthesis behind them. -/
lemma spellArgs_cons (e : Expr) (es : List Expr) (r : List Char) :
    Expr.spellArgs (e :: es) ++ ')' :: r = e.spell ++ behindArg es r := by
  cases es with
  | nil => rfl
  | cons e' es =>
    rw [Expr.spellArgs, List.append_assoc]
    · rfl
    · nofun

/-- Behind an argument there is a blank or a closing parenthesis. -/
lemma closing_behindArg (es : List Expr) (r : List Char) : Closing (behindArg es r) := by
  cases es with
  | nil => exact closing_parenthesis r
  | cons _ _ => exact closing_blank _

/-- No shown expression begins with a closing parenthesis. -/
lemma Expr.WellFormed.ne_parenthesis (h : e.WellFormed d) (r r' : List Char) :
    e.spell ++ r ≠ ')' :: r' := by
  intro same
  have head := h.head r
  rw [same] at head
  have sort : Lead.other = e.lead := Option.some.inj head
  cases e <;> cases sort

/-- Arguments are told one after the other. A parenthesis ends them, and no expression begins with
one that closes. -/
lemma told_args {es es' : List Expr} (h : ∀ e ∈ es, e.WellFormed d) (told : ∀ e ∈ es, e.Told)
    (h' : ∀ e ∈ es', e.WellFormed d')
    (same : Expr.spellArgs es ++ ')' :: r = Expr.spellArgs es' ++ ')' :: r') :
    es = es' ∧ r = r' := by
  induction es generalizing es' with
  | nil =>
    cases es' with
    | nil => exact ⟨rfl, (List.cons_eq_cons.1 same).2⟩
    | cons e' es' =>
      rw [spellArgs_cons] at same
      exact absurd same.symm ((h' e' List.mem_cons_self).ne_parenthesis _ _)
  | cons e es ih =>
    rw [spellArgs_cons] at same
    cases es' with
    | nil => exact absurd same ((h e List.mem_cons_self).ne_parenthesis _ _)
    | cons e' es' =>
      rw [spellArgs_cons] at same
      obtain ⟨he, hes⟩ := List.forall_mem_cons.1 h
      obtain ⟨he', hes'⟩ := List.forall_mem_cons.1 h'
      obtain ⟨head, tail⟩ := List.forall_mem_cons.1 told
      obtain ⟨rfl, behind⟩ := head he' (closing_behindArg _ _) (closing_behindArg _ _) same
      -- A blank behind the argument means that there is another one, on both sides.
      cases es with
      | nil =>
        cases es' with
        | nil => exact ⟨rfl, (List.cons_eq_cons.1 behind).2⟩
        | cons _ _ => exact absurd (List.cons_eq_cons.1 behind).1 (by decide)
      | cons _ _ =>
        cases es' with
        | nil => exact absurd (List.cons_eq_cons.1 behind).1 (by decide)
        | cons _ _ =>
          obtain ⟨others, rest⟩ := ih hes tail hes' (List.cons_eq_cons.1 behind).2
          exact ⟨congrArg _ others, rest⟩

/-! ## One form after the other -/

section

variable (h' : e'.WellFormed d')

include h'

/-- Two operations are told by their operands, and the operator between blanks. -/
lemma told_binary {op : BinaryOp} {a b : Expr} (ha : a.Told) (hb : b.Told)
    (lead : .bracket = e'.lead) (same : (Expr.binary op a b).spell ++ r = e'.spell ++ r') :
    .binary op a b = e' ∧ r = r' := by
  cases h' with
  | @binary op' a' b' _ ha' hb' =>
    simp only [Expr.spell, List.cons_append, List.append_assoc, List.nil_append, List.cons_eq_cons,
      true_and] at same
    obtain ⟨rfl, tail⟩ := ha ha' (closing_blank _) (closing_blank _) same
    obtain ⟨symbols, operand⟩ := append_inj_of_run (symbol_run op) (symbol_run op')
      (by simp) (by simp) (List.cons_eq_cons.1 tail).2
    obtain ⟨rfl, behind⟩ := hb hb' (closing_parenthesis _) (closing_parenthesis _)
      (List.cons_eq_cons.1 operand).2
    obtain rfl := symbol_injective (String.toList_inj.1 symbols)
    exact ⟨rfl, (List.cons_eq_cons.1 behind).2⟩
  | _ => cases lead

/-- A sign is one character, and its operand is behind it. -/
lemma told_unary {op : UnaryOp} {a : Expr} (ha : a.Told) (closing : Closing r)
    (closing' : Closing r') (lead : .sign = e'.lead)
    (same : (Expr.unary op a).spell ++ r = e'.spell ++ r') : .unary op a = e' ∧ r = r' := by
  cases h' with
  | @unary op' a' ha' =>
    have operands (tails : a.spell ++ r = a'.spell ++ r') : Expr.unary op a = .unary op a' ∧
        r = r' := by
      obtain ⟨rfl, behind⟩ := ha ha' closing closing' tails
      exact ⟨rfl, behind⟩
    -- The two signs are different characters.
    cases op <;> cases op'
    · exact operands (List.cons_eq_cons.1 same).2
    · exact absurd (List.cons_eq_cons.1 same).1 (by decide)
    · exact absurd (List.cons_eq_cons.1 same).1 (by decide)
    · exact operands (List.cons_eq_cons.1 same).2
  | _ => cases lead

/-- A number ends at the first character that closes it. -/
lemma told_number {x : Double} (unsigned : x.negative = false) (closing : Closing r)
    (closing' : Closing r') (lead : .digit = e'.lead)
    (same : (Expr.number x).spell ++ r = e'.spell ++ r') : .number x = e' ∧ r = r' := by
  cases h' with
  | @number y unsigned' =>
    have run {x : Double} (unsigned : x.negative = false) :
        ∀ c ∈ (Layout.plain.write x).spell, (c != ' ' && c != ')') = true := by
      refine (Double.ofDecimal?_write_plain unsigned).1.forall_mem_spell ?_ (by simp)
      intro c hc
      have bounds := digit_bounds hc
      rw [Bool.and_eq_true, bne_iff_ne, bne_iff_ne]
      constructor <;> rintro rfl <;> exact absurd hc (by decide)
    obtain ⟨texts, behind⟩ := append_inj_of_run (run unsigned) (run unsigned')
      (closing.run_ends (by decide) (by decide)) (closing'.run_ends (by decide) (by decide)) same
    obtain rfl := Double.write_plain_injective unsigned unsigned' texts
    exact ⟨rfl, behind⟩
  | _ => cases lead

/-- A string is told by its text. -/
lemma told_string {s : String} (lead : .quote = e'.lead)
    (same : (Expr.string s).spell ++ r = e'.spell ++ r') : .string s = e' ∧ r = r' := by
  cases h' with
  | @string s' =>
    obtain ⟨texts, behind⟩ := quoteWith_append_inj same
    obtain rfl := String.toList_inj.1 texts
    exact ⟨rfl, behind⟩
  | _ => cases lead

/-- A word that is no call is told by its text, for no name is reserved. -/
lemma told_word (h : e.WellFormed d) (closing : Closing r) (closing' : Closing r')
    (word : e.lead = .letter) (bare : ∀ f es, e ≠ .call f es) (lead : .letter = e'.lead)
    (same : e.spell ++ r = e'.spell ++ r') : e = e' ∧ r = r' := by
  obtain ⟨words, behind⟩ := word_eq h h' closing closing' word lead.symm same
  rw [behindWord_of_bare bare] at behind
  by_cases call : ∃ f es, e' = .call f es
  · obtain ⟨f, es, rfl⟩ := call
    exact absurd behind closing.ne_call
  · have bare' : ∀ f es, e' ≠ .call f es := fun f es is => call ⟨f, es, is⟩
    rw [behindWord_of_bare bare'] at behind
    rw [← h.ofWord word bare, ← h'.ofWord lead.symm bare', words]
    exact ⟨rfl, behind⟩

/-- A call is told by its word and its arguments. -/
lemma told_call {f : String} {es : List Expr} (h : (Expr.call f es).WellFormed d)
    (told : ∀ e ∈ es, e.Told) (closing : Closing r) (closing' : Closing r')
    (lead : .letter = e'.lead) (same : (Expr.call f es).spell ++ r = e'.spell ++ r') :
    .call f es = e' ∧ r = r' := by
  obtain ⟨words, behind⟩ := word_eq h h' closing closing' rfl lead.symm same
  by_cases call : ∃ f es, e' = .call f es
  · obtain ⟨f', es', rfl⟩ := call
    cases h with
    | call _ hes =>
      cases h' with
      | call _ hes' =>
        obtain ⟨rfl, rest⟩ := told_args hes told hes' (List.cons_eq_cons.1 behind).2
        obtain rfl : f = f' := words
        exact ⟨rfl, rest⟩
  · rw [behindWord_of_bare fun f es is => call ⟨f, es, is⟩] at behind
    exact absurd behind.symm closing'.ne_call

end

/-- A shown expression is told by its text, wherever that ends. -/
theorem Expr.WellFormed.told (h : e.WellFormed d) : e.Told := by
  induction h with
  | binary allowed hl hr ihl ihr =>
    intro _ _ _ _ h' _ _ same
    exact told_binary h' ihl ihr (lead_eq (.binary allowed hl hr) h' same) same
  | unary he ih =>
    intro _ _ _ _ h' closing closing' same
    exact told_unary h' ih closing closing' (lead_eq (.unary he) h' same) same
  | number unsigned =>
    intro _ _ _ _ h' closing closing' same
    exact told_number h' unsigned closing closing' (lead_eq (d := d) (.number unsigned) h' same) same
  | string =>
    intro _ _ _ _ h' _ _ same
    exact told_string h' (lead_eq (d := d) .string h' same) same
  | @bool b =>
    intro _ _ _ _ h' closing closing' same
    have h := WellFormed.bool (d := d) (b := b)
    exact told_word h' h closing closing' rfl nofun (lead_eq h h' same) same
  | none =>
    intro _ _ _ _ h' closing closing' same
    have h := WellFormed.none (d := d)
    exact told_word h' h closing closing' rfl nofun (lead_eq h h' same) same
  | ref name =>
    intro _ _ _ _ h' closing closing' same
    have h := WellFormed.ref (d := d) name
    exact told_word h' h closing closing' rfl nofun (lead_eq h h' same) same
  | call name hes ih =>
    intro _ _ _ _ h' closing closing' same
    have h := WellFormed.call name hes
    exact told_call h' h ih closing closing' (lead_eq h h' same) same

/-- No two expressions are shown alike. -/
theorem Expr.WellFormed.display_inj (h : e.WellFormed d) (h' : e'.WellFormed d') :
    e.display = e'.display ↔ e = e' := by
  constructor
  · intro same
    have texts := congrArg (· ++ []) (String.ofList_inj.1 same)
    have closing : Closing [] := by simp [Closing]
    exact (h.told h' closing closing texts).1
  · rintro rfl
    rfl

end Quill
