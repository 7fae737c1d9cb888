import Mathlib.Tactic.Common
import Quill.Proofs.Lexical.Numeral
import Quill.Proofs.Lexical.StringLiteral
import Quill.Token.Scan

/-!
# Lexemes

Which texts are tokens, and what faults keep a text from beginning with one. The scanner takes the
longest token in front of a text and gives it the kind of its class (`scanSymbol_eq_token_iff`), and
it reports a fault exactly where there is that fault (`scanSymbol_eq_fault_iff`).

A number whose value is too great for a double is a lexeme without a kind. It is found like every
other lexeme, so it hides nothing that could be read in its place.
-/

namespace Quill

/-- The text is a token of the given kind, or a number that is too great to have one. -/
inductive Lexeme : List Char → Option Kind → Prop where
  | number {d} :
    d.IsLiteral →
    Lexeme d.spell ((Double.ofDecimal? d).map .number)
  | string {spelling value} :
    StringBody spelling value →
    Lexeme ('"' :: (spelling ++ ['"'])) (some (.string (String.ofList value)))
  | word {c cs} :
    isWordStart c = true →
    (∀ x ∈ cs, isWordChar x = true) →
    Lexeme (c :: cs) (some (.word (String.ofList (c :: cs))))
  | operator (op) : Lexeme op.text.toList (some (.operator op))
  | mark (m) : Lexeme m.text.toList (some (.mark m))

/-- `front` is the longest lexeme in front of the text. -/
structure Longest (cs front : List Char) (k : Option Kind) : Prop where
  isPrefix : front <+: cs
  lexeme : Lexeme front k
  length_le : ∀ other k', other <+: cs → Lexeme other k' → other.length ≤ front.length

/-- What is wrong with a text that begins with no token, and the characters in front of the place
where it is wrong. -/
inductive Fault : List Char → List Char → LexReason → Prop where
  | unexpectedChar {c cs} :
    c ≠ '"' →
    (∀ front k, front <+: c :: cs → ¬ Lexeme front k) →
    Fault (c :: cs) [] (.unexpectedChar c)
  | unterminatedString {spelling value rest} :
    StringBody spelling value →
    BreaksOff rest →
    Fault ('"' :: (spelling ++ rest)) [] .unterminatedString
  | invalidEscape {spelling value letter rest} :
    StringBody spelling value →
    BadEscape letter rest →
    Fault ('"' :: (spelling ++ '\\' :: letter :: rest)) ('"' :: spelling) (.invalidEscape letter)
  | invalidNumber {cs front} :
    Longest cs front none →
    Fault cs [] (.invalidNumber (String.ofList front))

/-- The scanner found the lexeme, with a kind or too great for one. -/
inductive Symbol.Takes : Symbol → List Char → Option Kind → Prop where
  | token {k cut} : Takes (.token k cut) cut.taken (some k)
  | tooGreat {text front} :
    String.ofList front = text →
    Takes (.fault [] (.invalidNumber text)) front none

/-- The scanner finds one lexeme, of one kind. -/
lemma Symbol.Takes.unique {s : Symbol} {front front' : List Char} {k k' : Option Kind}
    (h : s.Takes front k) (h' : s.Takes front' k') : front = front' ∧ k = k' := by
  cases h with
  | token =>
    cases h'
    exact ⟨rfl, rfl⟩
  | tooGreat ht =>
    cases h' with
    | tooGreat ht' => exact ⟨String.ofList_injective (ht.trans ht'.symm), rfl⟩

/-! ## First characters -/

/-- The character begins no number and no string. -/
structure Symbolic (c : Char) : Prop where
  digit : c.isDigit = false
  point : c ≠ '.'
  quote : c ≠ '"'

/-- What begins a word begins no number and no string. -/
lemma symbolic_of_isWordStart {c : Char} (h : isWordStart c = true) : Symbolic c := by
  refine ⟨?_, ?_, ?_⟩
  · rw [isWordStart, Bool.or_eq_true, beq_iff_eq] at h
    obtain h | rfl := h
    · apply Bool.eq_false_iff.2
      intro digit
      have high : c.val ≤ 57 := of_decide_eq_true (Bool.and_eq_true_iff.1 digit).2
      -- Letters are above the digits, whatever their case.
      obtain upper | lower := Bool.or_eq_true_iff.1 h
      · have low : 65 ≤ c.val := (of_decide_eq_true upper).1
        grind
      · have low : 97 ≤ c.val := of_decide_eq_true (Bool.and_eq_true_iff.1 lower).1
        grind
    · rfl
  · rintro rfl
    revert h
    decide
  · rintro rfl
    revert h
    decide

/-- A character that begins no number and no string begins a word, a mark or an operator. -/
lemma scanSymbol_of_symbolic {c : Char} (h : Symbolic c) (cs : List Char) :
    scanSymbol c cs =
      if isWordStart c then
        .token (.word (String.ofList (c :: cs.takeWhile isWordChar)))
          ⟨c :: cs.takeWhile isWordChar, cs.dropWhile isWordChar⟩
      else
        match Mark.ofChar? c with
        | some m => .token (.mark m) ⟨[c], cs⟩
        | none =>
          match scanOperator? (c :: cs) with
          | some (op, cut) => .token (.operator op) cut
          | none => .fault [] (.unexpectedChar c) := by
  rw [scanSymbol, scanNumeral?_eq_none h.digit h.point]
  simp only [if_neg h.quote]
  rfl

/-- A quote begins a string. -/
lemma scanSymbol_quote (cs : List Char) : scanSymbol '"' cs = stringSymbol cs := by
  rw [scanSymbol, scanNumeral?_eq_none rfl (by decide)]
  rfl

/-- A string is found up to its closing quote. -/
lemma scanSymbol_string {spelling value : List Char} (body : StringBody spelling value)
    (rest : List Char) :
    scanSymbol '"' (spelling ++ ['"'] ++ rest) =
      .token (.string (String.ofList value)) ⟨'"' :: (spelling ++ ['"']), rest⟩ := by
  have closed : scanString (spelling ++ ['"'] ++ rest) = .closed value ⟨spelling ++ ['"'], rest⟩ :=
    scanString_eq_closed_iff.2 ⟨rfl, spelling, body, rfl⟩
  rw [scanSymbol_quote, stringSymbol, closed]
  rfl

/-! ## What is found is a lexeme -/

/-- The text of a mark is its character. -/
lemma text_of_mark {c : Char} {m : Mark} (h : Mark.ofChar? c = some m) : m.text.toList = [c] := by
  unfold Mark.ofChar? at h
  split at h <;> cases h <;> rfl

/-- The text of an operator is what was cut off for it. -/
lemma text_of_operator {cs : List Char} {op : Operator} {cut : Cut}
    (h : scanOperator? cs = some (op, cut)) : op.text.toList = cut.taken := by
  unfold scanOperator? at h
  split at h <;> cases h <;> rfl

/-- What is cut off for a token is a lexeme of its kind. -/
lemma lexeme_of_token {c : Char} {cs : List Char} {kind : Kind} {cut : Cut}
    (h : scanSymbol c cs = .token kind cut) : Lexeme cut.taken (some kind) := by
  unfold scanSymbol at h
  split at h
  · rename_i d rest hn
    unfold numberSymbol at h
    split at h <;> cases h
    rename_i value hv
    have lexeme := Lexeme.number (isLiteral_of_scanNumeral? hn)
    rw [hv] at lexeme
    exact lexeme
  · split at h
    · unfold stringSymbol at h
      split at h <;> cases h
      rename_i value cut hs
      obtain ⟨_, spelling, body, taken⟩ := scanString_eq_closed_iff.1 hs
      rw [Cut.taken_prepend, taken]
      exact .string body
    · split at h
      · rename_i hw
        cases h
        exact .word hw fun _ => List.mem_takeWhile_imp
      · split at h
        · rename_i m hm
          cases h
          exact text_of_mark hm ▸ .mark m
        · split at h
          · rename_i op cut ho
            cases h
            exact text_of_operator ho ▸ .operator op
          · cases h

/-- The text of a number that is too great is a lexeme in front. -/
lemma lexeme_of_invalidNumber {c : Char} {cs before : List Char} {text : String}
    (h : scanSymbol c cs = .fault before (.invalidNumber text)) :
    text.toList <+: c :: cs ∧ Lexeme text.toList none := by
  unfold scanSymbol at h
  split at h
  · rename_i d rest hn
    unfold numberSymbol at h
    split at h <;> cases h
    rename_i hv
    have lexeme := Lexeme.number (isLiteral_of_scanNumeral? hn)
    rw [hv] at lexeme
    rw [String.toList_ofList]
    exact ⟨⟨rest, spell_of_scanNumeral? hn⟩, lexeme⟩
  · split at h
    · unfold stringSymbol at h
      split at h <;> cases h
    · split at h
      · cases h
      · split at h
        · cases h
        · split at h <;> cases h

/-- What the scanner finds in front of a text is a lexeme that stands there. -/
lemma lexeme_of_takes {c : Char} {cs front : List Char} {k : Option Kind}
    (h : (scanSymbol c cs).Takes front k) : front <+: c :: cs ∧ Lexeme front k := by
  generalize hs : scanSymbol c cs = symbol at h
  cases h with
  | @token k cut => exact ⟨⟨cut.rest, (text_of_scanSymbol hs).1⟩, lexeme_of_token hs⟩
  | tooGreat ht =>
    subst ht
    simpa using lexeme_of_invalidNumber hs

/-! ## What is a lexeme is found -/

/-- An operator of one character that goes on with an equals sign gives way to the longer one. -/
lemma exists_operator {c : Char} {op longer : Operator}
    (one : ∀ rest, rest.head? ≠ some '=' → scanOperator? (c :: rest) = some (op, ⟨[c], rest⟩))
    (two : ∀ rest, scanOperator? (c :: '=' :: rest) = some (longer, ⟨[c, '='], rest⟩))
    (rest : List Char) :
    ∃ op' cut, scanOperator? (c :: rest) = some (op', cut) ∧ 1 ≤ cut.taken.length ∧
      (1 = cut.taken.length → op = op') := by
  by_cases h : rest.head? = some '='
  · obtain ⟨rest, rfl⟩ := List.head?_eq_some_iff.1 h
    exact ⟨_, _, two rest, Nat.le_succ 1, nofun⟩
  · exact ⟨_, _, one rest h, Nat.le_refl 1, fun _ => rfl⟩

/-- The operator that is found is at least as long as any that stands there. -/
lemma scanOperator?_append (op : Operator) (rest : List Char) :
    ∃ op' cut, scanOperator? (op.text.toList ++ rest) = some (op', cut) ∧
      op.text.toList.length ≤ cut.taken.length ∧
      (op.text.toList.length = cut.taken.length → op = op') := by
  cases op with
  | bang =>
    refine exists_operator (c := '!') (fun rest h => ?_) (fun _ => rfl) rest
    rw [scanOperator?]
    rintro _ rfl
    exact h rfl
  | less =>
    refine exists_operator (c := '<') (fun rest h => ?_) (fun _ => rfl) rest
    rw [scanOperator?]
    rintro _ rfl
    exact h rfl
  | greater =>
    refine exists_operator (c := '>') (fun rest h => ?_) (fun _ => rfl) rest
    rw [scanOperator?]
    rintro _ rfl
    exact h rfl
  | _ => exact ⟨_, _, rfl, Nat.le_refl _, fun _ => rfl⟩

/-- An operator begins with a character of its own. -/
lemma operator_head (op : Operator) :
    ∃ c cs, op.text.toList = c :: cs ∧ Symbolic c ∧ isWordStart c = false ∧
      Mark.ofChar? c = none := by
  cases op <;> exact ⟨_, _, rfl, ⟨rfl, by decide, by decide⟩, rfl, rfl⟩

/-- The text of a mark is one character, which is scanned as that mark. -/
lemma mark_head (m : Mark) :
    ∃ c, m.text.toList = [c] ∧ Symbolic c ∧ isWordStart c = false ∧ Mark.ofChar? c = some m := by
  cases m <;> exact ⟨_, rfl, ⟨rfl, by decide, by decide⟩, rfl, rfl⟩

/-- In front of a text with a lexeme, the scanner finds one that is as long, and none of another
kind that is only as long. -/
lemma takes_of_lexeme {c : Char} {cs front : List Char} {k : Option Kind} (h : Lexeme front k)
    (hp : front <+: c :: cs) :
    ∃ front' k', (scanSymbol c cs).Takes front' k' ∧ front.length ≤ front'.length ∧
      (front.length = front'.length → k = k') := by
  obtain ⟨rest, split⟩ := hp
  cases h with
  | @number d hd =>
    obtain ⟨d', rest', hs, le, _⟩ := scanNumeral?_append hd rest
    rw [split] at hs
    have spell := spell_of_scanNumeral? hs
    -- What is left is no longer than what the literal leaves, so what is taken is no shorter.
    have lengths := congrArg List.length (spell.trans split.symm)
    rw [List.length_append, List.length_append] at lengths
    have takes : (scanSymbol c cs).Takes d'.spell ((Double.ofDecimal? d').map .number) := by
      rw [scanSymbol, hs]
      dsimp only
      unfold numberSymbol
      split
      · rename_i hv
        rw [hv]
        exact .token
      · rename_i hv
        rw [hv]
        exact .tooGreat rfl
    refine ⟨_, _, takes, by omega, fun same => ?_⟩
    have same_spell := (List.append_inj (split.trans spell.symm) same).1
    rw [spell_injective hd (isLiteral_of_scanNumeral? hs) same_spell]
  | @string spelling value body =>
    cases split
    rw [List.append_eq, scanSymbol_string body]
    exact ⟨_, _, .token, Nat.le_refl _, fun _ => rfl⟩
  | @word w ws hw hws =>
    cases split
    -- The word that is taken is longer where more letters follow.
    rw [List.append_eq, scanSymbol_of_symbolic (symbolic_of_isWordStart hw), if_pos hw,
      List.takeWhile_append_of_pos hws]
    refine ⟨_, _, .token, by simp, fun same => ?_⟩
    have none_ahead : rest.takeWhile isWordChar = [] := by simpa using same
    rw [none_ahead, List.append_nil]
  | operator op =>
    obtain ⟨o, os, text, symbolic, not_word, not_mark⟩ := operator_head op
    obtain ⟨op', cut, ho, le, same⟩ := scanOperator?_append op rest
    rw [split] at ho
    rw [text] at split
    obtain rfl := (List.cons.inj split).1
    have symbol : scanSymbol o cs = .token (.operator op') cut := by
      rw [scanSymbol_of_symbolic symbolic, if_neg (by simp [not_word]), not_mark]
      simp only [ho]
    rw [symbol]
    exact ⟨_, _, .token, le, fun h => by rw [same h]⟩
  | mark m =>
    obtain ⟨o, text, symbolic, not_word, is_mark⟩ := mark_head m
    rw [text] at split ⊢
    obtain rfl := (List.cons.inj split).1
    have symbol : scanSymbol o cs = .token (.mark m) ⟨[o], cs⟩ := by
      rw [scanSymbol_of_symbolic symbolic, if_neg (by simp [not_word]), is_mark]
    rw [symbol]
    exact ⟨_, _, .token, Nat.le_refl _, fun _ => rfl⟩

/-! ## The scanner in terms of lexemes -/

/-- Two texts of one length in front of the same text are the same. -/
lemma eq_of_front {cs front front' : List Char} (h : front <+: cs) (h' : front' <+: cs)
    (length : front.length = front'.length) : front = front' :=
  (List.prefix_of_prefix_length_le h h' length.le).eq_of_length length

/-- The scanner finds exactly the longest lexeme. -/
theorem takes_iff_longest {c : Char} {cs front : List Char} {k : Option Kind} :
    (scanSymbol c cs).Takes front k ↔ Longest (c :: cs) front k := by
  constructor
  · intro h
    obtain ⟨hp, hl⟩ := lexeme_of_takes h
    refine ⟨hp, hl, fun other k' ho hk => ?_⟩
    obtain ⟨front', k'', takes, le, _⟩ := takes_of_lexeme hk ho
    obtain ⟨rfl, _⟩ := h.unique takes
    exact le
  · intro h
    obtain ⟨front', k', takes, le, same⟩ := takes_of_lexeme h.lexeme h.isPrefix
    obtain ⟨hp, hl⟩ := lexeme_of_takes takes
    have length := Nat.le_antisymm le (h.length_le front' k' hp hl)
    rwa [eq_of_front h.isPrefix hp length, same length]

/-- No lexeme is empty. -/
lemma Lexeme.ne_nil {front : List Char} {k : Option Kind} (h : Lexeme front k) : front ≠ [] := by
  cases h with
  | number hd =>
    obtain ⟨c, cs, spell, _⟩ := hd.head
    rw [spell]
    exact List.cons_ne_nil c cs
  | string _ => exact List.cons_ne_nil _ _
  | word _ _ => exact List.cons_ne_nil _ _
  | operator op => cases op <;> exact List.cons_ne_nil _ _
  | mark m => cases m <;> exact List.cons_ne_nil _ _

/-- There is one longest lexeme, and it has one kind. -/
lemma Longest.unique {cs front front' : List Char} {k k' : Option Kind} (h : Longest cs front k)
    (h' : Longest cs front' k') : front = front' ∧ k = k' := by
  cases cs with
  | nil => exact absurd (List.prefix_nil.1 h.isPrefix) h.lexeme.ne_nil
  | cons c cs => exact (takes_iff_longest.2 h).unique (takes_iff_longest.2 h')

/-- A cut is given by its text and by what it takes. -/
lemma cut_ext {k k' : Cut} (text : k.text = k'.text) (taken : k.taken = k'.taken) : k = k' := by
  obtain ⟨t, r⟩ := k
  obtain ⟨t', r'⟩ := k'
  cases taken
  cases List.append_cancel_left text
  rfl

/-- The scanner finds a token exactly where it is the longest lexeme. -/
theorem scanSymbol_eq_token_iff {c : Char} {cs : List Char} {kind : Kind} {cut : Cut} :
    scanSymbol c cs = .token kind cut ↔
      cut.text = c :: cs ∧ Longest (c :: cs) cut.taken (some kind) := by
  constructor
  · intro h
    refine ⟨(text_of_scanSymbol h).1, takes_iff_longest.1 ?_⟩
    rw [h]
    exact .token
  · rintro ⟨text, longest⟩
    have takes := takes_iff_longest.2 longest
    generalize hs : scanSymbol c cs = symbol at takes
    generalize taken : cut.taken = front at takes
    cases takes with
    | @token _ cut' => rw [cut_ext (text.trans (text_of_scanSymbol hs).1.symm) taken]

/-- What the scanner refuses begins with no token. -/
lemma fault_of_scanSymbol {c : Char} {cs before : List Char} {reason : LexReason}
    (h : scanSymbol c cs = .fault before reason) : Fault (c :: cs) before reason := by
  have symbol := h
  unfold scanSymbol at h
  split at h
  · unfold numberSymbol at h
    split at h <;> cases h
    refine .invalidNumber (takes_iff_longest.1 ?_)
    rw [symbol]
    exact .tooGreat rfl
  · split at h
    · rename_i hq
      subst hq
      unfold stringSymbol at h
      split at h <;> cases h
      · rename_i hs
        obtain ⟨spelling, value, rest, rfl, body, off⟩ := scanString_eq_unterminated_iff.1 hs
        exact .unterminatedString body off
      · rename_i hs
        obtain ⟨value, after, rfl, body, bad⟩ := scanString_eq_badEscape_iff.1 hs
        exact .invalidEscape body bad
    · rename_i hq
      split at h
      · cases h
      · split at h
        · cases h
        · split at h <;> cases h
          refine .unexpectedChar hq fun front k hp hl => ?_
          obtain ⟨front', k', takes, _⟩ := takes_of_lexeme hl hp
          rw [symbol] at takes
          cases takes

/-- The scanner reports a fault exactly where there is one. -/
theorem scanSymbol_eq_fault_iff {c : Char} {cs before : List Char} {reason : LexReason} :
    scanSymbol c cs = .fault before reason ↔ Fault (c :: cs) before reason := by
  refine ⟨fault_of_scanSymbol, fun h => ?_⟩
  cases h with
  | unexpectedChar hq none_here =>
    -- Every other outcome needs a quote or a lexeme in front.
    cases hs : scanSymbol c cs with
    | token kind cut =>
      have longest := (scanSymbol_eq_token_iff.1 hs).2
      exact absurd longest.lexeme (none_here _ _ longest.isPrefix)
    | fault before' reason' =>
      cases fault_of_scanSymbol hs with
      | unexpectedChar _ _ => rfl
      | unterminatedString _ _ => exact absurd rfl hq
      | invalidEscape _ _ => exact absurd rfl hq
      | invalidNumber longest => exact absurd longest.lexeme (none_here _ _ longest.isPrefix)
  | unterminatedString body off =>
    rw [scanSymbol_quote, stringSymbol,
      scanString_eq_unterminated_iff.2 ⟨_, _, _, rfl, body, off⟩]
  | invalidEscape body bad =>
    rw [scanSymbol_quote, stringSymbol, scanString_eq_badEscape_iff.2 ⟨_, _, rfl, body, bad⟩]
  | invalidNumber longest =>
    have takes := takes_iff_longest.2 longest
    generalize scanSymbol c cs = symbol at takes
    cases takes with
    | tooGreat text => rw [text]

end Quill
