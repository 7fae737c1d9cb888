import Quill.Proofs.Lexical.Escapes
import Quill.Proofs.Lexical.Resuming
import Quill.Proofs.Tree.Display
import Quill.Proofs.Tree.Grouping

/-!
# The tokens of shown expressions

The text of a shown expression is lexed as its kinds (`Expr.WellFormed.lexes`), when its strings are
of plain characters, which stand for themselves in a literal as they do in a quoted text. Many
lexemes of the text have nothing between them. A word or a number ends where a parenthesis, a blank
or a semicolon stands, and a sign ends because no shown expression begins with an equals sign.

A text is described together with what is behind it (`Lexes`), as the kinds are.
-/

namespace Quill

/-! ## Where a lexeme ends -/

/-- Nothing comes next, or what stands between and behind the parts of a statement. -/
def Shuts (cs : List Char) : Prop :=
  ∀ c ∈ cs.head?, c = ' ' ∨ c = '(' ∨ c = ')' ∨ c = ';'

/-- A text that begins with what shuts a lexeme shuts it. -/
lemma shuts_cons {c : Char} (h : c = ' ' ∨ c = '(' ∨ c = ')' ∨ c = ';') (cs : List Char) :
    Shuts (c :: cs) := by
  intro x hx
  cases hx
  exact h

section

variable {front rest : List Char} {k : Option Kind}

/-- A lexeme that goes on behind another one goes on with none of the marks that close. -/
lemma Lexeme.open_behind (h : Lexeme front k) {more : List Char} {k' : Option Kind}
    (h' : Lexeme (front ++ more) k') : ∀ x ∈ more, x ≠ ')' ∧ x ≠ ';' := by
  have unquoted := fun x hx => (h.inner_behind h' x hx).2
  have not_word {x : Char} (hx : isWordChar x = true) : x ≠ ')' ∧ x ≠ ';' := by
    constructor <;> rintro rfl <;> exact absurd hx (by decide)
  have all {P : Char → Prop} (hp : ∀ x ∈ front ++ more, P x) : ∀ x ∈ more, P x :=
    (List.forall_mem_append.1 hp).2
  generalize text : front ++ more = other at h' all
  cases h' with
  | number hd =>
    refine all (hd.forall_mem_spell (fun c hc => not_word ?_) (by simp))
    rw [isWordChar, Char.isAlphanum, hc, Bool.or_true, Bool.true_or]
  | string _ =>
    -- What goes on behind a lexeme has no quote at its end.
    obtain rfl | ⟨before, last, rfl⟩ := List.eq_nil_or_concat' more
    · exact List.forall_mem_nil _
    · have same := congrArg List.getLast? text
      rw [← List.append_assoc, ← List.cons_append, List.getLast?_concat,
        List.getLast?_concat] at same
      exact absurd (Option.some.inj same) (unquoted last (by simp))
  | word hc hcs =>
    exact all (List.forall_mem_cons.2
      ⟨not_word (isWordChar_of_isWordStart hc), fun x hx => not_word (hcs x hx)⟩)
  | operator op =>
    refine all ?_
    cases op <;> simp [Operator.text]
  | mark m =>
    -- A mark is one character, which is the lexeme in front.
    have length := congrArg List.length text
    have nonempty := List.length_pos_iff.2 h.ne_nil
    have one : m.text.toList.length = 1 := by cases m <;> rfl
    rw [List.length_append, one] at length
    obtain rfl : more = [] := List.length_eq_zero_iff.1 (by omega)
    exact List.forall_mem_nil _

/-- In front of what shuts it, a lexeme is the longest. -/
lemma Lexeme.longest_of_shuts (h : Lexeme front k) (shuts : Shuts rest) :
    Longest (front ++ rest) front k := by
  refine ⟨List.prefix_append _ _, h, fun other k' ho hk => ?_⟩
  by_contra longer
  obtain ⟨more, rfl⟩ := List.prefix_of_prefix_length_le (List.prefix_append front rest) ho
    (Nat.le_of_not_le longer)
  cases more with
  | nil => simp at longer
  | cons x more =>
    obtain ⟨after, rfl⟩ := (List.prefix_append_right_inj front).1 ho
    obtain ⟨⟨graphic, opening⟩, _⟩ := h.inner_behind hk x List.mem_cons_self
    obtain ⟨closing, semicolon⟩ := h.open_behind hk x List.mem_cons_self
    obtain rfl | same | same | same := shuts x rfl
    · exact absurd graphic (by decide)
    · exact opening same
    · exact closing same
    · exact semicolon same

/-- A mark is the longest lexeme at its place, whatever comes behind it. -/
lemma mark_longest (m : Mark) (rest : List Char) :
    Longest (m.text.toList ++ rest) m.text.toList (some (.mark m)) := by
  obtain ⟨c, text, symbolic, not_word, is_mark⟩ := mark_head m
  have found : scanSymbol c rest = .token (.mark m) ⟨[c], rest⟩ := by
    rw [scanSymbol_of_symbolic symbolic, if_neg (by simp [not_word]), is_mark]
  rw [text]
  exact (scanSymbol_eq_token_iff.1 found).2

/-- The sign of one operand is a lexeme by itself, unless an equals sign is behind it. -/
lemma unary_longest (op : UnaryOp) (h : rest.head? ≠ some '=') :
    Longest (op.symbol.toList ++ rest) op.symbol.toList (some (.operator op.operator)) := by
  cases op with
  | not =>
    have found : scanOperator? ('!' :: rest) = some (.bang, ⟨['!'], rest⟩) := by
      rw [scanOperator?]
      rintro _ rfl
      exact h rfl
    have symbol : scanSymbol '!' rest = .token (.operator .bang) ⟨['!'], rest⟩ := by
      rw [scanSymbol_of_symbolic ⟨rfl, by decide, by decide⟩, if_neg (by decide)]
      simp only [found]
      rfl
    exact (scanSymbol_eq_token_iff.1 symbol).2
  | negate =>
    have symbol : scanSymbol '-' rest = .token (.operator .minus) ⟨['-'], rest⟩ := by
      rw [scanSymbol_of_symbolic ⟨rfl, by decide, by decide⟩, if_neg (by decide)]
      rfl
    exact (scanSymbol_eq_token_iff.1 symbol).2

/-- What shuts a lexeme is no `#`. -/
lemma Shuts.head_ne_sign (h : Shuts rest) : rest.head? ≠ some '#' := by
  intro sign
  exact absurd (h '#' sign) (by decide)

end

/-! ## Texts by their kinds -/

/-- From any place on, the text is tokens of the kinds, the last of which is the end of input. -/
def Lexes (cs : List Char) (ks : List Kind) : Prop :=
  ∀ p, ∃ (ts : List Token) (q : Position),
    Tiles p cs ((ts ++ [Token.endAt q]).map .ok) ∧ ts.map Token.kind ++ [.endOfInput] = ks

namespace Lexes

variable {cs front rest : List Char} {ks : List Kind} {k : Kind}

/-- Nothing is the end of the input. -/
lemma nil : Lexes [] [.endOfInput] :=
  fun p => ⟨[], p, .done .nil, rfl⟩

/-- A blank in front is no token. -/
lemma blank (h : Lexes cs ks) : Lexes (' ' :: cs) ks := by
  intro p
  obtain ⟨ts, q, tiles, kinds⟩ := h (p.after [' '])
  exact ⟨ts, q, tiles.behind_gap (.blank rfl .nil), kinds⟩

/-- A lexeme is in front of the others. -/
lemma lexeme (h : Lexes rest ks) (longest : Longest (front ++ rest) front (some k))
    (head : rest.head? ≠ some '#') : Lexes (front ++ rest) (k :: ks) := by
  intro p
  obtain ⟨ts, q, tiles, kinds⟩ := h (p.after front)
  exact ⟨⟨k, String.ofList front, p⟩ :: ts, q,
    .token .nil (longest.lexeme.bare_of_head head) longest tiles, congrArg (k :: ·) kinds⟩

/-- A lexeme in front of what shuts it is one more token. -/
lemma shut (h : Lexes rest ks) (lexeme : Lexeme front (some k)) (shuts : Shuts rest) :
    Lexes (front ++ rest) (k :: ks) :=
  h.lexeme (lexeme.longest_of_shuts shuts) shuts.head_ne_sign

/-- A mark in front is one more token, if no comment begins there. -/
lemma mark (h : Lexes rest ks) (m : Mark) (head : rest.head? ≠ some '#') :
    Lexes (m.text.toList ++ rest) (.mark m :: ks) :=
  h.lexeme (mark_longest m rest) head

/-- An operator between blanks. -/
lemma between (h : Lexes rest ks) (op : BinaryOp) :
    Lexes (' ' :: (op.symbol.toList ++ ' ' :: rest)) (.operator op.operator :: ks) := by
  have text : op.symbol = op.operator.text := by cases op <;> rfl
  rw [text]
  exact (h.blank.shut (.operator _) (shuts_cons (.inl rfl) _)).blank

/-- A word in front of what shuts it is one more token. -/
lemma word {x : String} (h : Lexes rest ks) (hx : IsWord x) (shuts : Shuts rest) :
    Lexes (x.toList ++ rest) (.word x :: ks) :=
  h.shut hx.lexeme shuts

/-- A number in front of what shuts it is one more token. -/
lemma number {x : Double} (h : Lexes rest ks) (unsigned : x.negative = false) (shuts : Shuts rest) :
    Lexes ((Layout.plain.write x).spell ++ rest) (.number x :: ks) := by
  obtain ⟨literal, value⟩ := Double.ofDecimal?_write_plain unsigned
  have lexeme := Lexeme.number literal
  rw [value] at lexeme
  exact h.shut lexeme shuts

end Lexes

/-! ## Plain strings -/

/-- A printable character of ASCII that a string literal needs no escape for. -/
structure PlainChar (c : Char) : Prop where
  low : 32 ≤ c.toNat
  high : c.toNat ≤ 126
  quote : c ≠ '"'
  backslash : c ≠ '\\'

/-- Whether a character is plain can be computed. -/
instance : DecidablePred PlainChar := fun c =>
  decidable_of_iff (32 ≤ c.toNat ∧ c.toNat ≤ 126 ∧ c ≠ '"' ∧ c ≠ '\\')
    ⟨fun ⟨low, high, quote, backslash⟩ => ⟨low, high, quote, backslash⟩,
      fun ⟨low, high, quote, backslash⟩ => ⟨low, high, quote, backslash⟩⟩

mutual

/-- The string literals of the expression. -/
def Expr.strings : Expr → List String
  | .binary _ l r => l.strings ++ r.strings
  | .unary _ e => e.strings
  | .string s => [s]
  | .call _ es => Expr.stringsOfAll es
  | .number _ | .bool _ | .none | .ref _ => []

/-- The string literals of the expressions. -/
def Expr.stringsOfAll : List Expr → List String
  | [] => []
  | e :: es => e.strings ++ Expr.stringsOfAll es

end

/-- Every string literal of the expression is of plain characters. -/
def Expr.PlainStrings (e : Expr) : Prop :=
  ∀ s ∈ e.strings, ∀ c ∈ s.toList, PlainChar c

/-- The string literals of an expression are among those of all. -/
lemma Expr.strings_subset {e : Expr} {es : List Expr} (he : e ∈ es) :
    e.strings ⊆ Expr.stringsOfAll es := by
  induction he with
  | head es => exact List.subset_append_left _ _
  | tail b _ ih => exact List.subset_append_of_subset_right b.strings ih

/-- The arguments of a call have plain string literals if the call has. -/
lemma Expr.PlainStrings.argument {f : String} {e : Expr} {es : List Expr}
    (h : (Expr.call f es).PlainStrings) (he : e ∈ es) : e.PlainStrings :=
  fun s hs => h s (Expr.strings_subset he hs)

/-- A plain character is quoted as itself. -/
lemma PlainChar.quoteChar_eq {c : Char} (h : PlainChar c) : quoteChar '"' c = [c] := by
  have control {b : Char} (hb : b.toNat < 32) : c ≠ b := by
    rintro rfl
    exact absurd h.low (Nat.not_le_of_lt hb)
  have shown : isShown c = true := by
    rw [isShown, if_pos (Nat.lt_succ_of_le h.high)]
    exact decide_eq_true h.low
  rw [quoteChar, if_neg (control (by decide)), if_neg (control (by decide)),
    if_neg (control (by decide)), if_neg (control (by decide)),
    if_neg (not_or.2 ⟨h.backslash, h.quote⟩), if_pos shown]

/-- Plain characters stand for themselves, in a quoted text and in a literal. -/
lemma quoteWith_plain {cs : List Char} (h : ∀ c ∈ cs, PlainChar c) :
    quoteWith '"' cs = '"' :: (cs ++ ['"']) ∧ StringBody cs cs := by
  rw [quoteWith]
  induction cs with
  | nil => exact ⟨rfl, .nil⟩
  | cons c cs ih =>
    obtain ⟨hc, hcs⟩ := List.forall_mem_cons.1 h
    obtain ⟨text, body⟩ := ih hcs
    refine ⟨?_, .plain hc.quote hc.backslash ?_ body⟩
    · rw [List.flatMap_cons, hc.quoteChar_eq, List.append_assoc, (List.cons.inj text).2]
      rfl
    · rintro rfl
      exact absurd hc.low (by decide)

/-- A plain string literal in front is one more token, if no `#` stands behind it. -/
lemma Lexes.string {s : String} {rest : List Char} {ks : List Kind} (h : Lexes rest ks)
    (plain : ∀ c ∈ s.toList, PlainChar c) (head : rest.head? ≠ some '#') :
    Lexes (quoteWith '"' s.toList ++ rest) (.string s :: ks) := by
  obtain ⟨text, body⟩ := quoteWith_plain plain
  have longest := body.longest rest
  rw [String.ofList_toList] at longest
  rw [text]
  exact h.lexeme longest head

/-! ## Shown expressions -/

variable {d : Division} {e : Expr}

/-- A shown expression begins neither with an equals sign nor with a number sign. -/
lemma Expr.WellFormed.head_ne (h : e.WellFormed d) {c : Char} (hc : Lead.of c = .other)
    (rest : List Char) : (e.spell ++ rest).head? ≠ some c := by
  intro first
  have lead := h.head rest
  rw [first] at lead
  have other : Lead.other = e.lead := hc.symm.trans (Option.some.inj lead)
  cases e <;> cases other

/-- Arguments are lexed one after the other. -/
lemma lexes_spellArgs {es : List Expr} {rest : List Char} {ks : List Kind}
    (formed : ∀ e ∈ es, e.WellFormed d)
    (h : ∀ e ∈ es, ∀ {rest ks}, Lexes rest ks → Shuts rest → Lexes (e.spell ++ rest) (e.shown ks))
    (behind : Lexes rest ks) (shuts : Shuts rest) :
    Lexes (Expr.spellArgs es ++ ')' :: rest)
        (Expr.shownAll es (.mark .rightParen :: ks)) ∧
      (Expr.spellArgs es ++ ')' :: rest).head? ≠ some '#' := by
  have closing : Lexes (')' :: rest) (.mark .rightParen :: ks) :=
    behind.mark .rightParen shuts.head_ne_sign
  induction es with
  | nil => exact ⟨closing, nofun⟩
  | cons e es ih =>
    obtain ⟨he, hes⟩ := List.forall_mem_cons.1 h
    obtain ⟨fe, fes⟩ := List.forall_mem_cons.1 formed
    rw [spellArgs_cons]
    refine ⟨?_, fe.head_ne rfl _⟩
    cases es with
    | nil => exact he closing (shuts_cons (.inr (.inr (.inl rfl))) _)
    | cons b es => exact he (ih fes hes).1.blank (shuts_cons (.inl rfl) _)

/-- The text of a shown expression is lexed as its kinds. -/
theorem Expr.WellFormed.lexes (h : e.WellFormed d) (plain : e.PlainStrings) {rest : List Char}
    {ks : List Kind} (behind : Lexes rest ks) (shuts : Shuts rest) :
    Lexes (e.spell ++ rest) (e.shown ks) := by
  induction h generalizing rest ks with
  | @binary op l r _ hl hr ihl ihr =>
    obtain ⟨pl, pr⟩ := List.forall_mem_append.1 plain
    have closing : Lexes (')' :: rest) (.mark .rightParen :: ks) :=
      behind.mark .rightParen shuts.head_ne_sign
    have right := (ihr pr closing (shuts_cons (.inr (.inr (.inl rfl))) _)).between op
    have left := ihl pl right (shuts_cons (.inl rfl) _)
    have text : (Expr.binary op l r).spell ++ rest = Mark.leftParen.text.toList ++
        (l.spell ++ ' ' :: (op.symbol.toList ++ ' ' :: (r.spell ++ ')' :: rest))) := by
      simp [Expr.spell, Mark.text]
    rw [text]
    exact left.mark .leftParen (hl.head_ne rfl _)
  | @unary op e he ih =>
    rw [Expr.spell, List.append_assoc]
    exact (ih plain behind shuts).lexeme (unary_longest op (he.head_ne rfl _)) (he.head_ne rfl _)
  | number unsigned => exact behind.number unsigned shuts
  | string => exact behind.string (plain _ List.mem_cons_self) shuts.head_ne_sign
  | @bool b =>
    cases b with
    | false => exact behind.word (isWord_keyword .kwFalse) shuts
    | true => exact behind.word (isWord_keyword .kwTrue) shuts
  | none => exact behind.word (isWord_keyword .kwNone) shuts
  | ref name => exact behind.word name.word shuts
  | @call f es name hes ih =>
    obtain ⟨args, head⟩ :=
      lexes_spellArgs hes (fun e he => ih e he (plain.argument he)) behind shuts
    have text : (Expr.call f es).spell ++ rest =
        f.toList ++ (Mark.leftParen.text.toList ++ (Expr.spellArgs es ++ ')' :: rest)) := by
      simp [Expr.spell, Mark.text]
    rw [text]
    exact (args.mark .leftParen head).word name.word (shuts_cons (.inr (.inl rfl)) _)

end Quill
