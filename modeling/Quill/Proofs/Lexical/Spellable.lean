import Quill.Proofs.Lexical.Spacing
import Quill.Proofs.Number.Literal

/-!
# Kinds that can be written

Which kinds of tokens some text is read as. Every string is the value of a literal, a word is its
own spelling, and a number has a literal exactly if it has no sign. Any such kinds in a row are the
kinds of a text (`exists_source`), since their lexemes can be written with blanks between them.
-/

namespace Quill

/-- The text is `[A-Za-z_][A-Za-z0-9_]*`. -/
def IsWord (x : String) : Prop :=
  ∃ c cs, x.toList = c :: cs ∧ (c.isAlpha = true ∨ c = '_') ∧
    ∀ c' ∈ cs, c'.isAlphanum = true ∨ c' = '_'

/-- Some lexeme is of the kind. -/
def Kind.Spellable (k : Kind) : Prop :=
  ∃ front, Lexeme front (some k)

/-! ## One kind -/

/-- A word begins with a letter or an underscore. -/
lemma isWordStart_iff {c : Char} : isWordStart c = true ↔ c.isAlpha = true ∨ c = '_' := by
  rw [isWordStart, Bool.or_eq_true, beq_iff_eq]

/-- A word goes on with letters, digits and underscores. -/
lemma isWordChar_iff {c : Char} : isWordChar c = true ↔ c.isAlphanum = true ∨ c = '_' := by
  rw [isWordChar, Bool.or_eq_true, beq_iff_eq]

/-- A word is its own spelling. -/
lemma IsWord.lexeme {x : String} (h : IsWord x) : Lexeme x.toList (some (.word x)) := by
  obtain ⟨c, cs, text, hc, hcs⟩ := h
  have lexeme := Lexeme.word (isWordStart_iff.2 hc) fun c' hc' => isWordChar_iff.2 (hcs c' hc')
  rwa [← text, String.ofList_toList] at lexeme

/-- The words that can be spelled are those that are written like one. -/
lemma spellable_word_iff {x : String} : (Kind.word x).Spellable ↔ IsWord x := by
  constructor
  · rintro ⟨front, h⟩
    generalize hk : some (Kind.word x) = k at h
    cases h with
    | number _ => simp at hk
    | @word c cs hc hcs =>
      cases hk
      exact ⟨c, cs, String.toList_ofList, isWordStart_iff.1 hc,
        fun c' hc' => isWordChar_iff.1 (hcs c' hc')⟩
    | _ => cases hk
  · intro h
    exact ⟨_, h.lexeme⟩

/-- The numbers that can be spelled are those without a minus sign. -/
lemma spellable_number_iff {x : Double} : (Kind.number x).Spellable ↔ x.negative = false := by
  rw [← x.exists_literal_iff]
  constructor
  · rintro ⟨front, h⟩
    generalize hk : some (Kind.number x) = k at h
    cases h with
    | @number d hd =>
      obtain ⟨_, hx, same⟩ := Option.map_eq_some_iff.1 hk.symm
      cases same
      exact ⟨d, hd, hx⟩
    | _ => cases hk
  · rintro ⟨d, hd, hx⟩
    have lexeme := Lexeme.number hd
    rw [hx] at lexeme
    exact ⟨_, lexeme⟩

/-- Every text is the value of a string literal. -/
lemma exists_spelling (value : List Char) : ∃ spelling, StringBody spelling value := by
  induction value with
  | nil => exact ⟨[], .nil⟩
  | cons v vs ih =>
    obtain ⟨cs, body⟩ := ih
    by_cases quote : v = '"'
    · exact ⟨_, quote ▸ StringBody.escape (.short .quote) body⟩
    · by_cases backslash : v = '\\'
      · exact ⟨_, backslash ▸ StringBody.escape (.short .backslash) body⟩
      · by_cases newline : v = '\n'
        · exact ⟨_, newline ▸ StringBody.escape (.short .newline) body⟩
        · exact ⟨v :: cs, .plain quote backslash newline body⟩

/-- Every string can be spelled. -/
lemma spellable_string (s : String) : (Kind.string s).Spellable := by
  obtain ⟨spelling, body⟩ := exists_spelling s.toList
  have lexeme := Lexeme.string body
  rw [String.ofList_toList] at lexeme
  exact ⟨_, lexeme⟩

/-- Every operator can be spelled. -/
lemma spellable_operator (op : Operator) : (Kind.operator op).Spellable :=
  ⟨_, .operator op⟩

/-- Every mark can be spelled. -/
lemma spellable_mark (m : Mark) : (Kind.mark m).Spellable :=
  ⟨_, .mark m⟩

/-- A keyword is written like a word. -/
lemma isWord_keyword (w : Keyword) : IsWord w.text := by
  cases w <;> simp [IsWord, Keyword.text]

/-- Every keyword can be spelled. -/
lemma spellable_keyword (w : Keyword) : w.kind.Spellable :=
  spellable_word_iff.2 (isWord_keyword w)

/-! ## Many kinds -/

/-- Lexemes can be found for kinds that have some. -/
lemma exists_tokens {ks : List Kind} (h : ∀ k ∈ ks, k.Spellable) :
    ∃ ts : List Token, ts.map Token.kind = ks ∧
      ∀ t ∈ ts, Lexeme t.lexeme.toList (some t.kind) := by
  induction ks with
  | nil => exact ⟨[], rfl, nofun⟩
  | cons k ks ih =>
    obtain ⟨⟨front, lexeme⟩, hks⟩ := List.forall_mem_cons.1 h
    obtain ⟨ts, rfl, lexemes⟩ := ih hks
    rw [← String.toList_ofList (l := front)] at lexeme
    exact ⟨⟨k, String.ofList front, .start⟩ :: ts, rfl, List.forall_mem_cons.2 ⟨lexeme, lexemes⟩⟩

/-- The kinds of a text can be written. -/
lemma spellable_of_mem {source : String} {t : Token} (ht : .ok t ∈ tokenize source)
    (hk : t.kind ≠ .endOfInput) : t.kind.Spellable :=
  ⟨_, (tiles_tokenize source).lexeme ht hk⟩

/-- Kinds that can be written are the kinds of a text. -/
theorem exists_source {ks : List Kind} (h : ∀ k ∈ ks, k.Spellable) :
    ∃ (source : String) (ts : List Token) (p : Position),
      tokenize source = (ts ++ [Token.endAt p]).map .ok ∧ ts.map Token.kind = ks := by
  obtain ⟨ts, rfl, lexemes⟩ := exists_tokens h
  obtain ⟨ts', q, tiles, same⟩ := tiles_spaced lexemes (gaps_blanks ts.length)
    (List.length_replicate ..) .nil .start
  refine ⟨String.ofList (spaced ts (List.replicate ts.length [' '])), ts', q, ?_,
    kinds_of_contents same⟩
  rw [tokenize, Scanner.ofText, String.toList_ofList]
  exact items_of_tiles tiles

end Quill
