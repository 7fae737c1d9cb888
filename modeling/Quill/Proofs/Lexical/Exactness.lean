import Quill.Proofs.Lexical.Tiling

/-!
# Exactness of the scanner

The items of a text are those of its one tiling, nothing is lost or read twice, and a text has no
tokens exactly when it is not lexemes and trivia, or has a number in it that is too great.
-/

namespace Quill

/-! ## Calls -/

namespace Scanner

/-- What the call with the given number yields. A scanner that is finished stays as it is. -/
def call (s : Scanner) : Nat → Option Item
  | 0 => s.next?.map Prod.fst
  | n + 1 => (s.next?.elim s Prod.snd).call n

/-- The calls yield the items in order, and nothing after the last. -/
lemma call_eq (s : Scanner) (n : Nat) : s.call n = s.items[n]? := by
  induction n generalizing s with
  | zero =>
    rw [call, items]
    split <;> rename_i h <;> simp [h]
  | succ n ih =>
    rw [call, ih]
    cases h : s.next? with
    | none =>
      have finished : s.items = [] := by
        rw [items]
        split <;> rename_i hs
        · rfl
        · rw [h] at hs
          cases hs
      simp [finished]
    | some out =>
      obtain ⟨item, t⟩ := out
      have more : s.items = item :: t.items := by
        rw [items]
        split <;> rename_i hs
        · rw [h] at hs
          cases hs
        · rw [h] at hs
          cases hs
          rfl
      simp [more]

end Scanner

/-! ## All tokens or the first error -/

/-- Tokens without an error are the tokens of the text. -/
lemma mapM_tokens (ts : List Token) :
    (ts.map .ok : List Item).mapM id = .ok ts := by
  induction ts with
  | nil => rfl
  | cons t ts ih =>
    rw [List.map_cons, List.mapM_cons, ih]
    rfl

/-- The first error is the error of the text. -/
lemma mapM_error (ts : List Token) (e : LexError) (items : List Item) :
    (ts.map .ok ++ .error e :: items : List Item).mapM id = .error e := by
  induction ts with
  | nil =>
    rw [List.map_nil, List.nil_append, List.mapM_cons]
    rfl
  | cons t ts ih =>
    rw [List.map_cons, List.cons_append, List.mapM_cons, ih]
    rfl

/-- The items of a text tile it. -/
lemma tiles_tokenize (source : String) : Tiles .start source.toList (tokenize source) :=
  items_eq_iff_tiles.1 rfl

/-- Tokens are all that a text yields, or an error comes behind them. -/
lemma tokenize_cases (source : String) :
    (∃ ts : List Token, tokenize source = ts.map .ok ∧ tokenizeAll source = .ok ts) ∨
      ∃ (ts : List Token) (e : LexError),
        tokenize source = ts.map .ok ++ [.error e] ∧ tokenizeAll source = .error e := by
  obtain ⟨ts, last, items, _, rfl | ⟨e, rfl⟩⟩ := (tiles_tokenize source).last
  · let last : Token := .endAt (Position.start.after source.toList)
    have items : tokenize source = (ts ++ [last]).map .ok := by
      rw [items, List.map_append]
      rfl
    exact .inl ⟨_, items, by rw [tokenizeAll, items, mapM_tokens]⟩
  · exact .inr ⟨ts, e, items, by rw [tokenizeAll, items, mapM_error]⟩

/-- The eager reading succeeds where every item is a token. -/
lemma tokenizeAll_eq_ok_iff {source : String} {ts : List Token} :
    tokenizeAll source = .ok ts ↔ tokenize source = ts.map .ok := by
  constructor
  · intro h
    obtain ⟨us, items, all⟩ | ⟨us, e, _, all⟩ := tokenize_cases source
    · rw [h] at all
      cases all
      exact items
    · rw [h] at all
      cases all
  · intro items
    rw [tokenizeAll, items, mapM_tokens]

/-- The eager reading fails with the error that the items end with. -/
lemma tokenizeAll_eq_error_iff {source : String} {e : LexError} :
    tokenizeAll source = .error e ↔
      ∃ ts : List Token, tokenize source = ts.map .ok ++ [.error e] := by
  constructor
  · intro h
    obtain ⟨ts, _, all⟩ | ⟨ts, e', items, all⟩ := tokenize_cases source
    · rw [h] at all
      cases all
    · rw [h] at all
      cases all
      exact ⟨ts, items⟩
  · rintro ⟨ts, items⟩
    rw [tokenizeAll, items, mapM_error]

/-! ## Decompositions -/

/-- The text is trivia and lexemes, each lexeme the longest at its place. -/
inductive Decomposes : List Char → List (List Char × Option Kind) → Prop where
  | done {gap} :
    Gap gap →
    Decomposes gap []
  | lexeme {gap lexeme rest k pieces} :
    Gap gap →
    Bare (lexeme ++ rest) →
    Longest (lexeme ++ rest) lexeme k →
    Decomposes rest pieces →
    Decomposes (gap ++ (lexeme ++ rest)) ((lexeme, k) :: pieces)

/-- Trivia is told apart from the bare text behind it. -/
lemma Gap.unique {gap gap' rest rest' : List Char} (hg : Gap gap) (hb : Bare rest)
    (hg' : Gap gap') (hb' : Bare rest') (text : gap ++ rest = gap' ++ rest') :
    gap = gap' ∧ rest = rest' := by
  have skipped : skipTrivia (gap ++ rest) = .skipped ⟨gap, rest⟩ :=
    skipTrivia_eq_skipped_iff.2 ⟨rfl, hg, hb⟩
  have skipped' : skipTrivia (gap' ++ rest') = .skipped ⟨gap', rest'⟩ :=
    skipTrivia_eq_skipped_iff.2 ⟨rfl, hg', hb'⟩
  rw [text, skipped'] at skipped
  cases skipped
  exact ⟨rfl, rfl⟩

/-- A text is not both trivia and trivia with a lexeme behind them. -/
lemma Gap.ne_lexeme {gap gap' lexeme rest : List Char} {k : Option Kind} (hg : Gap gap)
    (hg' : Gap gap') (hb : Bare (lexeme ++ rest)) (hl : Longest (lexeme ++ rest) lexeme k) :
    gap ≠ gap' ++ (lexeme ++ rest) := by
  intro text
  obtain ⟨_, nothing⟩ := hg.unique bare_nil hg' hb ((List.append_nil gap).trans text)
  exact hl.lexeme.ne_nil (List.append_eq_nil_iff.1 nothing.symm).1

/-- A text has at most one decomposition. -/
lemma Decomposes.unique {cs : List Char} {pieces pieces' : List (List Char × Option Kind)}
    (h : Decomposes cs pieces) (h' : Decomposes cs pieces') : pieces = pieces' := by
  induction h generalizing pieces' with
  | @done gap hg =>
    generalize text : gap = cs at h'
    cases h' with
    | done _ => rfl
    | lexeme hg' hb' hl' _ => exact absurd text (hg.ne_lexeme hg' hb' hl')
  | @lexeme gap lexeme rest k pieces hg hb hl _ ih =>
    generalize text : gap ++ (lexeme ++ rest) = cs at h'
    cases h' with
    | done hg' => exact absurd text.symm (hg'.ne_lexeme hg hb hl)
    | lexeme hg' hb' hl' h' =>
      obtain ⟨rfl, bare⟩ := hg.unique hb hg' hb' text
      rw [← bare] at hl'
      obtain ⟨rfl, rfl⟩ := hl.unique hl'
      obtain rfl := List.append_cancel_left bare
      rw [ih h']

/-- Lexemes that all have a kind make a tiling of tokens. -/
lemma Decomposes.tiles {cs : List Char} {pieces : List (List Char × Option Kind)}
    (h : Decomposes cs pieces) (finite : ∀ lexeme, (lexeme, none) ∉ pieces) (p : Position) :
    ∃ ts : List Token, Tiles p cs (ts.map .ok) := by
  induction h generalizing p with
  | @done gap hg => exact ⟨[.endAt (p.after gap)], .done hg⟩
  | @lexeme gap lexeme rest k pieces hg hb hl _ ih =>
    obtain ⟨ts, h⟩ := ih (fun lexeme' mem => finite lexeme' (List.mem_cons_of_mem _ mem))
      ((p.after gap).after lexeme)
    cases k with
    | some kind => exact ⟨⟨kind, String.ofList lexeme, p.after gap⟩ :: ts, .token hg hb hl h⟩
    | none => exact absurd List.mem_cons_self (finite lexeme)

/-- A tiling without an error is made of lexemes that have a kind. -/
lemma Tiles.decomposes {p : Position} {cs : List Char} {items : List Item} (h : Tiles p cs items)
    (tokens : ∀ e, .error e ∉ items) :
    ∃ pieces, Decomposes cs pieces ∧ ∀ lexeme, (lexeme, none) ∉ pieces := by
  induction h with
  | done hg => exact ⟨[], .done hg, nofun⟩
  | @token p gap lexeme rest kind items hg hb hl _ ih =>
    obtain ⟨pieces, h, finite⟩ := ih fun e mem => tokens e (List.mem_cons_of_mem _ mem)
    refine ⟨_, .lexeme hg hb hl h, fun lexeme' mem => ?_⟩
    cases mem with
    | tail _ mem => exact finite lexeme' mem
  | fault _ _ _ => exact absurd List.mem_cons_self (tokens _)
  | unclosed _ _ => exact absurd List.mem_cons_self (tokens _)

/-- The eager reading fails exactly when there is no decomposition, or a number in it is too
great. -/
lemma exists_error_iff {source : String} :
    (∃ e, tokenizeAll source = .error e) ↔
      (¬ ∃ pieces, Decomposes source.toList pieces) ∨
        ∃ pieces lexeme, Decomposes source.toList pieces ∧ (lexeme, none) ∈ pieces := by
  obtain ⟨ts, items, all⟩ | ⟨ts, e, items, all⟩ := tokenize_cases source
  · -- Every lexeme has a kind, so there is nothing to object to.
    have tokens : ∀ e, .error e ∉ tokenize source := by
      rw [items]
      simp
    obtain ⟨pieces, h, finite⟩ := (tiles_tokenize source).decomposes tokens
    rw [all]
    constructor
    · rintro ⟨e, ⟨⟩⟩
    · rintro (no | ⟨pieces', lexeme, h', mem⟩)
      · exact absurd ⟨pieces, h⟩ no
      · exact absurd (h'.unique h ▸ mem) (finite lexeme)
  · refine ⟨fun _ => ?_, fun _ => ⟨e, all⟩⟩
    -- A decomposition with a kind for every lexeme would be a tiling without an error.
    by_contra no
    obtain ⟨some_pieces, finite⟩ := not_or.1 no
    obtain ⟨pieces, h⟩ := not_not.1 some_pieces
    obtain ⟨ts', tiles⟩ := h.tiles (fun lexeme mem => finite ⟨pieces, lexeme, h, mem⟩) .start
    have same := (items_of_tiles tiles).symm.trans items
    have mem : (.error e : Item) ∈ ts'.map .ok := by
      rw [same]
      simp
    simp at mem

/-- The items of a text tile it, and nothing else does. They are no more than the characters and
one, tokens and then the end of the text or an error, and then nothing forever. Each lexeme stands
at its token's place, and the eager reading fails with the error that ends the items, exactly when
the text is not trivia and lexemes or has too great a number among them. -/
theorem tokenize_tiles_source (source : String) :
    (∀ items, tokenize source = items ↔ Tiles .start source.toList items) ∧
    (tokenize source).length ≤ source.length + 1 ∧
    (∃ (ts : List Token) (last : Item), tokenize source = ts.map .ok ++ [last] ∧
      (∀ t ∈ ts, t.kind ≠ .endOfInput) ∧
      ((∃ p, last = .ok (.endAt p) ∧ p.offset = source.utf8ByteSize) ∨ ∃ e, last = .error e)) ∧
    (∀ n, (Scanner.ofText source).call n = (tokenize source)[n]?) ∧
    (∀ t, .ok t ∈ tokenize source → ∃ before after, source = before ++ t.lexeme ++ after ∧
      t.position.offset = before.utf8ByteSize) ∧
    (∀ e, tokenizeAll source = .error e ↔
      ∃ ts : List Token, Tiles .start source.toList (ts.map .ok ++ [.error e])) ∧
    ((∃ e, tokenizeAll source = .error e) ↔
      (¬ ∃ pieces, Decomposes source.toList pieces) ∨
        ∃ pieces lexeme, Decomposes source.toList pieces ∧ (lexeme, none) ∈ pieces) := by
  have tiles := tiles_tokenize source
  refine ⟨fun items => items_eq_iff_tiles, ?_, ?_, Scanner.call_eq _, ?_, ?_, exists_error_iff⟩
  · rw [← String.length_toList]
    exact tiles.length_le
  · obtain ⟨ts, last, items, inner, rfl | error⟩ := tiles.last
    · refine ⟨ts, _, items, inner, .inl ⟨_, rfl, ?_⟩⟩
      rw [offset_after, String.ofList_toList]
      exact Nat.zero_add _
    · exact ⟨ts, last, items, inner, .inr error⟩
  · intro t ht
    obtain ⟨before, after, text, place⟩ := tiles.slice ht
    refine ⟨String.ofList before, String.ofList after, ?_, ?_⟩
    · apply String.toList_inj.1
      simp [text]
    · rw [place, offset_after]
      exact Nat.zero_add _
  · intro e
    rw [tokenizeAll_eq_error_iff]
    exact exists_congr fun ts => items_eq_iff_tiles

/-- Two operators stand side by side, and the comment holds another. -/
example : tokenizeAll "a<==(#(##)#)b" =
    .error ⟨⟨3, 1, 4⟩, .unexpectedChar '='⟩ := by cbv

end Quill
