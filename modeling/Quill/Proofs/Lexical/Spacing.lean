import Quill.Proofs.Lexical.Characters
import Quill.Proofs.Lexical.Exactness
import Quill.Proofs.Lexical.Places
import Quill.Proofs.Stream.Blindness

/-!
# Spacing

What stands between the lexemes of a text does not matter. Lexemes with trivia between them, and any
trivia or none behind the last, are a text with the same tokens elsewhere, since nothing that
separates two lexemes can be taken for a part of the first (`tiles_spaced`). A parse does not see
where tokens stand, so the tree is the same too, or the words of the error.
-/

namespace Quill

/-- The lexemes of the tokens in order, each with the gap behind it. -/
def spaced (ts : List Token) (gaps : List (List Char)) : List Char :=
  (List.zipWith (fun t gap => t.lexeme.toList ++ gap) ts gaps).flatten

/-- The gaps are trivia, and none but the last is empty. -/
structure Gaps (gaps : List (List Char)) : Prop where
  trivia : ∀ gap ∈ gaps, Gap gap
  apart : ∀ gap ∈ gaps.dropLast, gap ≠ []

/-- The gaps behind the first one are gaps. -/
lemma Gaps.tail {gap : List Char} {gaps : List (List Char)} (h : Gaps (gap :: gaps)) :
    Gaps gaps where
  trivia gap' hgap' := h.trivia gap' (List.mem_cons_of_mem _ hgap')
  apart gap' hgap' := by
    refine h.apart gap' ?_
    cases gaps with
    | nil => cases hgap'
    | cons _ _ => exact List.mem_cons_of_mem _ hgap'

/-- What stands behind a lexeme separates it from the next one. -/
lemma Gaps.separated {gap : List Char} {gaps : List (List Char)} (h : Gaps (gap :: gaps))
    {ts : List Token} (length : gaps.length = ts.length) : Separated (gap ++ spaced ts gaps) := by
  have hgap := separated_of_gap (h.trivia gap List.mem_cons_self)
  cases gaps with
  | nil =>
    obtain rfl := List.length_eq_zero_iff.1 length.symm
    simpa [spaced] using hgap
  | cons _ _ => exact hgap.append (h.apart gap List.mem_cons_self) _

/-- Lexemes with trivia between them are tiled by tokens of their kinds. -/
theorem tiles_spaced {ts : List Token} {gaps : List (List Char)}
    (lexemes : ∀ t ∈ ts, Lexeme t.lexeme.toList (some t.kind)) (hg : Gaps gaps)
    (length : gaps.length = ts.length) {gap : List Char} (front : Gap gap) (p : Position) :
    ∃ ts' q, Tiles p (gap ++ spaced ts gaps) ((ts' ++ [Token.endAt q]).map .ok) ∧
      ts'.map Token.content = ts.map Token.content := by
  induction ts generalizing gaps gap p with
  | nil =>
    obtain rfl := List.length_eq_zero_iff.1 length
    refine ⟨[], p.after gap, ?_, rfl⟩
    rw [spaced, List.zipWith_nil_right, List.flatten_nil, List.append_nil]
    exact .done front
  | cons t ts ih =>
    cases gaps with
    | nil => cases length
    | cons behind gaps =>
      obtain ⟨ht, lexemes⟩ := List.forall_mem_cons.1 lexemes
      have rest_length := Nat.succ.inj length
      have separated := hg.separated rest_length
      obtain ⟨ts', q, tiles, same⟩ := ih lexemes hg.tail rest_length
        (hg.trivia behind List.mem_cons_self) ((p.after gap).after t.lexeme.toList)
      have text : gap ++ spaced (t :: ts) (behind :: gaps) =
          gap ++ (t.lexeme.toList ++ (behind ++ spaced ts gaps)) := by simp [spaced]
      rw [text]
      refine ⟨⟨t.kind, String.ofList t.lexeme.toList, p.after gap⟩ :: ts', q,
        .token front (ht.bare separated) (ht.longest separated) tiles, ?_⟩
      simp [Token.content, same]

/-- No gap is left for the last token. -/
lemma spaced_concat {ts : List Token} {gaps : List (List Char)} (length : gaps.length = ts.length)
    (last : Token) : spaced (ts ++ [last]) gaps = spaced ts gaps := by
  rw [spaced, ← List.append_nil gaps, List.zipWith_append length.symm, List.zipWith_nil_right,
    List.append_nil, List.append_nil, spaced]

/-- The tokens of a text that has no error are lexemes and the end. -/
lemma exists_lexemes {source : String} {ts : List Token} (h : tokenizeAll source = .ok ts) :
    tokenize source = ts.map .ok ∧ ∃ front last, ts = front ++ [last] ∧
      last.content = (.endOfInput, "") ∧ ∀ t ∈ front, Lexeme t.lexeme.toList (some t.kind) := by
  have tiles := tiles_tokenize source
  have items := tokenizeAll_eq_ok_iff.1 h
  refine ⟨items, ?_⟩
  obtain ⟨front, last, split, inner, hlast⟩ := tiles.last
  rw [items] at split tiles
  obtain ⟨front', back, rfl, hfront, hback⟩ := List.map_eq_append_iff.1 split
  obtain rfl := (List.map_inj_right fun _ _ => Except.ok.inj).1 hfront
  obtain ⟨last, rfl, rfl⟩ := List.map_eq_singleton_iff.1 hback
  obtain same | ⟨e, same⟩ := hlast
  · obtain rfl := Except.ok.inj same
    refine ⟨front', _, rfl, rfl, fun t ht => tiles.lexeme ?_ (inner t ht)⟩
    exact List.mem_map_of_mem (List.mem_append_left _ ht)
  · cases same

/-- The lexemes of a text with other trivia between them have the same tokens elsewhere. -/
lemma exists_respaced {source : String} {ts : List Token} {gaps : List (List Char)}
    (lexed : tokenizeAll source = .ok ts) (length : gaps.length + 1 = ts.length)
    (hg : Gaps gaps) :
    ∃ ts' : List Token, tokenize (String.ofList (spaced ts gaps)) = ts'.map .ok ∧
      ts'.map Token.content = ts.map Token.content := by
  obtain ⟨_, front, last, rfl, end_content, lexemes⟩ := exists_lexemes lexed
  have front_length : gaps.length = front.length := by simpa using length
  obtain ⟨ts', q, tiles, same⟩ := tiles_spaced lexemes hg front_length .nil .start
  rw [spaced_concat front_length]
  refine ⟨ts' ++ [.endAt q], ?_, ?_⟩
  · rw [tokenize, Scanner.ofText, String.toList_ofList]
    exact items_of_tiles tiles
  · rw [List.map_append, List.map_append, same, List.map_singleton, List.map_singleton, end_content]
    rfl

/-- The lexemes of a text without an error, with any trivia between them, have tokens of the same
kinds and lexemes, and a parse of either text gives the same tree, or errors with the same code and
the same message. -/
theorem relex_spaced (source : String) (ts : List Token) (gaps : List (List Char))
    (lexed : tokenizeAll source = .ok ts) (length : gaps.length + 1 = ts.length) (hg : Gaps gaps) :
    (∃ ts', tokenizeAll (String.ofList (spaced ts gaps)) = .ok ts' ∧
      ts'.map Token.content = ts.map Token.content) ∧
    ∀ settings, Alike (parseText settings source)
      (parseText settings (String.ofList (spaced ts gaps))) := by
  obtain ⟨ts', items, same⟩ := exists_respaced lexed length hg
  constructor
  · exact ⟨ts', by rw [tokenizeAll, items, mapM_tokens], same⟩
  · intro settings
    rw [parseText, parseText, items, (exists_lexemes lexed).1]
    exact parseItems_alike settings same

/-- A word, a string that holds a comment's opener, an operator of two characters, and the end. -/
def sampleTokens : List Token :=
  [⟨.word "a", "a", ⟨0, 1, 1⟩⟩, ⟨.string "(#", "\"(#\"", ⟨1, 1, 2⟩⟩,
    ⟨.operator .lessEqual, "<=", ⟨5, 1, 6⟩⟩, .endAt ⟨7, 1, 8⟩]

/-- Trivia of both sorts between the tokens, and none at the end. -/
lemma gaps_sample : Gaps ["(#\n#)".toList, [' ', '\t'], []] where
  trivia := by
    refine List.forall_mem_cons.2 ⟨?_, List.forall_mem_cons.2 ⟨?_, ?_⟩⟩
    · exact .comment (.plain (by decide) (by decide) .nil) .nil
    · exact .blank rfl (.blank rfl .nil)
    · exact List.forall_mem_singleton.2 .nil
  apart := by decide

/-- The trivia could not be left out behind the operator's first character, and it can everywhere
else. -/
theorem relex_sample :
    tokenizeAll "a\"(#\"<=" = .ok sampleTokens ∧
      (∃ ts', tokenizeAll "a(#\n#)\"(#\" \t<=" = .ok ts' ∧
        ts'.map Token.content = sampleTokens.map Token.content) ∧
      ∀ settings, Alike (parseText settings "a\"(#\"<=")
        (parseText settings "a(#\n#)\"(#\" \t<=") := by
  have lexed : tokenizeAll "a\"(#\"<=" = .ok sampleTokens := by decide +kernel
  have text : String.ofList (spaced sampleTokens ["(#\n#)".toList, [' ', '\t'], []]) =
      "a(#\n#)\"(#\" \t<=" := rfl
  have relexed := relex_spaced _ _ _ lexed rfl gaps_sample
  rw [text] at relexed
  exact ⟨lexed, relexed⟩

/-! ## One blank between lexemes -/

/-- Single blanks are gaps. -/
lemma gaps_blanks (n : Nat) : Gaps (List.replicate n [' ']) where
  trivia gap hgap := by
    rw [List.eq_of_mem_replicate hgap]
    exact .blank rfl .nil
  apart gap hgap := by
    rw [List.eq_of_mem_replicate (List.dropLast_subset _ hgap)]
    exact List.cons_ne_nil _ _

/-- The lexemes of a text are joined with a blank behind each but the last. -/
lemma toList_joinLexemes (ts : List Token) {last : Token} (h : last.lexeme = "") :
    (joinLexemes (ts ++ [last])).toList =
      spaced (ts ++ [last]) (List.replicate ts.length [' ']) := by
  rw [spaced_concat (List.length_replicate ..), joinLexemes, String.toList_intercalate]
  induction ts with
  | nil => simp [spaced, h]
  | cons t ts ih =>
    have more : (ts ++ [last]).map (String.toList ∘ Token.lexeme) ≠ [] := by simp
    rw [List.map_map] at ih ⊢
    rw [List.cons_append, List.map_cons, List.intercalate_cons_of_ne_nil more, ih]
    simp [spaced, List.replicate_succ]

/-- Lexemes joined by a blank have the same tokens elsewhere. -/
theorem tokenizeAll_joinLexemes {source : String} {ts : List Token}
    (lexed : tokenizeAll source = .ok ts) :
    ∃ ts', tokenizeAll (joinLexemes ts) = .ok ts' ∧
      ts'.map Token.content = ts.map Token.content := by
  obtain ⟨_, front, last, rfl, end_content, _⟩ := exists_lexemes lexed
  have length : (List.replicate front.length [' ']).length + 1 = (front ++ [last]).length := by simp
  obtain ⟨ts', items, same⟩ := exists_respaced lexed length (gaps_blanks _)
  rw [← toList_joinLexemes front (Prod.mk.inj end_content).2, String.ofList_toList] at items
  exact ⟨ts', by rw [tokenizeAll, items, mapM_tokens], same⟩

end Quill
