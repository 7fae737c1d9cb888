import Mathlib.Logic.Function.Iterate
import Quill.Proofs.Lexical.Places
import Quill.Proofs.Lexical.Resuming

/-!
# Comments

Where a comment ends, by counting. A text is read from left to right in openers `(#`, closers `#)`
and single characters. A comment is the shortest part in front that has as many closers as openers,
and where there is none the comment is never closed (`comments_balance`). A text that has tokens can
be put in a comment, since outside of strings a number sign stands only in the comments that it has.
-/

namespace Quill

/-- The text from left to right in openers, closers and single characters, without overlap. -/
def markers : List Char → List (List Char)
  | '(' :: '#' :: cs => ['(', '#'] :: markers cs
  | '#' :: ')' :: cs => ['#', ')'] :: markers cs
  | c :: cs => [c] :: markers cs
  | [] => []

/-- In these pieces, `n` more comments are closed than opened. -/
def Closes (n : Nat) (pieces : List (List Char)) : Prop :=
  pieces.count ['#', ')'] = pieces.count ['(', '#'] + n

/-- There are pieces, and as many closers among them as openers. -/
def Balanced (pieces : List (List Char)) : Prop :=
  pieces ≠ [] ∧ pieces.count ['#', ')'] = pieces.count ['(', '#']

/-- `front` is the shortest part in front for which `P` holds. -/
structure Shortest {α : Type} (P : List α → Prop) (xs front : List α) : Prop where
  isPrefix : front <+: xs
  holds : P front
  length_le : ∀ other, other <+: xs → P other → front.length ≤ other.length

/-! ## Counting -/

/-- No open comment is closed by nothing. -/
lemma not_closes_nil (n : Nat) : ¬ Closes (n + 1) [] := nofun

/-- An opener is one more comment to close. -/
lemma closes_opener_iff {n : Nat} {pieces : List (List Char)} :
    Closes n (['(', '#'] :: pieces) ↔ Closes (n + 1) pieces := by
  rw [Closes, Closes, List.count_cons_self, List.count_cons_of_ne (by decide)]
  omega

/-- A closer is one comment less to close. -/
lemma closes_closer_iff {n : Nat} {pieces : List (List Char)} :
    Closes (n + 1) (['#', ')'] :: pieces) ↔ Closes n pieces := by
  rw [Closes, Closes, List.count_cons_self, List.count_cons_of_ne (by decide)]
  omega

/-- A single character closes no comment and opens none. -/
lemma closes_plain_iff {n : Nat} {c : Char} {pieces : List (List Char)} :
    Closes n ([c] :: pieces) ↔ Closes n pieces := by
  rw [Closes, Closes, List.count_cons_of_ne (by simp), List.count_cons_of_ne (by simp)]

/-- A text that begins with an opener is balanced exactly if the rest closes that one. -/
lemma balanced_opener_iff {pieces : List (List Char)} :
    Balanced (['(', '#'] :: pieces) ↔ Closes 1 pieces := by
  rw [← closes_opener_iff]
  simp [Balanced, Closes]

/-- The cut takes the shortest part for which `P` holds, or there is no cut and no such part. -/
def Found (P : List (List Char) → Prop) (pieces : List (List Char)) : Option Cut → Prop
  | some cut => ∃ front, Shortest P pieces front ∧ front.flatten = cut.taken
  | none => ∀ other, other <+: pieces → ¬ P other

/-- With one more piece in front, what is found has that piece in front. -/
lemma Found.cons {P Q : List (List Char) → Prop} {piece : List Char} {pieces : List (List Char)}
    {cut : Option Cut} (h : Found Q pieces cut) (shift : ∀ ps, P (piece :: ps) ↔ Q ps)
    (empty : ¬ P []) : Found P (piece :: pieces) (cut.map (·.prepend piece)) := by
  have inside : ∀ other, other <+: piece :: pieces → P other →
      ∃ inner, other = piece :: inner ∧ inner <+: pieces ∧ Q inner := by
    intro other ho hP
    cases other with
    | nil => exact absurd hP empty
    | cons p inner =>
      obtain ⟨rfl, hi⟩ := List.cons_prefix_cons.1 ho
      exact ⟨inner, rfl, hi, (shift inner).1 hP⟩
  cases cut with
  | some cut =>
    obtain ⟨front, ⟨isPrefix, holds, length_le⟩, taken⟩ := h
    refine ⟨piece :: front, ⟨?_, (shift front).2 holds, fun other ho hP => ?_⟩, by simp [taken]⟩
    · exact List.cons_prefix_cons.2 ⟨rfl, isPrefix⟩
    · obtain ⟨inner, rfl, hi, hQ⟩ := inside other ho hP
      exact Nat.succ_le_succ (length_le inner hi hQ)
  | none =>
    intro other ho hP
    obtain ⟨inner, -, hi, hQ⟩ := inside other ho hP
    exact h inner hi hQ

/-- The reader stops behind the first closer that leaves no comment open. -/
lemma found_closeComment? (n : Nat) (cs : List Char) :
    Found (Closes (n + 1)) (markers cs) (closeComment? n cs) := by
  fun_induction markers cs generalizing n with
  | case1 cs ih =>
    rw [closeComment?]
    exact (ih (n + 1)).cons (fun _ => closes_opener_iff) (not_closes_nil n)
  | case2 cs ih =>
    cases n with
    | zero =>
      -- Nothing is shorter than the one closer but the empty part, and that closes nothing.
      rw [closeComment?]
      refine ⟨[['#', ')']], ⟨⟨_, rfl⟩, rfl, fun other _ closes => ?_⟩, rfl⟩
      apply List.length_pos_iff.2
      rintro rfl
      exact not_closes_nil 0 closes
    | succ n =>
      rw [closeComment?]
      exact (ih n).cons (fun _ => closes_closer_iff) (not_closes_nil _)
  | case3 c cs opens closes ih =>
    rw [closeComment?_plain]
    · exact (ih n).cons (fun _ => closes_plain_iff) (not_closes_nil n)
    · rintro ⟨cs', text⟩
      obtain ⟨rfl, tail⟩ := List.cons.inj text
      exact opens cs' rfl tail.symm
    · rintro ⟨cs', text⟩
      obtain ⟨rfl, tail⟩ := List.cons.inj text
      exact closes cs' rfl tail.symm
  | case4 =>
    rw [closeComment?]
    rintro other ho
    obtain rfl := List.prefix_nil.1 ho
    exact not_closes_nil n

/-- Behind an opener, the reader takes the shortest part that closes as many comments as it
opens. -/
lemma found_comment (inside : List Char) :
    Found Balanced (markers ('(' :: '#' :: inside))
      ((closeComment? 0 inside).map (·.prepend ['(', '#'])) := by
  rw [markers]
  exact (found_closeComment? 0 inside).cons (fun _ => balanced_opener_iff) (fun h => h.1 rfl)

/-! ## Comments in a text -/

section

variable {p : Position} {front inside : List Char} {ts : List Token}

/-- A parenthesis is apart from the lexeme in front of it. -/
lemma apart_leftParen (cs : List Char) : Apart ('(' :: cs) := by
  rintro _ ⟨⟩
  exact .inr (.inl rfl)

/-- A comment that ends is skipped. -/
lemma tokenize_comment (read : tokenize (String.ofList front) = (ts ++ [Token.endAt p]).map .ok)
    {cut : Cut} (closed : closeComment? 0 inside = some cut) :
    tokenize (String.ofList (front ++ '(' :: '#' :: inside)) = ts.map .ok ++
      (Scanner.mk (p.after ('(' :: '#' :: cut.taken)) (some cut.rest)).items := by
  obtain ⟨text, body, hb, taken⟩ := closeComment?_eq_some_iff.1 closed
  have gap : Gap ('(' :: '#' :: cut.taken) := taken ▸ .comment hb .nil
  rw [tokenize_append read (apart_leftParen _), ← items_behind_gap gap, ← text]
  rfl

/-- A comment that never ends is an error at its opener. -/
lemma tokenize_unclosed (read : tokenize (String.ofList front) = (ts ++ [Token.endAt p]).map .ok)
    (open_ : closeComment? 0 inside = none) :
    tokenize (String.ofList (front ++ '(' :: '#' :: inside)) =
      ts.map .ok ++ [.error ⟨p, .unterminatedComment⟩] := by
  have tiles := @Tiles.unclosed p _ _ Gap.nil (closeComment?_eq_none_iff.1 open_)
  rw [tokenize_append read (apart_leftParen _)]
  exact congrArg _ (items_of_tiles tiles)

end

/-! ## Putting a text in a comment -/

/-- The text in a comment, with a blank on either side. -/
def commentedOut (source : String) : String :=
  "(# " ++ source ++ " #)"

/-- Neither an opener nor a closer stands in the text. -/
def Unmarked (cs : List Char) : Prop :=
  ¬ ['(', '#'] <:+: cs ∧ ¬ ['#', ')'] <:+: cs

/-- The sign of a comment is no blank. -/
lemma not_blank_sign : isBlank '#' = false := by decide

/-- A blank may stand in a comment. -/
lemma commented_blank : Commented [' '] :=
  .plain (by decide) (by decide) .nil

/-- Trivia may stand in a comment. -/
lemma Gap.commented {gap cs : List Char} (hg : Gap gap) (h : Commented cs) :
    Commented (gap ++ cs) := by
  induction hg with
  | nil => exact h
  | @blank c gap hc _ ih =>
    refine .plain ?_ ?_ ih
    · rintro ⟨_, text⟩
      exact ne_leftParen_of_isBlank hc (List.cons.inj text).1.symm
    · rintro ⟨_, text⟩
      rw [← (List.cons.inj text).1, not_blank_sign] at hc
      cases hc
  | comment hb _ ih => simpa using Commented.nested hb ih

/-- So may any text without markers, where none begins at its end. -/
lemma Commented.behind {c : Char} {cs : List Char} (h : Commented (c :: cs)) {front : List Char}
    (unmarked : Unmarked (front ++ [c])) : Commented (front ++ c :: cs) := by
  induction front with
  | nil => exact h
  | cons x front ih =>
    have shorter : front ++ [c] <:+: x :: front ++ [c] := (List.suffix_cons x _).isInfix
    refine .plain (fun opens => ?_) (fun closes => ?_)
      (ih ⟨fun hi => unmarked.1 (hi.trans shorter), fun hi => unmarked.2 (hi.trans shorter)⟩)
    · refine unmarked.1 (List.IsPrefix.isInfix ?_)
      cases front <;> simpa using opens
    · refine unmarked.2 (List.IsPrefix.isInfix ?_)
      cases front <;> simpa using closes

/-- A pair in a text with one more character is in the text, or ends with that character. -/
lemma pair_infix_concat {a b c : Char} {front : List Char} (h : [a, b] <:+: front ++ [c]) :
    [a, b] <:+: front ∨ b = c ∧ ∃ init, front = init ++ [a] := by
  obtain ⟨init, ends⟩ | inside := List.infix_concat_iff.1 h
  · have both : (init ++ [a]) ++ [b] = front ++ [c] := by simpa using ends
    obtain ⟨same, last⟩ := List.append_inj' both rfl
    exact .inr ⟨List.head_eq_of_cons_eq last, init, same.symm⟩
  · exact .inl inside

/-- A text without openers and closers stays so with one more character, if the two make up
neither. -/
lemma Unmarked.concat {front : List Char} (h : Unmarked front) (ends : ∀ init, front ≠ init ++ ['#'])
    {c : Char} (hc : c ≠ '#') : Unmarked (front ++ [c]) := by
  constructor
  · intro opens
    obtain inside | ⟨rfl, -⟩ := pair_infix_concat opens
    · exact h.1 inside
    · exact hc rfl
  · intro closes
    obtain inside | ⟨-, init, split⟩ := pair_infix_concat closes
    · exact h.2 inside
    · exact ends init split

/-- A lexeme makes no marker with a character behind it that is no number sign. -/
lemma Lexeme.unmarked_concat {front : List Char} {k : Option Kind} (h : Lexeme front k)
    (strings : ∀ value, k = some (.string value) → Unmarked front) {c : Char} (hc : c ≠ '#') :
    Unmarked (front ++ [c]) := by
  obtain ⟨spelling, value, rfl, rfl, -⟩ | unquoted := h.string_or_unquoted
  · refine (strings _ rfl).concat (fun init same => ?_) hc
    rw [← List.cons_append] at same
    cases List.append_inj_right' same rfl
  · have sign : '#' ∉ front := fun mem => (unquoted _ mem).2 rfl
    refine Unmarked.concat ⟨?_, ?_⟩ ?_ hc
    · exact fun opens => sign (opens.subset (by simp))
    · exact fun closes => sign (closes.subset (by simp))
    · rintro init rfl
      exact sign (by simp)

/-- Trivia do not begin with `#`. -/
lemma Gap.head_ne_sign {gap : List Char} (h : Gap gap) : ∀ c ∈ gap.head?, c ≠ '#' := by
  cases h with
  | nil => nofun
  | blank hc _ =>
    rintro _ ⟨⟩ rfl
    rw [not_blank_sign] at hc
    cases hc
  | comment _ _ =>
    rintro _ ⟨⟩
    decide

/-- No lexeme begins with `#`. -/
lemma Lexeme.head_ne_sign {front : List Char} {k : Option Kind} (h : Lexeme front k) :
    ∀ c ∈ front.head?, c ≠ '#' := by
  intro c hc
  obtain ⟨spelling, value, rfl, -, -⟩ | unquoted := h.string_or_unquoted
  · cases hc
    decide
  · exact (unquoted c (List.mem_of_mem_head? hc)).2

variable {p : Position} {cs : List Char} {ts : List Token}

/-- A text with tokens does not begin with a number sign. -/
lemma Tiles.head_ne_sign (h : Tiles p cs (ts.map .ok)) : ∀ c ∈ cs.head?, c ≠ '#' := by
  generalize items : (ts.map .ok : List Item) = out at h
  cases h with
  | done hg => exact hg.head_ne_sign
  | @token _ gap lexeme rest _ _ hg _ hl _ =>
    cases gap with
    | nil =>
      obtain ⟨c, lexeme, rfl⟩ := List.exists_cons_of_ne_nil hl.lexeme.ne_nil
      exact hl.lexeme.head_ne_sign
    | cons c gap => exact hg.head_ne_sign
  | fault _ _ _ => exact absurd items (map_ok_ne_error _ _)
  | unclosed _ _ => exact absurd items (map_ok_ne_error _ _)

/-- A text with tokens may stand in a comment, where no string has a marker. -/
lemma Tiles.commented (h : Tiles p cs (ts.map .ok))
    (strings : ∀ t ∈ ts, ∀ value, t.kind = .string value → Unmarked t.lexeme.toList) :
    Commented (cs ++ [' ']) := by
  generalize items : (ts.map .ok : List Item) = out at h
  induction h generalizing ts with
  | done hg => exact hg.commented commented_blank
  | @token p gap lexeme rest kind out hg _ hl h ih =>
    obtain ⟨t, ts, rfl, here, rfl⟩ := List.map_eq_cons_iff.1 items
    cases here
    obtain ⟨first, later⟩ := List.forall_mem_cons.1 strings
    have behind := ih later rfl
    rw [List.append_assoc, List.append_assoc]
    refine hg.commented ?_
    -- Behind the lexeme are trivia, another lexeme or the blank at the end.
    have next : ∃ c cs, rest ++ [' '] = c :: cs ∧ c ≠ '#' := by
      cases rest with
      | nil => exact ⟨' ', [], rfl, by decide⟩
      | cons c rest => exact ⟨c, _, rfl, h.head_ne_sign c rfl⟩
    obtain ⟨c, cs, text, sign⟩ := next
    rw [text] at behind ⊢
    refine behind.behind (hl.lexeme.unmarked_concat (fun value string => ?_) sign)
    simpa using first value (Option.some.inj string)
  | fault _ _ _ => exact absurd items (map_ok_ne_error _ _)
  | unclosed _ _ => exact absurd items (map_ok_ne_error _ _)

/-- A text that may stand in a comment is trivia when it is put in one. -/
lemma gap_commentedOut {source : String} (h : Commented (source.toList ++ [' '])) :
    Gap (commentedOut source).toList := by
  have inside : Commented (' ' :: (source.toList ++ [' '])) :=
    .plain (by simp) (by simp) h
  have text : (commentedOut source).toList =
      '(' :: '#' :: (' ' :: (source.toList ++ [' ']) ++ '#' :: ')' :: []) := by
    simp [commentedOut]
  rw [text]
  exact .comment inside .nil

/-- What is in a comment can be put in another one. -/
lemma gap_iterate_commentedOut {source : String} (h : Commented (source.toList ++ [' '])) (n : Nat) :
    Gap (commentedOut^[n + 1] source).toList := by
  induction n with
  | zero => exact gap_commentedOut h
  | succ n ih =>
    rw [Function.iterate_succ_apply']
    exact gap_commentedOut (ih.commented commented_blank)

/-- Trivia by themselves have no token but the end. -/
lemma tokenizeAll_gap {source : String} (h : Gap source.toList) :
    tokenizeAll source = .ok [.endAt (Position.start.after source.toList)] :=
  tokenizeAll_eq_ok_iff.2 (items_of_tiles (.done h))

/-! ## What comments do -/

/-- Where a comment opens, the shortest part with as many closers as openers is skipped, and where
there is none the one error is at that opener. So a text that has tokens, with no marker in its
strings, is skipped as a whole once it stands in a comment, however many there are around it. -/
theorem comments_balance :
    (∀ front ts p, tokenize (String.ofList front) = (ts ++ [Token.endAt p]).map .ok → ∀ inside,
      (∃ comment cut, Shortest Balanced (markers ('(' :: '#' :: inside)) comment ∧
        closeComment? 0 inside = some cut ∧
        comment.flatten = '(' :: '#' :: cut.taken ∧ inside = cut.taken ++ cut.rest ∧
        tokenize (String.ofList (front ++ '(' :: '#' :: inside)) = ts.map .ok ++
          (Scanner.mk (p.after comment.flatten) (some cut.rest)).items) ∨
      (∀ other, other <+: markers ('(' :: '#' :: inside) → ¬ Balanced other) ∧
        tokenize (String.ofList (front ++ '(' :: '#' :: inside)) =
          ts.map .ok ++ [.error ⟨p, .unterminatedComment⟩]) ∧
    ∀ source us, tokenizeAll source = .ok us →
      (∀ t ∈ us, ∀ value, t.kind = .string value → Unmarked t.lexeme.toList) → ∀ n,
        tokenizeAll (commentedOut^[n + 1] source) =
          .ok [.endAt (Position.start.after (commentedOut^[n + 1] source).toList)] := by
  constructor
  · intro front ts p read inside
    have found := found_comment inside
    cases closed : closeComment? 0 inside with
    | some cut =>
      rw [closed] at found
      obtain ⟨comment, shortest, taken⟩ := found
      refine .inl ⟨comment, cut, shortest, rfl, taken, (text_of_closeComment? closed).symm, ?_⟩
      rw [taken]
      exact tokenize_comment read closed
    | none =>
      rw [closed] at found
      exact .inr ⟨found, tokenize_unclosed read closed⟩
  · intro source us lexed strings n
    have tiles := tiles_tokenize source
    rw [tokenizeAll_eq_ok_iff.1 lexed] at tiles
    exact tokenizeAll_gap (gap_iterate_commentedOut (tiles.commented strings) n)

/-- Of the markers that overlap, the first counts: the comment in front of `y` opens two and closes
two. And a text with a string, a comment and a parenthesis at its end, put in two comments. -/
theorem overlapping_markers_balance :
    tokenize "x(#(#)#)#)y" = [⟨.word "x", "x", ⟨0, 1, 1⟩⟩, ⟨.word "y", "y", ⟨10, 1, 11⟩⟩,
      .endAt ⟨11, 1, 12⟩].map .ok ∧
    tokenizeAll "(# (# \"é\"(# #)( #) #)" = .ok [.endAt ⟨22, 1, 22⟩] := by
  constructor
  · let ts : List Token := [⟨.word "x", "x", ⟨0, 1, 1⟩⟩]
    have read : tokenize (String.ofList ['x']) = (ts ++ [Token.endAt ⟨1, 1, 2⟩]).map .ok := by
      decide +kernel
    have text : "x(#(#)#)#)y" = String.ofList (['x'] ++ '(' :: '#' :: "(#)#)#)y".toList) := by
      decide +kernel
    have inside : closeComment? 0 "(#)#)#)y".toList = some ⟨"(#)#)#)".toList, ['y']⟩ := by
      decide +kernel
    have rest : (Scanner.mk ⟨10, 1, 11⟩ (some ['y'])).items =
        [⟨.word "y", "y", ⟨10, 1, 11⟩⟩, Token.endAt ⟨11, 1, 12⟩].map .ok := by decide +kernel
    rw [text]
    obtain ⟨comment, cut, -, closed, taken, -, items⟩ | ⟨none, -⟩ :=
      comments_balance.1 _ _ _ read "(#)#)#)y".toList
    · obtain rfl := Option.some.inj (inside.symm.trans closed)
      rw [items, taken]
      exact congrArg _ rest
    · exact absurd ⟨by decide, by decide⟩ (none ((markers "(#(#)#)#)y".toList).take 5)
        (List.take_prefix _ _))
  · have lexed : tokenizeAll "\"é\"(# #)(" = .ok [⟨.string "é", "\"é\"", ⟨0, 1, 1⟩⟩,
        ⟨.mark .leftParen, "(", ⟨9, 1, 9⟩⟩, .endAt ⟨10, 1, 10⟩] := by decide +kernel
    have text : "(# (# \"é\"(# #)( #) #)" = commentedOut^[1 + 1] "\"é\"(# #)(" := by decide +kernel
    have place : (⟨22, 1, 22⟩ : Position) =
        Position.start.after (commentedOut^[1 + 1] "\"é\"(# #)(").toList := by decide +kernel
    rw [text, place]
    refine comments_balance.2 _ _ lexed ?_ 1
    simp only [List.forall_mem_cons]
    exact ⟨fun _ _ => ⟨by decide, by decide⟩, nofun, nofun, nofun⟩

end Quill
