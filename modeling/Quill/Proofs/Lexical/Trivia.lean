import Mathlib.Tactic.Common
import Quill.Token.Scan

/-!
# Trivia

What may stand between tokens, as texts and apart from the reader that skips them. A comment runs
from `(#` to its own `#)`: in between are other comments and characters that neither open nor close
one. Trivia is blanks and comments in any order. The reader takes all of it that stands in front
(`skipTrivia_eq_skipped_iff`), and it gives up exactly at a comment that is never closed
(`skipTrivia_eq_unclosed_iff`).
-/

namespace Quill

/-- What stands in a comment, between its `(#` and its own `#)`. -/
inductive Commented : List Char → Prop where
  | nil : Commented []
  | plain {c cs} :
    ¬ ['(', '#'] <+: c :: (cs ++ ['#', ')']) →
    ¬ ['#', ')'] <+: c :: (cs ++ ['#', ')']) →
    Commented cs →
    Commented (c :: cs)
  | nested {cs ds} :
    Commented cs →
    Commented ds →
    Commented ('(' :: '#' :: (cs ++ '#' :: ')' :: ds))

/-- The text behind a `(#` never comes to the `#)` that closes it. -/
def Unclosed (cs : List Char) : Prop :=
  ∀ body rest, Commented body → cs ≠ body ++ '#' :: ')' :: rest

/-- Blanks and comments. -/
inductive Gap : List Char → Prop where
  | nil : Gap []
  | blank {c cs} :
    isBlank c = true →
    Gap cs →
    Gap (c :: cs)
  | comment {body cs} :
    Commented body →
    Gap cs →
    Gap ('(' :: '#' :: (body ++ '#' :: ')' :: cs))

/-- The text begins with neither a blank nor a comment. -/
structure Bare (cs : List Char) : Prop where
  blank : ∀ c ∈ cs.head?, isBlank c = false
  comment : ¬ ['(', '#'] <+: cs

/-- Nothing begins with neither a blank nor a comment. -/
lemma bare_nil : Bare [] where
  blank := by simp
  comment := by simp

/-! ## Comments -/

/-- Whether two characters stand in front is settled before the end of a closer. -/
lemma pair_prefix_iff {a b c : Char} {cs rest : List Char} :
    [a, b] <+: c :: (cs ++ '#' :: ')' :: rest) ↔ [a, b] <+: c :: (cs ++ ['#', ')']) := by
  cases cs <;> simp

/-- A character that begins neither an opener nor a closer is passed over in a comment. -/
lemma closeComment?_plain {n : Nat} {c : Char} {cs : List Char} (opens : ¬ ['(', '#'] <+: c :: cs)
    (closes : ¬ ['#', ')'] <+: c :: cs) :
    closeComment? n (c :: cs) = (closeComment? n cs).map (·.prepend [c]) := by
  rw [closeComment?]
  · rintro cs' rfl rfl
    exact opens ⟨cs', rfl⟩
  · rintro cs' rfl rfl rfl
    exact closes ⟨cs', rfl⟩
  · rintro n' cs' rfl rfl rfl
    exact closes ⟨cs', rfl⟩

/-- What stands in a comment leaves as many comments open as there were. -/
lemma closeComment?_append {body : List Char} (h : Commented body) (n : Nat) (rest : List Char) :
    closeComment? n (body ++ '#' :: ')' :: rest) =
      (closeComment? n ('#' :: ')' :: rest)).map (·.prepend body) := by
  induction h generalizing n rest with
  | nil => simp [Cut.prepend]
  | plain opens closes _ ih =>
    rw [List.cons_append, closeComment?_plain (mt pair_prefix_iff.1 opens)
      (mt pair_prefix_iff.1 closes), ih, Option.map_map]
    rfl
  | @nested cs ds _ _ ihc ihd =>
    -- The inner opener raises the depth, and its closer lowers it again.
    have inner : closeComment? (n + 1) ('#' :: ')' :: (ds ++ '#' :: ')' :: rest)) =
        (closeComment? n (ds ++ '#' :: ')' :: rest)).map (·.prepend ['#', ')']) := by
      rw [closeComment?]
    have split : '(' :: '#' :: (cs ++ '#' :: ')' :: ds) ++ '#' :: ')' :: rest =
        '(' :: '#' :: (cs ++ '#' :: ')' :: (ds ++ '#' :: ')' :: rest)) := by simp
    rw [split, closeComment?, ihc, inner, ihd]
    simp [Option.map_map, Function.comp_def, Cut.prepend]

/-- The text closes `n + 1` open comments, each behind what stands in it. -/
inductive ClosedBy : Nat → List Char → Prop where
  | last {body} :
    Commented body →
    ClosedBy 0 (body ++ ['#', ')'])
  | more {n body cs} :
    Commented body →
    ClosedBy n cs →
    ClosedBy (n + 1) (body ++ '#' :: ')' :: cs)

/-- A character that begins neither an opener nor a closer may stand in front of what closes
comments. -/
lemma ClosedBy.plain {n : Nat} {c : Char} {cs : List Char} (h : ClosedBy n cs) (rest : List Char)
    (opens : ¬ ['(', '#'] <+: c :: (cs ++ rest)) (closes : ¬ ['#', ')'] <+: c :: (cs ++ rest)) :
    ClosedBy n (c :: cs) := by
  cases h with
  | last hb =>
    rw [List.append_assoc] at opens closes
    exact .last (.plain (mt pair_prefix_iff.2 opens) (mt pair_prefix_iff.2 closes) hb)
  | more hb h =>
    rw [List.append_assoc] at opens closes
    exact .more (.plain (mt pair_prefix_iff.2 opens) (mt pair_prefix_iff.2 closes) hb) h

/-- An opener in front takes one of the closers. -/
lemma ClosedBy.opener {n : Nat} {cs : List Char} (h : ClosedBy (n + 1) cs) :
    ClosedBy n ('(' :: '#' :: cs) := by
  cases h with
  | more hb h =>
    cases h with
    | last hd => simpa using ClosedBy.last (.nested hb hd)
    | more hd h => simpa using ClosedBy.more (.nested hb hd) h

/-- What the reader takes closes every open comment. -/
lemma closedBy_of_closeComment? {n : Nat} {cs : List Char} {cut : Cut}
    (h : closeComment? n cs = some cut) : ClosedBy n cut.taken := by
  fun_induction closeComment? n cs generalizing cut with
  | case1 n cs ih =>
    obtain ⟨inner, hi, rfl⟩ := Option.map_eq_some_iff.1 h
    exact (ih hi).opener
  | case2 cs =>
    cases h
    exact .last .nil
  | case3 n cs ih =>
    obtain ⟨inner, hi, rfl⟩ := Option.map_eq_some_iff.1 h
    exact .more .nil (ih hi)
  | case4 n c cs opens closes closes' ih =>
    -- The reader looks at the text, and the rule at what is taken of it with a closer behind.
    obtain ⟨inner, hi, rfl⟩ := Option.map_eq_some_iff.1 h
    have text := text_of_closeComment? hi
    subst text
    refine (ih hi).plain inner.rest ?_ ?_
    · rintro ⟨cs', split⟩
      obtain ⟨rfl, tail⟩ := List.cons.inj split
      exact opens cs' rfl tail.symm
    · rintro ⟨cs', split⟩
      obtain ⟨rfl, tail⟩ := List.cons.inj split
      cases n with
      | zero => exact closes cs' rfl rfl tail.symm
      | succ n => exact closes' n cs' rfl rfl tail.symm
  | case5 => cases h

/-- The reader finds the end of a comment exactly where the comment ends. -/
lemma closeComment?_eq_some_iff {cs : List Char} {cut : Cut} :
    closeComment? 0 cs = some cut ↔
      cut.text = cs ∧ ∃ body, Commented body ∧ cut.taken = body ++ ['#', ')'] := by
  constructor
  · intro h
    have closed := closedBy_of_closeComment? h
    generalize cut.taken = taken at closed
    refine ⟨text_of_closeComment? h, ?_⟩
    cases closed with
    | last hb => exact ⟨_, hb, rfl⟩
  · rintro ⟨rfl, body, hb, taken⟩
    rw [Cut.text, taken, List.append_assoc, List.cons_append, List.cons_append, List.nil_append,
      closeComment?_append hb]
    simp [closeComment?, Cut.prepend, ← taken]

/-- The reader finds no end of a comment exactly where there is none. -/
lemma closeComment?_eq_none_iff {cs : List Char} : closeComment? 0 cs = none ↔ Unclosed cs := by
  constructor
  · rintro h body rest hb rfl
    rw [closeComment?_append hb] at h
    simp [closeComment?] at h
  · intro h
    cases hc : closeComment? 0 cs with
    | none => rfl
    | some cut =>
      obtain ⟨text, body, hb, taken⟩ := closeComment?_eq_some_iff.1 hc
      rw [Cut.text, taken, List.append_assoc] at text
      exact absurd text.symm (h body cut.rest hb)

/-! ## Gaps -/

/-- A blank is no parenthesis. -/
lemma ne_leftParen_of_isBlank {c : Char} (h : isBlank c = true) : c ≠ '(' := by
  rintro rfl
  revert h
  decide

/-- Nothing in front of trivia leaves them as they are. -/
@[simp] lemma Trivia.prepend_nil (t : Trivia) : t.prepend [] = t := by
  cases t <;> rfl

/-- What is put in front of trivia in two parts is put there as one. -/
lemma Trivia.prepend_append (t : Trivia) (cs ds : List Char) :
    t.prepend (cs ++ ds) = (t.prepend ds).prepend cs := by
  cases t <;> simp [prepend, Cut.prepend]

/-- A character that opens no comment is skipped if it is a blank, and nothing else. -/
lemma skipTrivia_cons {c : Char} {cs : List Char} (opens : ¬ ['(', '#'] <+: c :: cs) :
    skipTrivia (c :: cs) =
      if isBlank c then (skipTrivia cs).prepend [c] else .skipped ⟨[], c :: cs⟩ := by
  rw [skipTrivia]
  rintro cs' rfl rfl
  exact opens ⟨cs', rfl⟩

/-- A comment is skipped, and what is behind it is skipped from there. -/
lemma skipTrivia_comment {body rest : List Char} (h : Commented body) :
    skipTrivia ('(' :: '#' :: (body ++ '#' :: ')' :: rest)) =
      (skipTrivia rest).prepend ('(' :: '#' :: (body ++ ['#', ')'])) := by
  have closed : closeComment? 0 (body ++ '#' :: ')' :: rest) = some ⟨body ++ ['#', ')'], rest⟩ :=
    closeComment?_eq_some_iff.2 ⟨by simp [Cut.text], body, h, rfl⟩
  rw [skipTrivia]
  split
  · rename_i hc
    rw [closed] at hc
    cases hc
  · rename_i hc
    rw [closed] at hc
    cases hc
    rfl

/-- Trivia are skipped, and what is behind them is skipped from there. -/
lemma skipTrivia_append {gap : List Char} (h : Gap gap) (rest : List Char) :
    skipTrivia (gap ++ rest) = (skipTrivia rest).prepend gap := by
  induction h with
  | nil => simp
  | @blank c cs hc _ ih =>
    have opens : ¬ ['(', '#'] <+: c :: (cs ++ rest) := by
      rintro ⟨cs', split⟩
      exact ne_leftParen_of_isBlank hc (List.cons.inj split).1.symm
    rw [List.cons_append, skipTrivia_cons opens, if_pos hc, ih, ← Trivia.prepend_append]
    rfl
  | @comment body cs hb _ ih =>
    have split : '(' :: '#' :: (body ++ '#' :: ')' :: cs) ++ rest =
        '(' :: '#' :: (body ++ '#' :: ')' :: (cs ++ rest)) := by simp
    rw [split, skipTrivia_comment hb, ih, ← Trivia.prepend_append]
    simp

/-- Of a bare text nothing is skipped. -/
lemma skipTrivia_of_bare {cs : List Char} (h : Bare cs) : skipTrivia cs = .skipped ⟨[], cs⟩ := by
  cases cs with
  | nil => rw [skipTrivia]
  | cons c cs => rw [skipTrivia_cons h.comment, h.blank c rfl, if_neg Bool.false_ne_true]

/-- A comment that is never closed is not skipped. -/
lemma skipTrivia_of_unclosed {cs : List Char} (h : Unclosed cs) :
    skipTrivia ('(' :: '#' :: cs) = .unclosed [] := by
  rw [skipTrivia]
  split
  · rfl
  · rename_i hc
    rw [closeComment?_eq_none_iff.2 h] at hc
    cases hc

/-- Every text is trivia with a bare text or an unclosed comment behind it. -/
lemma exists_gap (cs : List Char) :
    ∃ gap rest, cs = gap ++ rest ∧ Gap gap ∧
      (Bare rest ∨ ∃ inside, rest = '(' :: '#' :: inside ∧ Unclosed inside) := by
  fun_induction skipTrivia cs with
  | case1 cs hc =>
    exact ⟨[], _, rfl, .nil, .inr ⟨cs, rfl, closeComment?_eq_none_iff.1 hc⟩⟩
  | case2 cs comment hc _ ih =>
    obtain ⟨text, body, hb, taken⟩ := closeComment?_eq_some_iff.1 hc
    obtain ⟨gap, rest, split, hg, hr⟩ := ih
    refine ⟨'(' :: '#' :: (body ++ '#' :: ')' :: gap), rest, ?_, .comment hb hg, hr⟩
    rw [← text, Cut.text, taken, split]
    simp
  | case3 c cs _ hc ih =>
    obtain ⟨gap, rest, rfl, hg, hr⟩ := ih
    exact ⟨c :: gap, rest, rfl, .blank hc hg, hr⟩
  | case4 c cs opens hc =>
    refine ⟨[], c :: cs, rfl, .nil, .inl ⟨?_, ?_⟩⟩
    · rintro _ ⟨⟩
      exact Bool.eq_false_iff.2 hc
    · rintro ⟨cs', split⟩
      obtain ⟨rfl, tail⟩ := List.cons.inj split
      exact opens cs' rfl tail.symm
  | case5 => exact ⟨[], [], rfl, .nil, .inl bare_nil⟩

/-- The reader skips exactly the trivia that stands in front of a bare text. -/
theorem skipTrivia_eq_skipped_iff {cs : List Char} {cut : Cut} :
    skipTrivia cs = .skipped cut ↔ cut.text = cs ∧ Gap cut.taken ∧ Bare cut.rest := by
  constructor
  · intro h
    obtain ⟨gap, rest, rfl, hg, hr | ⟨inside, rfl, hu⟩⟩ := exists_gap cs
    · rw [skipTrivia_append hg, skipTrivia_of_bare hr] at h
      cases h
      simpa [Cut.text, Cut.prepend] using ⟨hg, hr⟩
    · rw [skipTrivia_append hg, skipTrivia_of_unclosed hu] at h
      cases h
  · rintro ⟨rfl, hg, hr⟩
    rw [Cut.text, skipTrivia_append hg, skipTrivia_of_bare hr]
    simp [Trivia.prepend, Cut.prepend]

/-- The reader gives up exactly behind the trivia in front of a comment that is never closed. -/
theorem skipTrivia_eq_unclosed_iff {cs gap : List Char} :
    skipTrivia cs = .unclosed gap ↔
      Gap gap ∧ ∃ inside, cs = gap ++ '(' :: '#' :: inside ∧ Unclosed inside := by
  constructor
  · intro h
    obtain ⟨gap', rest, rfl, hg, hr | ⟨inside, rfl, hu⟩⟩ := exists_gap cs
    · rw [skipTrivia_append hg, skipTrivia_of_bare hr] at h
      cases h
    · rw [skipTrivia_append hg, skipTrivia_of_unclosed hu] at h
      cases h
      exact ⟨by simpa using hg, inside, by simp, hu⟩
  · rintro ⟨hg, inside, rfl, hu⟩
    rw [skipTrivia_append hg, skipTrivia_of_unclosed hu]
    simp [Trivia.prepend]

end Quill
