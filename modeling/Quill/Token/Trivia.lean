import Quill.Text.Blank
import Quill.Text.Cut

/-!
# Trivia

What stands between tokens: blank characters and comments. A comment runs from `(#` to its own
`#)`, and comments nest. Every character that is skipped is kept in the cut, so that the place after
it can be told and nothing of the text is lost.
-/

namespace Quill

/-- The rest of a comment in which `depth` further comments are open: up to the closer that leaves
none open. There is none when the text ends first. -/
def closeComment? : Nat → List Char → Option Cut
  | depth, '(' :: '#' :: cs => (closeComment? (depth + 1) cs).map (·.prepend ['(', '#'])
  | 0, '#' :: ')' :: cs => some ⟨['#', ')'], cs⟩
  | depth + 1, '#' :: ')' :: cs => (closeComment? depth cs).map (·.prepend ['#', ')'])
  | depth, c :: cs => (closeComment? depth cs).map (·.prepend [c])
  | _, [] => none

/-- The trivia in front of a text: everything that is skipped, or what precedes the comment that is
never closed. -/
inductive Trivia where
  | skipped (cut : Cut)
  | unclosed (before : List Char)
  deriving DecidableEq

/-- The trivia with more characters in front. -/
def Trivia.prepend (cs : List Char) : Trivia → Trivia
  | skipped cut => skipped (cut.prepend cs)
  | unclosed before => unclosed (cs ++ before)

/-- A comment's rest is cut from its text. -/
theorem text_of_closeComment? {depth : Nat} {cs : List Char} {cut : Cut}
    (h : closeComment? depth cs = some cut) : cut.text = cs := by
  fun_induction closeComment? depth cs generalizing cut with
  | case1 depth cs ih =>
    obtain ⟨inner, hi, rfl⟩ := Option.map_eq_some_iff.1 h
    simp [ih hi]
  | case2 cs =>
    cases h
    rfl
  | case3 depth cs ih =>
    obtain ⟨inner, hi, rfl⟩ := Option.map_eq_some_iff.1 h
    simp [ih hi]
  | case4 depth c cs _ _ _ ih =>
    obtain ⟨inner, hi, rfl⟩ := Option.map_eq_some_iff.1 h
    simp [ih hi]
  | case5 => simp at h

/-- Skips blanks and comments up to the first character of a token. -/
def skipTrivia : List Char → Trivia
  | '(' :: '#' :: cs =>
    match h : closeComment? 0 cs with
    | none => .unclosed []
    | some comment =>
      have : comment.rest.length < cs.length + 1 + 1 := by
        have := Cut.length_rest (text_of_closeComment? h)
        omega
      (skipTrivia comment.rest).prepend ('(' :: '#' :: comment.taken)
  | c :: cs => if isBlank c then (skipTrivia cs).prepend [c] else .skipped ⟨[], c :: cs⟩
  | [] => .skipped ⟨[], []⟩
termination_by cs => cs.length

end Quill
