import Quill.Proofs.Lexical.Characters
import Quill.Proofs.Lexical.Exactness

/-!
# Going on behind a text

A text that is read without an error can go on with whatever belongs to none of its lexemes. The
scanner then comes to the place where the text ended, with the tokens it had, and reads from there
as if nothing stood in front (`tokenize_append`). So what the scanner does with a string or a
comment is said for every place it can come to.
-/

namespace Quill

/-- Trivia behind trivia are trivia. -/
lemma Gap.append {gap gap' : List Char} (h : Gap gap) (h' : Gap gap') : Gap (gap ++ gap') := by
  induction h with
  | nil => exact h'
  | blank hc _ ih => exact .blank hc ih
  | comment hb _ ih => simpa using Gap.comment hb ih

variable {p q : Position} {front rest gap : List Char} {ts : List Token} {items : List Item}

/-- Trivia in front of a text moves its items and adds none. -/
lemma Tiles.behind_gap (h : Tiles (p.after gap) rest items) (hg : Gap gap) :
    Tiles p (gap ++ rest) items := by
  generalize place : p.after gap = q at h
  cases h with
  | @done _ gap' hg' =>
    rw [← place, ← Position.after_append]
    exact .done (hg.append hg')
  | @token _ gap' lexeme rest kind items hg' hb hl h =>
    rw [← place, ← Position.after_append p gap gap'] at h ⊢
    rw [← List.append_assoc]
    exact .token (hg.append hg') hb hl h
  | @fault _ gap' cs before reason hg' hb hf =>
    rw [← place, ← Position.after_append p gap gap', ← List.append_assoc]
    exact .fault (hg.append hg') hb hf
  | @unclosed _ gap' inside hg' hu =>
    rw [← place, ← Position.after_append p gap gap', ← List.append_assoc]
    exact .unclosed (hg.append hg') hu

/-- The items that a scanner still yields tile the text that it has still to read. -/
lemma tiles_items (p : Position) (cs : List Char) : Tiles p cs (Scanner.mk p (some cs)).items :=
  items_eq_iff_tiles.1 rfl

/-- A scanner in front of trivia reads what one behind it does. -/
lemma items_behind_gap (hg : Gap gap) (p : Position) (rest : List Char) :
    (Scanner.mk p (some (gap ++ rest))).items =
      (Scanner.mk (p.after gap) (some rest)).items :=
  items_of_tiles ((tiles_items (p.after gap) rest).behind_gap hg)

/-- Tokens without an error are no error. -/
lemma map_ok_ne_error (ts : List Token) (e : LexError) : (ts.map .ok : List Item) ≠ [.error e] := by
  intro same
  obtain ⟨_, _, error⟩ := List.map_eq_singleton_iff.1 same
  cases error

/-- Tilings are put together where no lexeme of the first goes on. -/
lemma Tiles.append (h : Tiles p front ((ts ++ [Token.endAt q]).map .ok)) (hr : Apart rest)
    (behind : Tiles q rest items) : Tiles p (front ++ rest) (ts.map .ok ++ items) := by
  generalize all : ((ts ++ [Token.endAt q]).map .ok : List Item) = out at h
  induction h generalizing ts with
  | @done p gap hg =>
    cases ts with
    | nil =>
      obtain rfl : q = p.after gap := by simpa [Token.endAt] using all
      exact behind.behind_gap hg
    | cons t ts => simp at all
  | @token p gap lexeme front kind out hg hb hl _ ih =>
    cases ts with
    | nil =>
      -- The end of the input is no lexeme, so this token is not the last.
      obtain rfl : Kind.endOfInput = kind := congrArg Token.kind (Except.ok.inj (List.cons.inj all).1)
      exact absurd hl.lexeme Lexeme.ne_endOfInput
    | cons t ts =>
      obtain ⟨same, tail⟩ := List.cons.inj all
      cases same
      have text : gap ++ (lexeme ++ front) ++ rest = gap ++ (lexeme ++ (front ++ rest)) := by simp
      have nonempty : lexeme ++ front ≠ [] := List.append_ne_nil_of_left_ne_nil hl.lexeme.ne_nil _
      have bare := hb.append nonempty hr.head_ne_sign
      have longest := hl.append hr
      rw [List.append_assoc] at bare longest
      rw [text]
      exact .token hg bare longest (ih tail)
  | fault _ _ _ => exact absurd all (map_ok_ne_error _ _)
  | unclosed _ _ => exact absurd all (map_ok_ne_error _ _)

/-- Behind a text without an error the scanner goes on where the text ended. -/
theorem tokenize_append (read : tokenize (String.ofList front) = (ts ++ [Token.endAt p]).map .ok)
    (hr : Apart rest) :
    tokenize (String.ofList (front ++ rest)) =
      ts.map .ok ++ (Scanner.mk p (some rest)).items := by
  have tiles := tiles_tokenize (String.ofList front)
  rw [read, String.toList_ofList] at tiles
  have all := items_of_tiles (tiles.append hr (tiles_items p rest))
  rwa [tokenize, Scanner.ofText, String.toList_ofList]

end Quill
