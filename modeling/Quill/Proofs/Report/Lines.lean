import Mathlib.Data.List.TakeWhile
import Quill.Proofs.Lexical.Places
import Quill.Proofs.Number.Literal
import Quill.Report

/-!
# The lines of a text

Every text is lines with a newline behind each and a last line with none. The lines that are read
off a text are those, less a carriage return at the end of each but the last, and the last one only
if it has a character. The line that a place is on is the one that its number names.
-/

namespace Quill

/-! ## Lines and their ends -/

/-- Lines with a newline behind each. -/
def endLines (ls : List (List Char)) : List Char :=
  ls.flatMap (· ++ ['\n'])

/-- No lines are an empty text. -/
@[simp] lemma endLines_nil : endLines [] = [] := rfl

/-- A line in front of others ends in front of them. -/
@[simp] lemma endLines_cons (l : List Char) (ls : List (List Char)) :
    endLines (l :: ls) = l ++ '\n' :: endLines ls := by
  simp [endLines]

/-- Lines behind lines are a text behind a text. -/
@[simp] lemma endLines_append (ls ls' : List (List Char)) :
    endLines (ls ++ ls') = endLines ls ++ endLines ls' :=
  List.flatMap_append

/-- A text is lines that end, and one that does not. -/
lemma exists_lines (cs : List Char) :
    ∃ ls tail, cs = endLines ls ++ tail ∧ (∀ l ∈ ls, '\n' ∉ l) ∧ '\n' ∉ tail := by
  induction cs with
  | nil => exact ⟨[], [], rfl, nofun, nofun⟩
  | cons c cs ih =>
    obtain ⟨ls, tail, rfl, ended, last⟩ := ih
    by_cases hc : c = '\n'
    · subst hc
      exact ⟨[] :: ls, tail, by simp, by simpa using ended, last⟩
    · -- The character goes to the front of the first line.
      cases ls with
      | nil => exact ⟨[], c :: tail, rfl, nofun, by simp [Ne.symm hc, last]⟩
      | cons l ls =>
        obtain ⟨first, others⟩ := List.forall_mem_cons.1 ended
        refine ⟨(c :: l) :: ls, tail, by simp, ?_, last⟩
        exact List.forall_mem_cons.2 ⟨by simp [Ne.symm hc, first], others⟩

/-- Each line ends with the one newline of its own. -/
lemma count_endLines {ls : List (List Char)} (ended : ∀ l ∈ ls, '\n' ∉ l) :
    (endLines ls).count '\n' = ls.length := by
  induction ls with
  | nil => rfl
  | cons l ls ih =>
    obtain ⟨first, others⟩ := List.forall_mem_cons.1 ended
    rw [endLines_cons, List.count_append, List.count_eq_zero_of_not_mem first,
      List.count_cons_self, ih others, List.length_cons, Nat.zero_add]

/-- A line without a line feed is passed over up to its end. -/
lemma forall_ne_newline {line : List Char} (h : '\n' ∉ line) :
    ∀ c ∈ line, decide (c ≠ '\n') = true := by
  intro c hc
  rw [decide_eq_true_iff]
  rintro rfl
  exact h hc

/-- What stands behind the last newline. -/
lemma takeWhile_reverse_lines (ls : List (List Char)) {tail : List Char} (last : '\n' ∉ tail) :
    (endLines ls ++ tail).reverse.takeWhile (· ≠ '\n') = tail.reverse := by
  have inner := forall_ne_newline (mt List.mem_reverse.1 last)
  rw [List.reverse_append, List.takeWhile_append_of_pos inner]
  obtain rfl | ⟨ls, l, rfl⟩ := ls.eq_nil_or_concat
  · simp
  · simp

/-! ## Reading lines -/

/-- Lines with a newline behind each are what stands between the newlines. -/
lemma splitOn_endLines {ls : List (List Char)} (ended : ∀ l ∈ ls, '\n' ∉ l) :
    (endLines ls).splitOn '\n' = ls ++ [[]] := by
  induction ls with
  | nil => rfl
  | cons l ls ih =>
    obtain ⟨first, others⟩ := List.forall_mem_cons.1 ended
    rw [endLines_cons, List.splitOn_append_cons_self_of_not_mem first, ih others,
      List.cons_append]

/-- A newline ends the first line. -/
lemma textLines_newline {line : List Char} (h : '\n' ∉ line) (rest : List Char) :
    textLines (line ++ '\n' :: rest) = dropReturn line :: textLines rest := by
  have taken : (line ++ '\n' :: rest).takeWhile (· ≠ '\n') = line := by
    rw [List.takeWhile_append_of_pos (forall_ne_newline h)]
    simp
  have dropped : (line ++ '\n' :: rest).dropWhile (· ≠ '\n') = '\n' :: rest := by
    rw [List.dropWhile_append_of_pos (forall_ne_newline h)]
    simp
  rw [textLines]
  split
  · rename_i none
    cases dropped.symm.trans none
  · rename_i some
    cases dropped.symm.trans some
    rw [taken]

/-- A text without a newline is one line, or none if it is empty. -/
lemma textLines_last {line : List Char} (h : '\n' ∉ line) :
    textLines line = if line = [] then [] else [line] := by
  have taken := List.takeWhile_eq_self_iff.2 (forall_ne_newline h)
  have dropped := List.dropWhile_eq_nil_iff.2 (forall_ne_newline h)
  rw [textLines]
  split
  · rw [taken]
  · rename_i some
    cases dropped.symm.trans some

/-- Lines that end are read one by one. -/
lemma textLines_endLines {ls : List (List Char)} (ended : ∀ l ∈ ls, '\n' ∉ l) (rest : List Char) :
    textLines (endLines ls ++ rest) = ls.map dropReturn ++ textLines rest := by
  induction ls with
  | nil => rfl
  | cons l ls ih =>
    obtain ⟨first, others⟩ := List.forall_mem_cons.1 ended
    rw [endLines_cons, List.append_assoc, List.cons_append, textLines_newline first, ih others,
      List.map_cons, List.cons_append]

/-- The line behind some lines that end is the first of what is left. -/
lemma lineAt_endLines {ls : List (List Char)} (ended : ∀ l ∈ ls, '\n' ∉ l) (rest : List Char) :
    lineAt (endLines ls ++ rest) (1 + ls.length) = lineAt rest 1 := by
  rw [lineAt, textLines_endLines ended, lineAt, Nat.add_sub_cancel_left,
    List.getElem?_append_right (by simp)]
  simp

/-- The first line of a text that begins with a line. -/
lemma lineAt_one_newline {line : List Char} (h : '\n' ∉ line) (rest : List Char) :
    lineAt (line ++ '\n' :: rest) 1 = dropReturn line := by
  rw [lineAt, textLines_newline h]
  rfl

/-- The first line of a text on one line. -/
lemma lineAt_one_last {line : List Char} (h : '\n' ∉ line) : lineAt line 1 = line := by
  rw [lineAt, textLines_last h]
  split
  · rename_i empty
    rw [empty]
    rfl
  · rfl

/-- A line gets no line feed when its carriage return is dropped. -/
lemma newline_notMem_dropReturn {line : List Char} (h : '\n' ∉ line) : '\n' ∉ dropReturn line := by
  unfold dropReturn
  split
  · exact fun mem => h (List.dropLast_subset _ mem)
  · exact h

/-- No line has a newline in it. -/
lemma newline_notMem_lineAt (cs : List Char) (n : Nat) : '\n' ∉ lineAt cs n := by
  have lines : ∀ l ∈ textLines cs, '\n' ∉ l := by
    obtain ⟨ls, tail, rfl, ended, last⟩ := exists_lines cs
    intro l hl
    rw [textLines_endLines ended, List.mem_append] at hl
    obtain hl | hl := hl
    · obtain ⟨line, mem, rfl⟩ := List.mem_map.1 hl
      exact newline_notMem_dropReturn (ended line mem)
    · rw [textLines_last last] at hl
      split at hl
      · cases hl
      · exact List.mem_singleton.1 hl ▸ last
  rw [lineAt]
  cases h : (textLines cs)[n - 1]? with
  | none => exact List.not_mem_nil
  | some l => exact lines l (List.mem_of_getElem? h)

/-- Every character of a line stays where it is, unless it is a carriage return. -/
lemma getElem?_dropReturn {l : List Char} {i : Nat} {c : Char} (h : l[i]? = some c)
    (hc : c ≠ '\r') : (dropReturn l)[i]? = some c := by
  unfold dropReturn
  split
  · rename_i ends
    obtain ⟨init, rfl⟩ := List.getLast?_eq_some_iff.1 ends
    rw [List.dropLast_concat]
    obtain inner | last := Nat.lt_or_ge i init.length
    · rwa [List.getElem?_append_left inner] at h
    · rw [List.getElem?_append_right last, List.getElem?_singleton] at h
      split at h
      · cases h
        exact absurd rfl hc
      · cases h
  · exact h

/-! ## The line of a place -/

/-- What the line of a place shows: the characters in front of the place on its line, and behind
them the characters up to the newline or to the end of the text, less a carriage return that comes
right before the newline. -/
lemma Between.line_shown {source : String} {before rest : List Char} {p : Position}
    (h : Between source before rest p) :
    ∃ ls front, before = endLines ls ++ front ∧ '\n' ∉ front ∧ p.line = 1 + ls.length ∧
      p.column = 1 + front.length ∧
      (('\n' ∉ rest ∧ lineAt source.toList p.line = front ++ rest) ∨
        ∃ back more, rest = back ++ '\n' :: more ∧ '\n' ∉ back ∧
          lineAt source.toList p.line = dropReturn (front ++ back)) := by
  obtain ⟨ls, front, rfl, ended, last⟩ := exists_lines before
  have line : p.line = 1 + ls.length := by
    rw [h.line, List.count_append, count_endLines ended, List.count_eq_zero_of_not_mem last,
      Nat.add_zero]
  have column : p.column = 1 + front.length := by
    rw [h.column, takeWhile_reverse_lines ls last, List.length_reverse]
  have shown : lineAt source.toList p.line = lineAt (front ++ rest) 1 := by
    rw [h.text, line, List.append_assoc, lineAt_endLines ended]
  refine ⟨ls, front, rfl, last, line, column, ?_⟩
  by_cases mem : '\n' ∈ rest
  · obtain ⟨back, more, rfl, only⟩ := List.eq_append_cons_of_mem mem
    refine .inr ⟨back, more, rfl, only, ?_⟩
    rw [shown, ← List.append_assoc, lineAt_one_newline (by simp [last, only])]
  · refine .inl ⟨mem, ?_⟩
    rw [shown, lineAt_one_last (by simp [last, mem])]

/-- The line of a place has the character at the place where the column says, unless that character
is a blank. -/
lemma Between.getElem?_lineAt {source : String} {before rest : List Char} {p : Position}
    (h : Between source before rest p) (bare : ∀ c ∈ rest.head?, isBlank c = false) :
    (lineAt source.toList p.line)[p.column - 1]? = rest.head? := by
  obtain ⟨ls, front, -, -, -, column, shown⟩ := h.line_shown
  rw [column, Nat.add_sub_cancel_left]
  obtain ⟨-, shown⟩ | ⟨back, more, rfl, -, shown⟩ := shown
  · rw [shown, List.getElem?_append_right (Nat.le_refl _), Nat.sub_self, List.head?_eq_getElem?]
  · rw [shown]
    cases back with
    | nil => exact absurd (bare '\n' rfl) (by decide)
    | cons c back =>
      apply getElem?_dropReturn
      · simp
      · rintro rfl
        exact absurd (bare '\r' rfl) (by decide)

/-- The line of the end of a text ends there. -/
lemma Between.length_lineAt {source : String} {before : List Char} {p : Position}
    (h : Between source before [] p) : (lineAt source.toList p.line).length = p.column - 1 := by
  obtain ⟨ls, front, -, -, -, column, ⟨-, shown⟩ | ⟨back, more, ends, -⟩⟩ := h.line_shown
  · rw [shown, column, List.append_nil, Nat.add_sub_cancel_left]
  · simp at ends

/-! ## Lines of a report -/

/-- Lines with a newline behind each, as one text. -/
lemma toList_join_newline (ls : List String) :
    (String.join (ls.map (· ++ "\n"))).toList = endLines (ls.map String.toList) := by
  rw [String.toList_join, endLines, List.flatMap_map, List.flatMap_map]
  simp

/-- A character that is put behind a text again and again. -/
lemma toList_pushn (text : String) (c : Char) (n : Nat) :
    (text.pushn c n).toList = text.toList ++ List.replicate n c := by
  rw [String.pushn_eq_repeat_push]
  induction n with
  | zero => simp [Nat.repeat]
  | succ n ih => rw [Nat.repeat, String.toList_push, ih, List.append_assoc, List.replicate_succ']

/-- A number is shown by its digits. -/
lemma toList_toString (n : Nat) : (toString n).toList = digitsOf n := Nat.toList_repr

/-- There is no line feed among the digits of a number. -/
lemma newline_notMem_toDigits {b : Nat} (hb : 1 < b) (n : Nat) : '\n' ∉ Nat.toDigits b n := by
  have digit (d : Nat) : d.digitChar ≠ '\n' := Nat.digitChar_ne '\n' rfl
  induction n using Nat.strongRecOn with
  | ind n ih =>
    rw [Nat.toDigits_eq_if hb]
    split_ifs with small
    · simp [(digit _).symm]
    · have shorter : n / b < n := Nat.div_lt_self (by omega) hb
      simp [ih _ shorter, (digit _).symm]

/-- Padding on the left puts blanks in front, up to the width. -/
lemma toList_padLeft (width : Nat) (text : String) :
    (padLeft width text).toList = List.replicate (width - text.length) ' ' ++ text.toList := by
  rw [padLeft, String.toList_append, toList_pushn]
  rfl

/-- Padding on the right puts blanks behind, up to the width. -/
lemma toList_padRight (width : Nat) (text : String) :
    (padRight width text).toList = text.toList ++ List.replicate (width - text.length) ' ' :=
  toList_pushn _ _ _

end Quill
