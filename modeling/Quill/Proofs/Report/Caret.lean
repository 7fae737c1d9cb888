import Mathlib.Data.List.Basic
import Quill.Proofs.Report.Lines
import Quill.Proofs.Stream.ErrorPlace

/-!
# The caret of a report

A report shows the line of the error behind its number and a bar, and below it a caret behind a bar.
The number takes the room of its digits, at least three, and the margin before the other bar is as
wide as three of them. So the caret stands under the character at the error up to line 999, and from
then on one column too far to the left for each digit after the third.
-/

namespace Quill

/-! ## The two lines in a text -/

/-- The last of some lines with a bar in it, behind the line above it. -/
def lastBar : List (List Char) → Option (List Char × List Char)
  | above :: under :: ls =>
    (lastBar (under :: ls)).or (if '|' ∈ under then some (above, under) else none)
  | _ => none

/-- There is no last line with a bar among lines without one. -/
lemma lastBar_eq_none {above : List Char} {ls : List (List Char)} (h : ∀ l ∈ ls, '|' ∉ l) :
    lastBar (above :: ls) = none := by
  induction ls generalizing above with
  | nil => rfl
  | cons l ls ih =>
    obtain ⟨first, others⟩ := List.forall_mem_cons.1 h
    rw [lastBar, ih others, if_neg first]
    rfl

/-- Nothing in front of a line with a bar matters, and no lines without one behind it. -/
lemma lastBar_append (ls : List (List Char)) {above under : List Char} {ls' : List (List Char)}
    (bar : '|' ∈ under) (h : ∀ l ∈ ls', '|' ∉ l) :
    lastBar (ls ++ above :: under :: ls') = some (above, under) := by
  induction ls with
  | nil => rw [List.nil_append, lastBar, lastBar_eq_none h, if_pos bar, Option.none_or]
  | cons l ls ih =>
    cases ls with
    | nil =>
      rw [List.nil_append] at ih
      rw [List.cons_append, List.nil_append, lastBar, ih, Option.some_or]
    | cons l' ls =>
      rw [List.cons_append] at ih
      rw [List.cons_append, List.cons_append, lastBar, ih, Option.some_or]

/-! ## The lines of a report -/

/-- Every hint is one line without a bar. -/
lemma notMem_of_help {e : SyntaxError} {text : String} (h : e.help = some text) :
    '\n' ∉ text.toList ∧ '|' ∉ text.toList := by
  cases e with
  | lex e =>
    rw [SyntaxError.help, SyntaxError.lexHelp.eq_def] at h
    split at h <;> cases h <;> decide
  | parse e =>
    rw [SyntaxError.help, SyntaxError.parseHelp] at h
    split at h
    · cases h
      decide
    · split at h <;> cases h
      decide
  | nestingTooDeep p limit =>
    cases h
    decide

namespace Report

/-- What stands in front of the line of the source. -/
def gutter (p : Position) : List Char :=
  (padLeft 3 (toString p.line)).toList ++ [' ', '|', ' ']

/-- The line of the source in a report stands behind its number. -/
lemma toList_excerpt (source : String) (p : Position) :
    (excerpt false source p).toList = gutter p ++ lineAt source.toList p.line := by
  simp [excerpt, gutter]

/-- The caret in a report stands behind a gutter that is always as wide. -/
lemma toList_caret (p : Position) :
    (caret false p).toList = "    | ".toList ++ (List.replicate (p.column - 1) ' ' ++ ['^']) := by
  simp [caret, margin, toList_pushn]

/-- The gutter of a line is as wide as its number, and no narrower than three digits. -/
lemma length_gutter (p : Position) : (gutter p).length = max 3 (digitsOf p.line).length + 3 := by
  rw [gutter, toList_padLeft, ← String.length_toList, toList_toString]
  simp only [List.length_append, List.length_replicate, List.length_cons, List.length_nil]
  omega

/-- There is no line feed in the gutter of a line. -/
lemma newline_notMem_gutter (p : Position) : '\n' ∉ gutter p := by
  simp [gutter, toList_padLeft, newline_notMem_toDigits]

/-- Where the caret stands in its line. -/
lemma idxOf_caret (p : Position) : (caret false p).toList.idxOf '^' = 6 + (p.column - 1) := by
  have blanks : '^' ∉ "    | ".toList ++ List.replicate (p.column - 1) ' ' := by simp
  rw [toList_caret, ← List.append_assoc, List.idxOf_append_of_notMem blanks, List.idxOf_cons_self,
    List.length_append, List.length_replicate]
  rfl

/-- The report ends with the line of the source, the caret and the hint if there is one. -/
lemma toList_render (file source : String) (e : SyntaxError) :
    ∃ front, (render false file source e).toList =
      front ++ '\n' :: endLines ((excerpt false source e.position).toList ::
        (caret false e.position).toList :: (e.help.toList.map fun h => (hint false h).toList)) := by
  refine ⟨(headline false e ++ "\n" ++ place false file e.position ++ "\n" ++
    margin false).toList, ?_⟩
  rw [render, toList_join_newline, lines]
  simp [Function.comp_def]

/-- In a report, the last line with a bar is the one with the caret. -/
lemma lastBar_render (file source : String) (e : SyntaxError) :
    lastBar ((render false file source e).toList.splitOn '\n') =
      some ((excerpt false source e.position).toList, (caret false e.position).toList) := by
  have hints : ∀ l ∈ e.help.toList.map fun h => (hint false h).toList, '\n' ∉ l ∧ '|' ∉ l := by
    intro l hl
    obtain ⟨text, mem, rfl⟩ := List.mem_map.1 hl
    have := notMem_of_help (Option.mem_toList.1 mem)
    simp [hint, this]
  have line : '\n' ∉ (excerpt false source e.position).toList := by
    rw [toList_excerpt, List.mem_append, not_or]
    exact ⟨newline_notMem_gutter _, newline_notMem_lineAt _ _⟩
  have under : '\n' ∉ (caret false e.position).toList ∧ '|' ∈ (caret false e.position).toList := by
    simp [toList_caret]
  obtain ⟨front, text⟩ := toList_render file source e
  rw [text, List.splitOn_append_cons_self, splitOn_endLines, List.cons_append, List.cons_append]
  · refine lastBar_append _ under.2 fun l hl => ?_
    obtain hl | hl := List.mem_append.1 hl
    · exact (hints l hl).2
    · exact List.mem_singleton.1 hl ▸ List.not_mem_nil
  · exact List.forall_mem_cons.2 ⟨line, List.forall_mem_cons.2 ⟨under.1, fun l hl => (hints l hl).1⟩⟩

end Report

/-! ## The caret and the character -/

/-- The line shows the line of the source that the place is on, and has at `i` the character at the
place. At the end of the source it ends there. -/
structure ShowsAt (source : String) (p : Position) (above : List Char) (i : Nat) : Prop where
  line : ∃ gutter, above = gutter ++ lineAt source.toList p.line ∧
    i = gutter.length + (p.column - 1)
  character : ∃ before rest, Between source before rest p ∧ above[i]? = rest.head? ∧
    (rest = [] → i = above.length)

/-- The line of a place that is no blank shows the character. -/
lemma Between.showsAt {source : String} {before rest : List Char} {p : Position}
    (h : Between source before rest p) (bare : ∀ c ∈ rest.head?, isBlank c = false)
    (gutter : List Char) :
    ShowsAt source p (gutter ++ lineAt source.toList p.line) (gutter.length + (p.column - 1)) where
  line := ⟨gutter, rfl, rfl⟩
  character := by
    refine ⟨before, rest, h, ?_, ?_⟩
    · rw [List.getElem?_append_right (Nat.le_add_right _ _), Nat.add_sub_cancel_left,
        h.getElem?_lineAt bare]
    · rintro rfl
      rw [List.length_append, h.length_lineAt]

/-- A number has at most three digits below a thousand. -/
lemma length_digitsOf_le_three_iff (n : Nat) : (digitsOf n).length ≤ 3 ↔ n < 1000 :=
  Nat.length_toDigits_le_iff (by decide) (by decide)

variable {settings : Settings} {source : String} {e : SyntaxError}

/-- In a report without colours, the caret in the last line with a bar is as many columns to the
left of the character that the line above shows at the error as the number of the line has digits
after the third. So it stands right under the character exactly up to line 999. -/
theorem caret_under_character_iff (file : String) (failed : parseText settings source = .error e) :
    ∃ above under i,
      lastBar ((Report.render false file source e).toList.splitOn '\n') = some (above, under) ∧
      ShowsAt source e.position above i ∧ '^' ∈ under ∧
      under.idxOf '^' + ((digitsOf e.position.line).length - 3) = i ∧
      (under.idxOf '^' = i ↔ e.position.line < 1000) := by
  obtain ⟨before, rest, between, bare⟩ := exists_between_of_error failed
  have under := Report.idxOf_caret e.position
  have above := Report.length_gutter e.position
  refine ⟨_, _, (Report.gutter e.position).length + (e.position.column - 1),
    Report.lastBar_render file source e, ?_, ?_, ?_, ?_⟩
  · rw [Report.toList_excerpt]
    exact between.showsAt bare _
  · simp [Report.toList_caret]
  · rw [under, above]
    omega
  · rw [under, above, ← length_digitsOf_le_three_iff]
    omega

/-! ## Lines 999 and 1000 -/

/-- A character that begins no token, behind empty lines and blanks of three bytes. -/
def strayBehind (lines blanks : Nat) : String :=
  String.ofList (List.replicate lines '\n' ++ (List.replicate blanks '\u3000' ++ ['@']))

/-- Blanks in front of trivia are trivia. -/
lemma gap_replicate {c : Char} (blank : isBlank c = true) (n : Nat) {cs : List Char} (h : Gap cs) :
    Gap (List.replicate n c ++ cs) := by
  induction n with
  | zero => exact h
  | succ n ih => exact .blank blank ih

/-- Line feeds lead down to the first column. -/
lemma after_newlines (offset line n : Nat) :
    (Position.mk offset line 1).after (List.replicate n '\n') = ⟨offset + n, line + n, 1⟩ := by
  induction n generalizing offset line with
  | zero => rfl
  | succ n ih =>
    have step : (Position.mk offset line 1).step '\n' = ⟨offset + 1, line + 1, 1⟩ := rfl
    rw [List.replicate_succ, Position.after_cons, step, ih]
    congr 1 <;> omega

/-- Blanks of three bytes lead on by one column each. -/
lemma after_wideBlanks (offset line column n : Nat) :
    (Position.mk offset line column).after (List.replicate n '\u3000') =
      ⟨offset + 3 * n, line, column + n⟩ := by
  induction n generalizing offset column with
  | zero => rfl
  | succ n ih =>
    have step : (Position.mk offset line column).step '\u3000' = ⟨offset + 3, line, column + 1⟩ :=
      rfl
    rw [List.replicate_succ, Position.after_cons, step, ih]
    congr 1 <;> omega

/-- The stray character is found on the line behind the empty ones. -/
lemma parse_strayBehind (lines blanks : Nat) :
    parseText {} (strayBehind lines blanks) =
      .error (.lex ⟨⟨lines + 3 * blanks, 1 + lines, 1 + blanks⟩, .unexpectedChar '@'⟩) := by
  let gap := List.replicate lines '\n' ++ List.replicate blanks '\u3000'
  have wideBlank : isBlank '\u3000' = true := by decide
  have skipped : Gap gap := by
    have wide := gap_replicate wideBlank blanks .nil
    rw [List.append_nil] at wide
    exact gap_replicate (by decide) lines wide
  have blank : ∀ c ∈ ['@'].head?, isBlank c = false := by
    rintro c ⟨⟩
    decide
  have bare : Bare ['@'] := ⟨blank, by decide⟩
  have fault : Fault ['@'] [] (.unexpectedChar '@') := scanSymbol_eq_fault_iff.1 rfl
  have items : tokenize (strayBehind lines blanks) =
      [.error ⟨Position.start.after gap, .unexpectedChar '@'⟩] := by
    rw [tokenize, Scanner.ofText, strayBehind, String.toList_ofList, ← List.append_assoc]
    exact items_of_tiles (.fault skipped bare fault)
  have place : Position.start.after gap = ⟨lines + 3 * blanks, 1 + lines, 1 + blanks⟩ := by
    rw [Position.after_append, Position.start, after_newlines, after_wideBlanks, Nat.zero_add]
  rw [parseText, items, place]
  rfl

/-- On line 999 the caret is under the character. -/
theorem caret_under_stray :
    let source := strayBehind 998 4
    let e : SyntaxError := .lex ⟨⟨1010, 999, 5⟩, .unexpectedChar '@'⟩
    parseText {} source = .error e ∧
      ∃ above under i,
        lastBar ((Report.render false "x.ql" source e).toList.splitOn '\n') =
          some (above, under) ∧
        ShowsAt source e.position above i ∧ under.idxOf '^' = i := by
  intro source e
  have failed : parseText {} source = .error e := parse_strayBehind 998 4
  obtain ⟨above, under, i, bars, shows, -, -, same⟩ := caret_under_character_iff "x.ql" failed
  exact ⟨failed, above, under, i, bars, shows, same.2 (by decide)⟩

/-- On line 1000 the caret is to the left of the character. -/
theorem caret_not_under_character :
    ¬ ∀ settings file source e, parseText settings source = .error e →
      ∃ above under i,
        lastBar ((Report.render false file source e).toList.splitOn '\n') = some (above, under) ∧
        ShowsAt source e.position above i ∧ under.idxOf '^' = i := by
  intro always
  obtain ⟨above, under, i, bars, shows, same⟩ := always {} "x.ql" _ _ (parse_strayBehind 999 0)
  rw [Report.lastBar_render] at bars
  cases bars
  obtain ⟨gutter, split, hi⟩ := shows.line
  rw [Report.toList_excerpt] at split
  have width := congrArg List.length (List.append_inj_left' split rfl)
  rw [Report.length_gutter] at width
  rw [Report.idxOf_caret, hi, ← width] at same
  revert same
  decide

end Quill
