import Quill.Proofs.Report.Caret

/-!
# The shape of a report

A report is five lines, and a sixth with the hint if there is one. No message has a newline in it: a
character that is no token is quoted, an escape that is none does not end in a newline, and a lexeme
lies on one line. The line that is shown is the one that the place is on, whatever ends the lines of
the source.
-/

namespace Quill

/-! ## Messages on one line -/

/-- Two texts on one line are on one line when they are put together. -/
lemma newline_notMem_append {a b : String} (ha : '\n' ∉ a.toList) (hb : '\n' ∉ b.toList) :
    '\n' ∉ (a ++ b).toList := by
  rw [String.toList_append, List.mem_append, not_or]
  exact ⟨ha, hb⟩

/-- Texts on one line are on one line when they are listed. -/
lemma newline_notMem_intercalate {separator : String} (hs : '\n' ∉ separator.toList)
    {ls : List String} (h : ∀ l ∈ ls, '\n' ∉ l.toList) :
    '\n' ∉ (separator.intercalate ls).toList := by
  induction ls with
  | nil => exact List.not_mem_nil
  | cons l ls ih =>
    obtain ⟨first, others⟩ := List.forall_mem_cons.1 h
    cases ls with
    | nil => rwa [String.intercalate_singleton]
    | cons l' ls =>
      rw [String.intercalate_cons_cons]
      exact newline_notMem_append (newline_notMem_append first hs) (ih others)

/-- A newline is quoted by its short escape. -/
lemma newline_notMem_quoteChar (q c : Char) : '\n' ∉ quoteChar q c := by
  have digits := newline_notMem_toDigits (b := 16) (by decide) c.toNat
  unfold quoteChar codePointEscape
  split_ifs with _ _ _ newline escaped _
  · decide
  · decide
  · decide
  · decide
  · simp [Ne.symm newline]
  · simp [Ne.symm newline]
  · simp [digits]

/-- A quoted text is on one line, since its line feeds are escaped. -/
lemma newline_notMem_quoteWith {q : Char} (hq : q ≠ '\n') (cs : List Char) :
    '\n' ∉ quoteWith q cs := by
  simp [quoteWith, hq.symm, newline_notMem_quoteChar]

/-- What is malformed is told on one line. -/
lemma Malformed.newline_notMem_message {reason : LexReason} {before rest : List Char}
    (h : Malformed reason before rest) : '\n' ∉ reason.message.toList := by
  cases h with
  | unexpectedChar _ =>
    refine newline_notMem_append (by decide) ?_
    rw [String.toList_ofList]
    exact newline_notMem_quoteWith (by decide) _
  | unterminatedString _ _ => decide
  | unterminatedComment _ => decide
  | invalidEscape _ bad =>
    refine newline_notMem_append (newline_notMem_append (by decide) ?_) (by decide)
    simpa using bad.newline.symm
  | invalidNumber longest =>
    refine newline_notMem_append (newline_notMem_append (by decide) ?_) (by decide)
    rw [String.toList_ofList]
    exact longest.lexeme.newline_notMem

/-- What is expected is named on one line. -/
lemma Expectation.newline_notMem_text (x : Expectation) : '\n' ∉ x.text.toList := by
  cases x with
  | mark m => cases m <;> decide
  | _ => decide

/-- What is expected and what is found is told on one line. -/
lemma ParseError.newline_notMem_message {e : ParseError}
    (expected : ∀ text ∈ e.expected, '\n' ∉ text.toList) (found : '\n' ∉ e.found.toList) :
    '\n' ∉ e.message.toList := by
  have alternatives : '\n' ∉ e.expectation.toList := by
    unfold ParseError.expectation
    split
    · decide
    · rename_i one split
      exact expected one (by simp [split])
    · obtain empty | ⟨init, last, split⟩ := e.expected.eq_nil_or_concat
      · rw [empty]
        decide
      · rw [List.concat_eq_append] at split
        rw [split] at expected ⊢
        obtain ⟨inner, final⟩ := List.forall_mem_append.1 expected
        rw [List.dropLast_concat, List.getLastD_concat]
        exact newline_notMem_append (newline_notMem_append (newline_notMem_append (by decide)
          (newline_notMem_intercalate (by decide) inner)) (by decide)) (final last (by simp))
  exact newline_notMem_append
    (newline_notMem_append (newline_notMem_append (by decide) alternatives) (by decide)) found

/-- A word is spelled by itself. -/
lemma Lexeme.word_eq {front : List Char} {w : String} (h : Lexeme front (some (.word w))) :
    w.toList = front := by
  generalize hk : some (Kind.word w) = k at h
  cases h with
  | number _ => simp at hk
  | word _ _ =>
    cases hk
    exact String.toList_ofList
  | _ => cases hk

/-- A token is named on one line. -/
lemma Tiles.newline_notMem_describe {p : Position} {cs : List Char} {items : List Item}
    (h : Tiles p cs items) {t : Token} (ht : .ok t ∈ items) : '\n' ∉ t.describe.toList := by
  obtain ⟨_, _, -, -, line, -⟩ := h.token_slice ht
  unfold Token.describe
  split
  · exact newline_notMem_append (newline_notMem_append (by decide) line) (by decide)
  · exact newline_notMem_append (by decide) line
  · rename_i w word
    have lexeme := h.lexeme ht (by simp [word])
    rw [word] at lexeme
    rw [← lexeme.word_eq] at line
    refine newline_notMem_append (newline_notMem_append ?_ line) (by decide)
    split <;> decide
  · rename_i op _
    cases op <;> decide
  · rename_i m _
    cases m <;> decide
  · decide

variable {settings : Settings} {source : String} {e : SyntaxError}

/-- Why a text has no tree is told on one line. -/
theorem newline_notMem_message (failed : parseText settings source = .error e) :
    '\n' ∉ e.message.toList := by
  obtain ⟨before, item, after, stream, stop, -⟩ := exists_stop settings (tokenize source)
  have mem := mem_tokenize_of_stop stream stop.kind_ne_endOfInput
  have tiles := tiles_tokenize source
  rw [parseText] at failed
  rw [failed] at stop
  -- The item at which the parse stops is the text's own, so its lexeme is on one line.
  cases stop with
  | error _ =>
    obtain ⟨_, _, _, _, -, malformed, -⟩ := tiles.error mem
    exact malformed.newline_notMem_message
  | @refuse s t why _ _ =>
    cases why with
    | unexpected expected =>
      refine ParseError.newline_notMem_message ?_ (tiles.newline_notMem_describe mem)
      intro text ht
      obtain ⟨x, -, rfl⟩ := List.mem_map.1 ht
      exact x.newline_notMem_text
    | tooDeep =>
      refine newline_notMem_append (newline_notMem_append (by decide) ?_) (by decide)
      rw [toList_toString]
      exact newline_notMem_toDigits (by decide) _

/-! ## The line of the source -/

/-- What is shown of a line by what is behind it: a carriage return right before a newline is left
out, and nothing else. -/
inductive Shown : List Char → List Char → List Char → Prop where
  | last {line} : Shown line [] line
  | newline {line more} : line.getLast? ≠ some '\r' → Shown line ('\n' :: more) line
  | returned {line more} : Shown (line ++ ['\r']) ('\n' :: more) line

/-- What is shown of a line that ends in a line feed has no carriage return at its end. -/
lemma shown_dropReturn (line more : List Char) :
    Shown line ('\n' :: more) (dropReturn line) := by
  unfold dropReturn
  split
  · rename_i ends
    obtain ⟨init, rfl⟩ := List.getLast?_eq_some_iff.1 ends
    rw [List.dropLast_concat]
    exact .returned
  · rename_i ends
    exact .newline ends

/-- `shown` is what is shown of the line of the source that the place is on: the line is behind the
lines above it, and the place is between the two parts of it. -/
def ShowsLine (source : String) (p : Position) (shown : List Char) : Prop :=
  ∃ above front back below, Between source (endLines above ++ front) (back ++ below) p ∧
    '\n' ∉ front ++ back ∧ Shown (front ++ back) below shown

/-- A report shows the line that the place is on. -/
lemma Between.showsLine {before rest : List Char} {p : Position}
    (h : Between source before rest p) : ShowsLine source p (lineAt source.toList p.line) := by
  obtain ⟨above, front, rfl, inFront, -, -, shown⟩ := h.line_shown
  obtain ⟨inner, shown⟩ | ⟨back, more, rfl, inner, shown⟩ := shown
  · rw [shown]
    refine ⟨above, front, rest, [], ?_, by simp [inFront, inner], .last⟩
    rwa [List.append_nil]
  · rw [shown]
    exact ⟨above, front, back, '\n' :: more, h, by simp [inFront, inner], shown_dropReturn _ _⟩

/-! ## The lines of a report -/

/-- A place is shown on one line. -/
lemma Position.newline_notMem_display (p : Position) : '\n' ∉ p.display.toList := by
  have number (n : Nat) : '\n' ∉ (toString n).toList := by
    rw [toList_toString]
    exact newline_notMem_toDigits (by decide) n
  exact newline_notMem_append (newline_notMem_append (number _) (by decide)) (number _)

namespace Report

/-- The lines of a report. -/
lemma toList_lines (file source : String) (e : SyntaxError) :
    (lines false file source e).map String.toList =
      [("error[" ++ e.code ++ "]: " ++ e.message).toList,
        ("  --> " ++ file ++ ":" ++
          (toString e.position.line ++ ":" ++ toString e.position.column)).toList,
        "    |".toList,
        gutter e.position ++ lineAt source.toList e.position.line,
        "    | ".toList ++ (List.replicate (e.position.column - 1) ' ' ++ ['^'])] ++
      e.help.toList.map fun h => ("help: " ++ h).toList := by
  have head : (headline false e).toList = ("error[" ++ e.code ++ "]: " ++ e.message).toList := by
    simp [headline]
  have place : (place false file e.position).toList = ("  --> " ++ file ++ ":" ++
      (toString e.position.line ++ ":" ++ toString e.position.column)).toList := by
    simp [Report.place, Position.display]
  have hints : (String.toList ∘ hint false) = fun h => ("help: " ++ h).toList := by
    funext h
    simp [hint]
  rw [lines, List.map_append, List.map_map, hints, ← toList_caret, ← toList_excerpt, ← head, ← place]
  rfl

/-- No line of a report has another one in it. -/
lemma newline_notMem_lines {file : String} (name : '\n' ∉ file.toList)
    (failed : parseText settings source = .error e) :
    ∀ l ∈ (lines false file source e).map String.toList, '\n' ∉ l := by
  rw [toList_lines]
  refine List.forall_mem_append.2 ⟨?_, ?_⟩
  · simp only [List.forall_mem_cons]
    refine ⟨?_, ?_, by decide, ?_, by simp, nofun⟩
    · have code : '\n' ∉ e.code.toList := by
        unfold SyntaxError.code
        split <;> decide
      exact newline_notMem_append (newline_notMem_append (newline_notMem_append (by decide) code)
        (by decide)) (newline_notMem_message failed)
    · exact newline_notMem_append (newline_notMem_append (newline_notMem_append (by decide) name)
        (by decide)) e.position.newline_notMem_display
    · rw [List.mem_append, not_or]
      exact ⟨newline_notMem_gutter _, newline_notMem_lineAt _ _⟩
  · intro l hl
    obtain ⟨text, mem, rfl⟩ := List.mem_map.1 hl
    exact newline_notMem_append (by decide) (notMem_of_help (Option.mem_toList.1 mem)).1

end Report

/-- A report without colours has the line that says what is wrong, the one that says where, the
margin, the line of the source behind its number, the caret, and then the hint if there is one. Each
is one line. What is shown of the source is the line that the error is on, with the character at the
error where the column says. -/
theorem report_shows_line (file : String) (name : '\n' ∉ file.toList)
    (failed : parseText settings source = .error e) :
    let shown := lineAt source.toList e.position.line
    let ls := [("error[" ++ e.code ++ "]: " ++ e.message).toList,
        ("  --> " ++ file ++ ":" ++
          (toString e.position.line ++ ":" ++ toString e.position.column)).toList,
        "    |".toList,
        Report.gutter e.position ++ shown,
        "    | ".toList ++ (List.replicate (e.position.column - 1) ' ' ++ ['^'])] ++
      e.help.toList.map fun h => ("help: " ++ h).toList
    (Report.render false file source e).toList = endLines ls ∧ (∀ l ∈ ls, '\n' ∉ l) ∧
      ShowsLine source e.position shown ∧
      ∃ before rest, Between source before rest e.position ∧
        shown[e.position.column - 1]? = rest.head? := by
  intro shown ls
  have same : (Report.lines false file source e).map String.toList = ls := Report.toList_lines ..
  obtain ⟨before, rest, between, bare⟩ := exists_between_of_error failed
  refine ⟨?_, ?_, between.showsLine, before, rest, between, between.getElem?_lineAt bare⟩
  · rw [Report.render, toList_join_newline, same]
  · rw [← same]
    exact Report.newline_notMem_lines name failed

/-- The carriage return is not shown, and the column counts the letter of two bytes once. -/
theorem report_of_stray_comma :
    let source := "\r\n(# é #) ,\r\n\x7b"
    let e : SyntaxError := .lex ⟨⟨11, 2, 9⟩, .unexpectedChar ','⟩
    let shown := "(# é #) ,".toList
    parseText {} source = .error e ∧
      (Report.render false "x.ql" source e).toList = endLines
        ["error[E_LEX]: unexpected character ','".toList, "  --> x.ql:2:9".toList, "    |".toList,
          "  2 | ".toList ++ shown, "    |         ^".toList,
          "help: call arguments are separated by whitespace: `f(a b)`".toList] ∧
      ShowsLine source e.position shown := by
  intro source e shown
  have items : tokenize source = [.error ⟨⟨11, 2, 9⟩, .unexpectedChar ','⟩] := by decide +kernel
  have failed : parseText {} source = .error e := by
    rw [parseText, items]
    rfl
  obtain ⟨text, -, line, -⟩ := report_shows_line "x.ql" (by decide) failed
  have same : lineAt source.toList e.position.line = shown := by decide +kernel
  rw [same] at line text
  refine ⟨failed, text.trans ?_, line⟩
  decide +kernel

end Quill
