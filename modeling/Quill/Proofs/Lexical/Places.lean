import Mathlib.Data.List.Induction
import Quill.Proofs.Lexical.Characters
import Quill.Proofs.Lexical.Exactness

/-!
# Places

Where the tokens and the errors of a text stand. A place is right when its three numbers are those
of the characters in front of it: their bytes, their newlines, and how many of them there are behind
the last newline. The scanner only ever moves past characters, so all its places are right
(`between_after`); what is left to say is which characters stand on either side of one.
-/

namespace Quill

/-- The place stands in the source behind `before` and in front of `rest`, and its numbers say
so. -/
structure Between (source : String) (before rest : List Char) (p : Position) : Prop where
  text : source.toList = before ++ rest
  offset : p.offset = (String.ofList before).utf8ByteSize
  line : p.line = 1 + before.count '\n'
  column : p.column = 1 + (before.reverse.takeWhile (· ≠ '\n')).length

/-- What begins where a token should and is none: the characters in front of the place that is
reported, and those from there on. -/
inductive Malformed : LexReason → List Char → List Char → Prop where
  | unexpectedChar {c cs} :
    (∀ front k, front <+: c :: cs → ¬ Lexeme front k) →
    Malformed (.unexpectedChar c) [] (c :: cs)
  | unterminatedString {spelling value rest} :
    StringBody spelling value →
    BreaksOff rest →
    Malformed .unterminatedString [] ('"' :: (spelling ++ rest))
  | unterminatedComment {inside} :
    Unclosed inside →
    Malformed .unterminatedComment [] ('(' :: '#' :: inside)
  | invalidEscape {spelling value letter rest} :
    StringBody spelling value →
    BadEscape letter rest →
    Malformed (.invalidEscape letter) ('"' :: spelling) ('\\' :: letter :: rest)
  | invalidNumber {literal rest} :
    Longest (literal ++ rest) literal none →
    Malformed (.invalidNumber (String.ofList literal)) [] (literal ++ rest)

/-! ## Counting -/

/-- A text moves a place down by the number of its line feeds. -/
lemma line_after (p : Position) (cs : List Char) : (p.after cs).line = p.line + cs.count '\n' := by
  induction cs generalizing p with
  | nil => rfl
  | cons c cs ih =>
    rw [Position.after_cons, ih, Position.step, List.count_cons]
    by_cases hc : c = '\n'
    · simp [hc]
      omega
    · simp [hc]

/-- The column counts the characters of the last line. -/
lemma column_after (cs : List Char) :
    (Position.start.after cs).column = 1 + (cs.reverse.takeWhile (· ≠ '\n')).length := by
  induction cs using List.reverseRecOn with
  | nil => rfl
  | append_singleton cs c ih =>
    rw [Position.after_append, Position.after_cons, Position.after_nil, Position.step,
      List.reverse_append, List.reverse_singleton, List.singleton_append]
    split
    · rename_i hc
      simp [hc]
    · rename_i hc
      simp [hc, ih, Nat.add_assoc]

/-- The place behind some characters of a text counts those characters. -/
theorem between_after {source : String} {before rest : List Char}
    (text : source.toList = before ++ rest) :
    Between source before rest (Position.start.after before) where
  text := text
  offset := by
    rw [offset_after]
    exact Nat.zero_add _
  line := line_after _ _
  column := column_after before

/-- A place that stands between two parts of a text is a boundary of its characters. -/
lemma Between.isValid {source : String} {before rest : List Char} {p : Position}
    (h : Between source before rest p) : String.Pos.Raw.IsValid source ⟨p.offset⟩ := by
  rw [String.Pos.Raw.isValid_iff_exists_append]
  refine ⟨String.ofList before, String.ofList rest, ?_, ?_⟩
  · apply String.toList_inj.1
    simp [h.text]
  · rw [h.offset]
    rfl

/-- A text on one line ends as many bytes and columns further as it has. -/
lemma after_eq_past (p : Position) {cs : List Char} (h : '\n' ∉ cs) :
    p.after cs = p.past (String.ofList cs) := by
  have column : (p.after cs).column = p.column + cs.length := by
    induction cs generalizing p with
    | nil => rfl
    | cons c cs ih =>
      obtain ⟨hc, hcs⟩ := List.ne_and_not_mem_of_not_mem_cons h
      rw [Position.after_cons, ih _ hcs, Position.step, if_neg (Ne.symm hc), List.length_cons]
      dsimp only
      omega
  rw [Position.past, ← offset_after, String.length_ofList, ← column]
  have line : (p.after cs).line = p.line := by
    rw [line_after, List.count_eq_zero_of_not_mem h, Nat.add_zero]
  rw [← line]

/-! ## Tokens -/

variable {p : Position} {cs : List Char} {items : List Item}

/-- A token that is not the end has a lexeme of its kind. -/
lemma Tiles.lexeme (h : Tiles p cs items) {t : Token} (ht : .ok t ∈ items)
    (hk : t.kind ≠ .endOfInput) : Lexeme t.lexeme.toList (some t.kind) := by
  induction h with
  | done _ =>
    obtain ⟨⟩ := List.mem_singleton.1 ht
    exact absurd rfl hk
  | token _ _ hl _ ih =>
    cases ht with
    | head =>
      rw [String.toList_ofList]
      exact hl.lexeme
    | tail _ ht => exact ih ht
  | fault _ _ _ => cases List.mem_singleton.1 ht
  | unclosed _ _ => cases List.mem_singleton.1 ht

/-- The end stands behind the whole text. -/
lemma Tiles.end_eq (h : Tiles p cs items) {t : Token} (ht : .ok t ∈ items)
    (hk : t.kind = .endOfInput) : t = .endAt (p.after cs) := by
  obtain ⟨ts, last, rfl, inner, hlast⟩ := h.last
  obtain ht | ht := List.mem_append.1 ht
  · obtain ⟨u, hu, same⟩ := List.mem_map.1 ht
    cases same
    exact absurd hk (inner t hu)
  · obtain rfl := List.mem_singleton.1 ht
    obtain same | ⟨e, same⟩ := hlast
    · exact Except.ok.inj same
    · cases same

/-- A token stands in front of its lexeme, on one line, and the end in front of nothing. -/
lemma Tiles.token_slice (h : Tiles p cs items) {t : Token} (ht : .ok t ∈ items) :
    ∃ before rest, cs = before ++ (t.lexeme.toList ++ rest) ∧ t.position = p.after before ∧
      '\n' ∉ t.lexeme.toList ∧ (t.kind = .endOfInput → t.lexeme = "" ∧ rest = []) := by
  by_cases hk : t.kind = .endOfInput
  · obtain rfl := h.end_eq ht hk
    exact ⟨cs, [], (List.append_nil cs).symm, rfl, List.not_mem_nil, fun _ => ⟨rfl, rfl⟩⟩
  · obtain ⟨before, rest, text, place⟩ := h.slice ht
    have line := (h.lexeme ht hk).newline_notMem
    exact ⟨before, rest, text, place, line, fun end_of_input => absurd end_of_input hk⟩

/-! ## Errors -/

/-- What the scanner refuses is malformed at the place that it reports. -/
lemma Fault.malformed {before : List Char} {reason : LexReason} (h : Fault cs before reason) :
    ∃ rest, cs = before ++ rest ∧ Malformed reason before rest := by
  cases h with
  | unexpectedChar _ nothing => exact ⟨_, rfl, .unexpectedChar nothing⟩
  | unterminatedString body off => exact ⟨_, rfl, .unterminatedString body off⟩
  | invalidEscape body bad => exact ⟨_, rfl, .invalidEscape body bad⟩
  | invalidNumber longest =>
    obtain ⟨rest, rfl⟩ := longest.isPrefix
    exact ⟨_, rfl, .invalidNumber longest⟩

/-- The text in front of what is malformed has the tokens in front of the error, and the error
stands where the malformed text says. -/
lemma Tiles.error (h : Tiles p cs items) {e : LexError} (he : .error e ∈ items) :
    ∃ (ts : List Token) (front before rest : List Char), cs = front ++ (before ++ rest) ∧
      Malformed e.reason before rest ∧ e.position = p.after (front ++ before) ∧
      items = ts.map .ok ++ [.error e] ∧
      Tiles p front ((ts ++ [Token.endAt (p.after front)]).map .ok) := by
  induction h with
  | done _ => cases List.mem_singleton.1 he
  | @token p gap lexeme rest kind items hg hb hl _ ih =>
    cases he with
    | tail _ he =>
      obtain ⟨ts, front, before, rest, rfl, malformed, place, rfl, tiles⟩ := ih he
      refine ⟨⟨kind, String.ofList lexeme, p.after gap⟩ :: ts, gap ++ (lexeme ++ front), before,
        rest, by simp, malformed, ?_, rfl, ?_⟩
      · rw [place, ← Position.after_append, ← Position.after_append]
        simp
      · -- What is cut off behind the front changes none of its lexemes.
        have shorter : lexeme ++ front <+: lexeme ++ (front ++ (before ++ rest)) :=
          ⟨before ++ rest, List.append_assoc _ _ _⟩
        have tail := Tiles.token hg (hb.of_prefix shorter)
          (hl.of_prefix (List.prefix_append _ _) shorter) tiles
        rwa [← Position.after_append, ← Position.after_append] at tail
  | @fault p gap cs before reason hg hb hf =>
    obtain rfl := Except.error.inj (List.mem_singleton.1 he)
    obtain ⟨rest, rfl, malformed⟩ := hf.malformed
    exact ⟨[], gap, before, rest, rfl, malformed, (Position.after_append _ _ _).symm, rfl, .done hg⟩
  | @unclosed p gap inside hg hu =>
    obtain rfl := Except.error.inj (List.mem_singleton.1 he)
    exact ⟨[], gap, [], _, rfl, .unterminatedComment hu, by simp, rfl, .done hg⟩

/-- Every place is right. A token stands in front of its lexeme and ends behind it, on the same
line, and the end of the input stands behind the whole text. An error stands at the first character
of what is malformed, or at the backslash of a bad escape, and all that is in front of what is
malformed is the tokens before the error. -/
theorem tokenize_places (source : String) :
    (∀ t, .ok t ∈ tokenize source →
      ∃ before rest, Between source before (t.lexeme.toList ++ rest) t.position ∧
        Between source (before ++ t.lexeme.toList) rest t.endPosition ∧
        '\n' ∉ t.lexeme.toList ∧
        (t.kind = .endOfInput → t.lexeme = "" ∧ rest = [])) ∧
    ∀ e, .error e ∈ tokenize source →
      ∃ (ts : List Token) (front before rest : List Char),
        Between source (front ++ before) rest e.position ∧ Malformed e.reason before rest ∧
        tokenize source = ts.map .ok ++ [.error e] ∧
        tokenize (String.ofList front) =
          (ts ++ [Token.endAt (Position.start.after front)]).map .ok := by
  have tiles := tiles_tokenize source
  constructor
  · intro t ht
    obtain ⟨before, rest, text, place, line, last⟩ := tiles.token_slice ht
    have behind := after_eq_past t.position line
    rw [String.ofList_toList, ← Token.endPosition] at behind
    refine ⟨before, rest, ?_, ?_, line, last⟩
    · rw [place]
      exact between_after text
    · rw [← behind, place, ← Position.after_append]
      exact between_after (by rw [text, List.append_assoc])
  · intro e he
    obtain ⟨ts, front, before, rest, text, malformed, place, items, tiles⟩ := tiles.error he
    refine ⟨ts, front, before, rest, ?_, malformed, items, ?_⟩
    · rw [place]
      exact between_after (by rw [text, List.append_assoc])
    · rw [tokenize, Scanner.ofText, String.toList_ofList]
      exact items_of_tiles tiles

/-- The comment in front takes two lines, and three bytes more than it has characters. -/
example : tokenizeAll "(# é\n (# 語 #) #) \"a\\q\"" =
    .error ⟨⟨22, 2, 15⟩, .invalidEscape 'q'⟩ := by cbv

end Quill
