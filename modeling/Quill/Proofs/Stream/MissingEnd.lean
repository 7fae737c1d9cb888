import Quill.Proofs.Grammar.ViablePrefix
import Quill.Proofs.Stream.ErrorPlace

/-!
# Tokens without an end

A list of tokens without an end is parsed as if one stood right behind its last token. So when the
end of a text is left out of its tokens, the same place is reached and the same is said of it
(`Stop.endMoved`): the tree is the same, and so is every error, but an error at the end of the text
moves to the end of the last token.
-/

namespace Quill

variable {settings : Settings}

/-- The place right behind the last of some tokens, or the first place if there are none. -/
def placeBehind (ts : List Token) : Position :=
  ts.getLast?.elim .start Token.endPosition

/-- The same error at another place. -/
def SyntaxError.movedTo (p : Position) : SyntaxError → SyntaxError
  | .lex e => .lex { e with position := p }
  | .parse e => .parse { e with position := p }
  | .nestingTooDeep _ limit => .nestingTooDeep p limit

namespace SyntaxError

/-- An error stays as it is when it is moved to its own place. -/
lemma movedTo_position (e : SyntaxError) : e.movedTo e.position = e := by
  cases e <;> rfl

/-- Of two moves the last one counts. -/
lemma movedTo_movedTo (e : SyntaxError) (p q : Position) :
    (e.movedTo q).movedTo p = e.movedTo p := by
  cases e <;> rfl

/-- An error is at the place where it is moved. -/
lemma position_movedTo (e : SyntaxError) (p : Position) : (e.movedTo p).position = p := by
  cases e <;> rfl

end SyntaxError

/-- A refusal of the end is the same wherever the end is, but for its place. -/
lemma Refusal.error_movedTo (why : Refusal) (limit : Nat) {t u : Token} (same : t.kind = u.kind)
    (ht : t.kind = .endOfInput) :
    why.error limit u = (why.error limit t).movedTo u.position := by
  have words : u.describe = t.describe := by
    rw [Token.describe, Token.describe, ← same, ht]
  cases why with
  | unexpected expected => rw [error, error, SyntaxError.movedTo, words]
  | tooDeep => rfl

/-- A parse that stops at an end stops at any other end as well, with its error moved there. -/
lemma Stop.endMoved {before : List Token} {t u : Token} {answer : Except SyntaxError Block}
    (h : Stop settings before (.ok t) answer) (ht : t.kind = .endOfInput)
    (hu : u.kind = .endOfInput) :
    Stop settings before (.ok u) (answer.mapError (·.movedTo u.position)) := by
  have same : t.kind = u.kind := ht.trans hu.symm
  cases h with
  | @refuse s _ why hw hs =>
    rw [Except.mapError, ← why.error_movedTo settings.maxDepth same ht]
    exact .refuse hw (same ▸ hs)
  | done hw hs => exact .done hw (same ▸ hs)

/-- An error that a parse stops at is at its token. -/
lemma Stop.position_eq {before : List Token} {t : Token} {e : SyntaxError}
    (h : Stop settings before (.ok t) (.error e)) : e.position = t.position := by
  have reports := reports_of_stop h rfl
  cases reports <;> rfl

/-- A parse error says that it is at the end where its token is one. -/
lemma Stop.atEnd_iff {before : List Token} {t : Token} {e : ParseError}
    (h : Stop settings before (.ok t) (.error (.parse e))) :
    e.atEnd = true ↔ t.kind = .endOfInput := by
  generalize hr : (Except.error (.parse e) : Except SyntaxError Block) = answer at h
  cases h with
  | refuse _ _ => exact atEnd_iff_of_error (Except.error.inj hr).symm
  | done _ _ => cases hr

/-- A stream of tokens ends right behind the last of them. -/
lemma endPlace_tokens (ts : List Token) : endPlace (ts.map .ok) = placeBehind ts := by
  rw [endPlace, List.getLast?_map, placeBehind]
  cases ts.getLast? <;> rfl

/-- A parse of tokens stops at one of them, or at the end that they are read with. -/
lemma stop_tokens (settings : Settings) (ts : List Token) :
    Stop settings ts (.ok (.endAt (placeBehind ts))) (parseItems settings (ts.map .ok)) ∨
      ∃ before t rest, ts = before ++ t :: rest ∧
        Stop settings before (.ok t) (parseItems settings (ts.map .ok)) := by
  obtain ⟨before, item, after, stream, stop, -⟩ := exists_stop settings (ts.map .ok)
  rw [withEnd, endPlace_tokens] at stream
  -- Nothing is left behind the item where it stops exactly if that is the end.
  obtain rfl | ⟨after, last, rfl⟩ := after.eq_nil_or_concat
  · obtain ⟨taken, ends⟩ := List.append_inj' stream rfl
    obtain rfl := (List.map_inj_right fun _ _ => Except.ok.inj).1 taken
    cases ends
    exact .inl stop
  · rw [List.concat_eq_append, ← List.cons_append, ← List.append_assoc] at stream
    obtain ⟨inner, -⟩ := List.append_inj' stream rfl
    obtain ⟨front, back, rfl, hfront, hback⟩ := List.map_eq_append_iff.1 inner
    obtain ⟨t, rest, rfl, rfl, -⟩ := List.map_eq_cons_iff.1 hback
    obtain rfl := (List.map_inj_right fun _ _ => Except.ok.inj).1 hfront
    exact .inr ⟨front, t, rest, rfl, stop⟩

/-- An end behind tokens takes part in a parse only where the parse of the tokens alone comes to the
end that they are read with. Otherwise the parse stops at one of the tokens. -/
lemma parse_with_end (settings : Settings) (ts : List Token) (last : Token)
    (hl : last.kind = .endOfInput) :
    (Stop settings ts (.ok (.endAt (placeBehind ts))) (parseItems settings (ts.map .ok)) ∧
      Stop settings ts (.ok last) (parseItems settings ((ts ++ [last]).map .ok)) ∧
      parseItems settings ((ts ++ [last]).map .ok) =
        (parseItems settings (ts.map .ok)).mapError (·.movedTo last.position)) ∨
      ∃ before, ∃ t ∈ ts, Stop settings before (.ok t) (parseItems settings (ts.map .ok)) ∧
        parseItems settings ((ts ++ [last]).map .ok) = parseItems settings (ts.map .ok) := by
  obtain stop | ⟨before, t, rest, rfl, stop⟩ := stop_tokens settings ts
  · have moved := stop.endMoved rfl hl
    have stream : withEnd ((ts ++ [last]).map .ok) =
        ts.map .ok ++ .ok last :: [.ok (.endAt (endPlace ((ts ++ [last]).map .ok)))] := by
      rw [withEnd, List.map_append, List.append_assoc]
      rfl
    have parsed := moved.parseItems stream
    exact .inl ⟨stop, parsed ▸ moved, parsed⟩
  · have stream : withEnd ((before ++ t :: rest ++ [last]).map .ok) =
        before.map .ok ++ .ok t :: (rest.map .ok ++
          [.ok last, .ok (.endAt (endPlace ((before ++ t :: rest ++ [last]).map .ok)))]) := by
      rw [withEnd]
      simp
    exact .inr ⟨before, t, by simp, stop, stop.parseItems stream⟩

/-- The tokens of a text that has no error are others with the end of the text behind them. -/
lemma exists_inner_tokens {source : String} {ts : List Token} (lexed : tokenizeAll source = .ok ts) :
    ∃ inner : List Token, ts = inner ++ [.endAt (Position.start.after source.toList)] ∧
      (∀ t ∈ inner, t.kind ≠ .endOfInput) ∧
      ∀ t ∈ inner, t.position ≠ Position.start.after source.toList := by
  have items := tokenizeAll_eq_ok_iff.1 lexed
  have tiles := tiles_tokenize source
  have ordered := tiles.pairwise
  obtain ⟨inner, last, split, notEnd, ends⟩ := tiles.last
  have all := items.symm.trans split
  obtain rfl | ⟨e, rfl⟩ := ends
  · refine ⟨inner, ?_, notEnd, ?_⟩
    · apply (List.map_inj_right fun _ _ => Except.ok.inj).1
      rw [all, List.map_append]
      rfl
    · intro t ht same
      -- Places go up along the items, so no token stands where the text ends.
      rw [split] at ordered
      have less := (List.pairwise_append.1 ordered).2.2 (.ok t) (List.mem_map_of_mem ht) _
        List.mem_cons_self
      change t.position.offset < (Position.start.after source.toList).offset at less
      rw [same] at less
      exact Nat.lt_irrefl _ less
  · have mem : Except.error e ∈ ts.map (.ok : Token → Item) := by
      rw [all]
      simp
    simp at mem

/-- An end somewhere else than the tokens in front of it can be left out: the errors at that end,
and no others, move to the end of the last token. -/
lemma parse_end_dropped (settings : Settings) {inner : List Token} {bottom : Position}
    (notEnd : ∀ t ∈ inner, t.kind ≠ .endOfInput) (elsewhere : ∀ t ∈ inner, t.position ≠ bottom) :
    let whole := parseItems settings ((inner ++ [Token.endAt bottom]).map .ok)
    (parseItems settings (inner.map .ok) =
      whole.mapError fun e => if e.position = bottom then e.movedTo (placeBehind inner) else e) ∧
    ∀ e, whole = .error (.parse e) → (e.atEnd = true ↔ e.position = bottom) := by
  dsimp only
  obtain ⟨stop, stop', parsed⟩ | ⟨before, t, ht, stop, parsed⟩ :=
    parse_with_end settings inner (.endAt bottom) rfl
  · constructor
    · rw [parsed]
      cases answer : parseItems settings (inner.map .ok) with
      | ok b => rfl
      | error e =>
        rw [answer] at stop
        have here : e.position = placeBehind inner := stop.position_eq
        have there : (e.movedTo bottom).position = bottom := e.position_movedTo bottom
        change _ = Except.error (if (e.movedTo bottom).position = bottom
          then (e.movedTo bottom).movedTo (placeBehind inner) else e.movedTo bottom)
        rw [if_pos there, e.movedTo_movedTo, ← here, e.movedTo_position]
    · intro e failed
      rw [failed] at stop'
      exact iff_of_true (stop'.atEnd_iff.2 rfl) stop'.position_eq
  · rw [parsed]
    constructor
    · cases answer : parseItems settings (inner.map .ok) with
      | ok b => rfl
      | error e =>
        rw [answer] at stop
        have here : e.position ≠ bottom := stop.position_eq ▸ elsewhere t ht
        rw [Except.mapError, if_neg here]
    · intro e failed
      rw [failed] at stop
      have here : e.position = t.position := stop.position_eq
      exact iff_of_false (fun atEnd => notEnd t ht (stop.atEnd_iff.1 atEnd))
        (here ▸ elsewhere t ht)

/-- Tokens are parsed as if an end stood right behind the last of them. So without the end of a
text, its tokens are parsed as the text is, but for an error at the end of the text, which is then
right behind the last token. -/
theorem parse_without_end (settings : Settings) :
    (∀ (ts : List Token) (lexeme : String),
      parseItems settings (ts.map .ok) =
        parseItems settings
          ((ts ++ [(⟨.endOfInput, lexeme, placeBehind ts⟩ : Token)]).map .ok)) ∧
    ∀ source ts, tokenizeAll source = .ok ts →
      let kept := ts.filter fun t => t.kind ≠ .endOfInput
      let bottom := Position.start.after source.toList
      (parseItems settings (kept.map .ok) =
        (parseText settings source).mapError fun e =>
          if e.position = bottom then e.movedTo (placeBehind kept) else e) ∧
      ∀ e, parseText settings source = .error (.parse e) →
        (e.atEnd = true ↔ e.position = bottom) := by
  constructor
  · intro ts lexeme
    let last : Token := ⟨.endOfInput, lexeme, placeBehind ts⟩
    obtain ⟨stop, -, parsed⟩ | ⟨-, -, -, -, parsed⟩ := parse_with_end settings ts last rfl
    · rw [parsed]
      cases answer : parseItems settings (ts.map .ok) with
      | ok b => rfl
      | error e =>
        rw [answer] at stop
        have here : e.position = last.position := stop.position_eq
        rw [Except.mapError, ← here, e.movedTo_position]
    · exact parsed.symm
  · intro source ts lexed
    have text : parseText settings source = parseItems settings (ts.map .ok) := by
      rw [parseText, tokenizeAll_eq_ok_iff.1 lexed]
    obtain ⟨inner, rfl, notEnd, elsewhere⟩ := exists_inner_tokens lexed
    let last : Token := .endAt (Position.start.after source.toList)
    have kept : (inner ++ [last]).filter (fun t => t.kind ≠ .endOfInput) = inner := by
      rw [List.filter_append, List.filter_eq_self.2 (by simpa using notEnd)]
      simp [last, Token.endAt]
    dsimp only
    rw [kept, text]
    exact parse_end_dropped settings notEnd elsewhere

/-- The tokens of a block that is left open, with a blank line behind it. -/
def openBlockTokens : List Token :=
  [⟨.mark .leftBrace, "\x7b", .start⟩, ⟨.word "print", "print", ⟨2, 1, 3⟩⟩,
    ⟨.word "x", "x", ⟨8, 1, 9⟩⟩, ⟨.mark .semicolon, ";", ⟨9, 1, 10⟩⟩, .endAt ⟨12, 3, 1⟩]

/-- Without its end, an open block fails right behind the semicolon, and not two lines below. -/
theorem open_block_without_end :
    tokenizeAll "\x7b print x;\n\n" = .ok openBlockTokens ∧
    parseText {} "\x7b print x;\n\n" =
      .error (.parse ⟨⟨12, 3, 1⟩, ["`\x7d`", "statement"], "end of input"⟩) ∧
    parseItems {} ((openBlockTokens.filter fun t => t.kind ≠ .endOfInput).map .ok) =
      .error (.parse ⟨⟨10, 1, 11⟩, ["`\x7d`", "statement"], "end of input"⟩) := by
  have lexed : tokenizeAll "\x7b print x;\n\n" = .ok openBlockTokens := by decide +kernel
  have whole : parseText {} "\x7b print x;\n\n" =
      .error (.parse ⟨⟨12, 3, 1⟩, ["`\x7d`", "statement"], "end of input"⟩) := by
    rw [parseText, tokenizeAll_eq_ok_iff.1 lexed]
    cbv
  refine ⟨lexed, whole, ?_⟩
  rw [((parse_without_end {}).2 _ _ lexed).1, whole]
  decide

end Quill
