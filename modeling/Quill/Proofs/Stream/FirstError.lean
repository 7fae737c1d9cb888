import Quill.Proofs.Lexical.Exactness
import Quill.Proofs.Stream.Stopping

/-!
# The first error

A parse reports the item it stops at, and no item behind that one can change its answer. For a text
this says that an error among its characters is reported, unless the parse has stopped at a token in
front of it, and then the text from the error on does not matter.
-/

namespace Quill

variable {settings : Settings}

/-- The error is the item itself, or stands at the token that the item is. -/
inductive Reports (limit : Nat) : Item → SyntaxError → Prop where
  | lex {e} : Reports limit (.error e) (.lex e)
  | parse {t expected} : Reports limit (.ok t) (.parse ⟨t.position, expected, t.describe⟩)
  | nesting {t} : Reports limit (.ok t) (.nestingTooDeep t.position limit)

/-- A refusal is reported at the token that is refused. -/
lemma reports_refusal (limit : Nat) (t : Token) (why : Refusal) :
    Reports limit (.ok t) (why.error limit t) := by
  cases why with
  | unexpected expected => exact .parse
  | tooDeep => exact .nesting

/-- A parse that fails reports the item it stops at. -/
lemma reports_of_stop {before : List Token} {item : Item} {answer : Except SyntaxError Block}
    {error : SyntaxError} (h : Stop settings before item answer) (failed : answer = .error error) :
    Reports settings.maxDepth item error := by
  cases h with
  | error _ =>
    cases failed
    exact .lex
  | refuse _ _ =>
    cases failed
    exact reports_refusal _ _ _
  | done _ _ => cases failed

/-- A parse that succeeds stops at the end of the input. -/
lemma end_of_stop {before : List Token} {item : Item} {answer : Except SyntaxError Block}
    {b : Block} (h : Stop settings before item answer) (succeeded : answer = .ok b) :
    ∃ t, item = .ok t ∧ t.kind = .endOfInput := by
  cases h with
  | error _ => cases succeeded
  | refuse _ _ => cases succeeded
  | @done s t b _ hs => exact ⟨t, rfl, (closed_of_step_done hs).1⟩

/-- A stop at an error gives that error. -/
lemma error_of_stop {before : List Token} {e : LexError} {answer : Except SyntaxError Block}
    (h : Stop settings before (.error e) answer) : answer = .error (.lex e) := by
  cases h
  rfl

/-- Among tokens with an error behind them, an item is that error or one of the tokens. -/
lemma split_before_error {before ts : List Token} {item : Item} {after more : List Item}
    {e : LexError} (split : before.map .ok ++ item :: after = ts.map .ok ++ .error e :: more) :
    item = .error e ∨ ∃ t rest, item = .ok t ∧ ts = before ++ t :: rest := by
  induction before generalizing ts with
  | nil =>
    cases ts with
    | nil => exact .inl (List.cons.inj split).1
    | cons t ts => exact .inr ⟨t, ts, (List.cons.inj split).1, rfl⟩
  | cons u before ih =>
    cases ts with
    | nil => cases (List.cons.inj split).1
    | cons t ts =>
      obtain ⟨same, tail⟩ := List.cons.inj split
      cases same
      obtain error | ⟨t, rest, ht, hts⟩ := ih tail
      · exact .inl error
      · exact .inr ⟨t, rest, ht, by rw [hts, List.cons_append]⟩

/-- No token in front of an error is the end of the input. -/
lemma kind_ne_of_tokenize {source : String} {ts : List Token} {e : LexError}
    (items : tokenize source = ts.map .ok ++ [.error e]) : ∀ t ∈ ts, t.kind ≠ .endOfInput := by
  obtain ⟨ts', last, items', inner, _⟩ := (tiles_tokenize source).last
  rw [items] at items'
  have same := (List.map_inj_right fun _ _ => Except.ok.inj).1 (List.append_inj' items' rfl).1
  rw [same]
  exact inner

/-- A text with an error among its characters has that error, or one at a token in front of it that
any text with the same tokens there has too. -/
lemma parseText_of_error {source : String} {ts : List Token} {e : LexError}
    (items : tokenize source = ts.map .ok ++ [.error e]) :
    parseText settings source = .error (.lex e) ∨
      ∃ error, parseText settings source = .error error ∧ (∀ e', error ≠ .lex e') ∧
        error.position.offset < e.position.offset ∧
        ∀ source', ts.map .ok <+: tokenize source' → parseText settings source' = .error error := by
  obtain ⟨before, item, after, stream, stop, _⟩ := exists_stop settings (tokenize source)
  have split : before.map .ok ++ item :: after =
      ts.map .ok ++ .error e :: [.ok (.endAt (endPlace (tokenize source)))] := by
    rw [← stream, withEnd, items, List.append_assoc]
    rfl
  obtain rfl | ⟨t, rest, rfl, rfl⟩ := split_before_error split
  · exact .inl (error_of_stop stop)
  · right
    have place : t.position.offset < e.position.offset := by
      have ordered := (tiles_tokenize source).pairwise
      rw [items] at ordered
      exact (List.pairwise_append.1 ordered).2.2 (.ok t) (by simp) _ List.mem_cons_self
    cases parsed : parseText settings source with
    | ok b =>
      -- A program ends at an end, which is never in front of an error.
      obtain ⟨u, hu, hk⟩ := end_of_stop stop parsed
      cases hu
      exact absurd hk (kind_ne_of_tokenize items t (by simp))
    | error error =>
      have reports := reports_of_stop stop parsed
      refine ⟨error, rfl, ?_, ?_, ?_⟩
      · rintro e' rfl
        cases reports
      · cases reports with
        | parse => exact place
        | nesting => exact place
      · rintro source' ⟨more, same⟩
        have stream' : withEnd (tokenize source') = before.map .ok ++ .ok t ::
            (rest.map .ok ++ (more ++ [.ok (.endAt (endPlace (tokenize source')))])) := by
          rw [withEnd, ← same]
          simp
        exact (stop.parseItems stream').trans parsed

/-- A parse that fails reports the last item it has pulled, a parse that succeeds has pulled the
items up to the first end, and whatever comes behind the last item that was pulled, the answer is
the same. So a text with an error among its characters has that error, or one at a token in front of
it that the text from there on does not change. -/
theorem parse_first_error (settings : Settings) :
    (∀ items, ∃ (before : List Token) (item : Item) (after : List Item),
      withEnd items = before.map .ok ++ item :: after ∧
      unpulled settings items = after.dropLast ∧
      (∀ t ∈ before, t.kind ≠ .endOfInput) ∧
      (∀ error, parseItems settings items = .error error →
        Reports settings.maxDepth item error) ∧
      (∀ b, parseItems settings items = .ok b → ∃ t, item = .ok t ∧ t.kind = .endOfInput) ∧
      ∀ items' after', withEnd items' = before.map .ok ++ item :: after' →
        parseItems settings items' = parseItems settings items) ∧
    ∀ source e, tokenizeAll source = .error e →
      ∃ ts : List Token, tokenize source = ts.map .ok ++ [.error e] ∧
        (parseText settings source = .error (.lex e) ∨
          ∃ error, parseText settings source = .error error ∧ (∀ e', error ≠ .lex e') ∧
            error.position.offset < e.position.offset ∧
            ∀ source', ts.map .ok <+: tokenize source' →
              parseText settings source' = .error error) := by
  constructor
  · intro items
    obtain ⟨before, item, after, stream, stop, unread⟩ := exists_stop settings items
    exact ⟨before, item, after, stream, unread, stop.kind_ne_endOfInput,
      fun _ => reports_of_stop stop, fun _ => end_of_stop stop,
      fun _ _ stream' => stop.parseItems stream'⟩
  · intro source e failed
    obtain ⟨ts, items⟩ := tokenizeAll_eq_error_iff.1 failed
    exact ⟨ts, items, parseText_of_error items⟩

/-- The semicolon is reported, and the string that never ends is not. -/
example : parseText {} "\x7b ; \"" =
    .error (.parse ⟨⟨2, 1, 3⟩, ["`\x7d`", "statement"], "`;`"⟩) := by cbv

end Quill
