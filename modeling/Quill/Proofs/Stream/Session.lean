import Quill.Proofs.Grammar.Levels
import Quill.Proofs.Stream.Reading

/-!
# A parser that is asked again

A parser can be asked for one construct after another, whatever came of the calls before. Here a
call is taken apart into its moments. Between two of them the run passes over one token (`Passes`),
and at the last one it gives its answer (`Ends`).

At every moment the parser has a window on its stream: the tokens it has passed over, the
look-ahead, and what is not pulled yet make up the stream, and the errors among the items it has
pulled are those it has reported (`Window`). A pass keeps the window (`Passes.window`), and so does
the end of a call (`Ends.window`). The levels that are open never exceed the limit
(`Passes.depth_le`).
-/

namespace Quill

variable {g : Goal} {settings : Settings}

/-! ## Moments of a call -/

/-- A moment of a run: its state, the look-ahead, and the items that are not pulled yet. -/
structure Moment (g : Goal) where
  state : State g
  token : Token
  unread : List Item

/-- The moment at which a parser is asked for a construct. -/
def Parser.moment (p : Parser) (g : Goal) : Moment g :=
  ⟨State.initial g, p.token, p.unread⟩

/-- From the one moment to the other, the run passes over the tokens. Where the stream is dry, the
look-ahead behind a token is the end at that token's end. -/
inductive Passes (settings : Settings) : Moment g → List Token → Moment g → Prop where
  | here {m} : Passes settings m [] m
  | pull {s next t u items ts m} :
    step settings s t.kind = .shift next →
    Passes settings ⟨next, u, items⟩ ts m →
    Passes settings ⟨s, t, .ok u :: items⟩ (t :: ts) m
  | supply {s next t ts m} :
    step settings s t.kind = .shift next →
    Passes settings ⟨next, .endAt t.endPosition, []⟩ ts m →
    Passes settings ⟨s, t, []⟩ (t :: ts) m

/-- The answer that a run gives at its last moment, and the parser it leaves. A construct that is
finished, or a token that is refused, leaves the look-ahead where it is. So does an error that is
pulled in its place, but that item is gone. -/
inductive Ends (settings : Settings) : Moment g → Except SyntaxError g.Result → Parser → Prop where
  | done {s t items r} :
    step settings s t.kind = .done r →
    Ends settings ⟨s, t, items⟩ (.ok r) ⟨settings, t, items⟩
  | unexpected {s t items expected} :
    step settings s t.kind = .refuse (.unexpected expected) →
    Ends settings ⟨s, t, items⟩
      (.error (.parse ⟨t.position, expected.map Expectation.text, t.describe⟩)) ⟨settings, t, items⟩
  | tooDeep {s t items} :
    settings.maxDepth ≤ s.depth →
    Ends settings ⟨s, t, items⟩ (.error (.nestingTooDeep t.position settings.maxDepth))
      ⟨settings, t, items⟩
  | lex {s next t e items} :
    step settings s t.kind = .shift next →
    Ends settings ⟨s, t, .error e :: items⟩ (.error (.lex e)) ⟨settings, t, items⟩

/-- A token that is refused ends the run. -/
lemma ends_of_refuse {s : State g} {t : Token} {why : Refusal} (items : List Item)
    (h : step settings s t.kind = .refuse why) :
    Ends settings ⟨s, t, items⟩ (.error (why.error settings.maxDepth t)) ⟨settings, t, items⟩ := by
  cases why with
  | unexpected expected => exact .unexpected h
  | tooDeep => exact .tooDeep (le_depth_of_tooDeep h)

/-- Every run passes over some tokens and ends. -/
lemma exists_ends (settings : Settings) (s : State g) (t : Token) (items : List Item) :
    ∃ ts m, Passes settings ⟨s, t, items⟩ ts m ∧
      Ends settings m (run settings s t items).1
        ⟨settings, (run settings s t items).2.1, (run settings s t items).2.2⟩ := by
  induction s, t, items using run.induct settings with
  | case1 s t items r h =>
    rw [run_of_done items h]
    exact ⟨[], _, .here, .done h⟩
  | case2 s t items why h =>
    rw [run_of_refuse items h]
    exact ⟨[], _, .here, ends_of_refuse items h⟩
  | case3 s t next h u rest ih =>
    rw [run_of_pull u rest h]
    obtain ⟨ts, m, passes, ends⟩ := ih
    exact ⟨t :: ts, m, .pull h passes, ends⟩
  | case4 s t next h e rest =>
    rw [run_of_error e rest h]
    exact ⟨[], _, .here, .lex h⟩
  | case5 s t next h _ ih =>
    rw [run_of_dry h]
    obtain ⟨ts, m, passes, ends⟩ := ih
    exact ⟨t :: ts, m, .supply h passes, ends⟩

/-- A run that begins within the limit stays within it. -/
lemma Passes.depth_le {m m' : Moment g} {ts : List Token} (h : Passes settings m ts m')
    (hm : m.state.depth ≤ settings.maxDepth) : m'.state.depth ≤ settings.maxDepth := by
  induction h with
  | here => exact hm
  | pull hs _ ih => exact ih (depth_of_shift hs hm)
  | supply hs _ ih => exact ih (depth_of_shift hs hm)

/-! ## The window on the stream -/

/-- The tokens among the items. -/
def tokensOf (items : List Item) : List Token :=
  items.filterMap Except.toOption

/-- The lexical error that an item or an answer is, in a list. -/
def lexErrorOf {α : Type} : Except SyntaxError α → List LexError
  | .error (.lex e) => [e]
  | _ => []

/-- The errors among the items. -/
def errorsOf (items : List Item) : List LexError :=
  items.flatMap fun
    | .error e => [e]
    | .ok _ => []

/-- The end that a stream is given when it runs dry: right behind its last token, or at the start if
it has none. -/
def suppliedEnd (items : List Item) : Token :=
  .endAt (((tokensOf items).getLast?.map Token.endPosition).getD .start)

/-- What a parser has seen of its stream. Either the items it has pulled have the tokens that it has
passed over, then the look-ahead, and the errors that it has reported, and the other items are not
pulled yet. Or the stream has run dry: it has passed over all tokens and reported all errors, and
the look-ahead is the end it was given. -/
inductive Window (items : List Item) : List Token → List LexError → Token → List Item → Prop where
  | inside {pulled unread passed t} :
    items = pulled ++ unread →
    tokensOf pulled = passed ++ [t] →
    Window items passed (errorsOf pulled) t unread
  | dry : Window items (tokensOf items) (errorsOf items) (suppliedEnd items) []

/-- The tokens of two streams are those of the one and those of the other. -/
lemma tokensOf_append (items items' : List Item) :
    tokensOf (items ++ items') = tokensOf items ++ tokensOf items' :=
  List.filterMap_append

/-- The errors of two streams are those of the one and those of the other. -/
lemma errorsOf_append (items items' : List Item) :
    errorsOf (items ++ items') = errorsOf items ++ errorsOf items' :=
  List.flatMap_append

section

variable {items : List Item} {passed : List Token} {reported : List LexError} {t : Token}

/-- Pulling a token passes over the look-ahead. -/
lemma Window.pull {u : Token} {rest : List Item}
    (h : Window items passed reported t (.ok u :: rest)) :
    Window items (passed ++ [t]) reported u rest := by
  cases h with
  | @inside pulled _ _ _ split tokens =>
    have errors : errorsOf pulled = errorsOf (pulled ++ [.ok u]) := by
      rw [errorsOf_append]
      exact (List.append_nil _).symm
    rw [errors]
    apply Window.inside
    · rw [split, List.append_assoc, List.singleton_append]
    · rw [tokensOf_append, tokens]
      rfl

/-- A dry stream is given one end: behind an end there is no other. -/
lemma Window.supply (h : Window items passed reported t []) (inner : t.kind ≠ .endOfInput) :
    Window items (passed ++ [t]) reported (.endAt t.endPosition) [] := by
  cases h with
  | @inside pulled _ _ _ split tokens =>
    rw [List.append_nil] at split
    subst split
    have last : suppliedEnd items = .endAt t.endPosition := by
      simp [suppliedEnd, tokens]
    rw [← tokens, ← last]
    exact .dry
  | dry => exact absurd rfl inner

/-- An error that is pulled is behind all that were reported. -/
lemma Window.report {e : LexError} {rest : List Item}
    (h : Window items passed reported t (.error e :: rest)) :
    Window items passed (reported ++ [e]) t rest := by
  cases h with
  | @inside pulled _ _ _ split tokens =>
    have errors : errorsOf pulled ++ [e] = errorsOf (pulled ++ [.error e]) := by
      rw [errorsOf_append]
      rfl
    rw [errors]
    apply Window.inside
    · rw [split, List.append_assoc, List.singleton_append]
    · rw [tokensOf_append, tokens]
      exact List.append_nil _

/-- A run keeps the window. -/
lemma Passes.window {m m' : Moment g} {ts : List Token} (h : Passes settings m ts m')
    (hw : Window items passed reported m.token m.unread) :
    Window items (passed ++ ts) reported m'.token m'.unread := by
  induction h generalizing passed with
  | here =>
    rw [List.append_nil]
    exact hw
  | pull _ _ ih =>
    rw [List.append_cons]
    exact ih hw.pull
  | @supply s next t _ _ hs _ ih =>
    have inner : t.kind ≠ .endOfInput := by
      intro hk
      exact step_endOfInput settings s next (hk ▸ hs)
    rw [List.append_cons]
    exact ih (hw.supply inner)

/-- The end of a run keeps the window, and an error that is pulled is reported. -/
lemma Ends.window {m : Moment g} {answer : Except SyntaxError g.Result} {q : Parser}
    (h : Ends settings m answer q) (hw : Window items passed reported m.token m.unread) :
    Window items passed (reported ++ lexErrorOf answer) q.token q.unread := by
  cases h with
  | done _ => simpa [lexErrorOf] using hw
  | unexpected _ => simpa [lexErrorOf] using hw
  | tooDeep _ => simpa [lexErrorOf] using hw
  | lex _ => exact hw.report

end

/-! ## A series of calls -/

/-- A parser of a stream after any calls, with the tokens that they have passed over and the errors
that they have reported. -/
inductive Session (settings : Settings) (items : List Item) :
    List Token → List LexError → Parser → Prop where
  | start {p} :
    Parser.start settings items = .ok p →
    Session settings items [] [] p
  | call {passed reported p} (g : Goal) {ts m} :
    Session settings items passed reported p →
    Passes settings (p.moment g) ts m →
    Ends settings m (p.parse g).1 (p.parse g).2 →
    Session settings items (passed ++ ts) (reported ++ lexErrorOf (p.parse g).1) (p.parse g).2

variable {items : List Item} {passed : List Token} {reported : List LexError} {p : Parser}

/-- A parser keeps the settings that it was given. -/
lemma Session.settings_eq (h : Session settings items passed reported p) :
    p.settings = settings := by
  induction h with
  | start started =>
    unfold Parser.start at started
    split at started <;> cases started <;> rfl
  | call g _ _ _ ih => exact ih

/-- A parser that is made looks at the first token, or at the end of a stream without items. -/
lemma window_start (started : Parser.start settings items = .ok p) :
    Window items [] [] p.token p.unread := by
  unfold Parser.start at started
  split at started
  · rename_i t rest
    cases started
    have split : Except.ok t :: rest = [.ok t] ++ rest := rfl
    exact .inside split rfl
  · cases started
  · cases started
    exact .dry

/-- After any calls, a parser has a window on its stream. -/
lemma Session.window (h : Session settings items passed reported p) :
    Window items passed reported p.token p.unread := by
  induction h with
  | start started => exact window_start started
  | call g _ passes ends ih => exact ends.window (passes.window ih)

/-- No construct is open when a parser is asked for one. -/
lemma depth_moment (p : Parser) (g : Goal) : (p.moment g).state.depth = 0 := by
  cases g <;> rfl

/-- Every call ends. -/
lemma Session.exists_ends (h : Session settings items passed reported p) (g : Goal) :
    ∃ ts m, Passes settings (p.moment g) ts m ∧ Ends settings m (p.parse g).1 (p.parse g).2 := by
  obtain rfl := h.settings_eq
  exact Quill.exists_ends p.settings (State.initial g) p.token p.unread

end Quill
