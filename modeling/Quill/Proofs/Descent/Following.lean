import Quill.Grammar.Descent
import Quill.Proofs.Stream.Progress

/-!
# Following the machine

The functions of the recursive descent do what the machine does. A part of a call follows the
machine from a stage on (`Follows`) if it comes to an end wherever the machine gives an answer from
there. Either it fails with this answer, or it finds something, and the machine gives its answer
from the stage that has it in hand. In any case the counter is where it was, and it never went above
the limit (`CountingParser.Keeps`).

There is one rule for each way to put parts together. What the machine still has to do is counted in
turns, and each of its turns leaves fewer of them, so a function may call itself wherever the
machine has taken a turn.
-/

namespace Quill

variable {g : Goal} {settings : Settings}

/-! ## What the machine answers -/

/-- From there the machine gives the answer after `n` turns, and leaves the parser. -/
def Answers (settings : Settings) (n : Nat) (c : Control g)
    (answer : Except SyntaxError g.Result) (q : Parser) : Prop :=
  ∃ ts c', Goes settings c n ts c' ∧ Halts settings c' answer q

namespace Answers

variable {n : Nat} {a : Stage g} {t : Token} {items : List Item}
  {answer : Except SyntaxError g.Result} {q : Parser}

/-- The rule that is called gives the answer in fewer turns. -/
lemma of_call {b : Stage g} (h : Answers settings n ⟨a, t, items⟩ answer q)
    (ht : a.turn settings t.kind = .inl b) :
    ∃ n' < n, Answers settings n' ⟨b, t, items⟩ answer q := by
  obtain ⟨ts, c, goes, halts⟩ := h
  cases goes with
  | here => cases halts <;> simp_all
  | @call _ b' _ _ n' _ _ hb goes =>
    obtain rfl : b' = b := by simpa [hb] using ht
    exact ⟨n', Nat.lt_succ_self n', ts, c, goes, halts⟩
  | pull hs _ => simp [ht] at hs
  | supply hs _ => simp [ht] at hs

/-- Behind a token that is passed over, the answer takes fewer turns. -/
lemma of_pull {next : State g} {u : Token}
    (h : Answers settings n ⟨a, t, .ok u :: items⟩ answer q)
    (ht : a.turn settings t.kind = .inr (.shift next)) :
    ∃ n' < n, Answers settings n' ⟨.state next, u, items⟩ answer q := by
  obtain ⟨ts, c, goes, halts⟩ := h
  cases goes with
  | here => cases halts <;> simp_all
  | call hb _ => simp [ht] at hb
  | @pull _ next' _ _ _ n' ts' _ hs goes =>
    obtain rfl : next' = next := by simpa [hs] using ht
    exact ⟨n', Nat.lt_succ_self n', ts', c, goes, halts⟩

/-- So it does where the stream is dry. -/
lemma of_supply {next : State g} (h : Answers settings n ⟨a, t, []⟩ answer q)
    (ht : a.turn settings t.kind = .inr (.shift next)) :
    ∃ n' < n, Answers settings n' ⟨.state next, .endAt t.endPosition, []⟩ answer q := by
  obtain ⟨ts, c, goes, halts⟩ := h
  cases goes with
  | here => cases halts <;> simp_all
  | call hb _ => simp [ht] at hb
  | @supply _ next' _ n' ts' _ hs goes =>
    obtain rfl : next' = next := by simpa [hs] using ht
    exact ⟨n', Nat.lt_succ_self n', ts', c, goes, halts⟩

/-- An error that is pulled is the answer. -/
lemma of_lex {next : State g} {e : LexError}
    (h : Answers settings n ⟨a, t, .error e :: items⟩ answer q)
    (ht : a.turn settings t.kind = .inr (.shift next)) :
    answer = .error (.lex e) ∧ q = ⟨settings, t, items⟩ := by
  obtain ⟨ts, c, goes, halts⟩ := h
  cases goes with
  | here => cases halts <;> simp_all
  | call hb _ => simp [ht] at hb

/-- A token that is refused is the answer. -/
lemma of_refuse {why : Refusal} (h : Answers settings n ⟨a, t, items⟩ answer q)
    (ht : a.turn settings t.kind = .inr (.refuse why)) :
    answer = .error (why.error settings.maxDepth t) ∧ q = ⟨settings, t, items⟩ := by
  obtain ⟨ts, c, goes, halts⟩ := h
  cases goes with
  | here => cases halts <;> simp_all
  | call hb _ => simp [ht] at hb
  | pull hs _ => simp [ht] at hs
  | supply hs _ => simp [ht] at hs

/-- What is finished is the answer. -/
lemma of_done {r : g.Result} (h : Answers settings n ⟨a, t, items⟩ answer q)
    (ht : a.turn settings t.kind = .inr (.done r)) :
    answer = .ok r ∧ q = ⟨settings, t, items⟩ := by
  obtain ⟨ts, c, goes, halts⟩ := h
  cases goes with
  | here => cases halts <;> simp_all
  | call hb _ => simp [ht] at hb
  | pull hs _ => simp [ht] at hs
  | supply hs _ => simp [ht] at hs

end Answers

/-! ## Parts of a call -/

namespace Descent

variable {α β : Type} {f : Descent α} {k : α → Descent β} {p q : CountingParser}

/-- What is found is handed on with the parser that is left. -/
lemma outcome_bind_of_ok {v : α} (h : f.outcome p = some (.ok v, q)) :
    (f >>= k).outcome p = (k v).outcome q := by
  change (f.outcome p).bind _ = _
  rw [h]
  rfl

/-- A failure is handed on as it is. -/
lemma outcome_bind_of_error {e : SyntaxError} (h : f.outcome p = some (.error e, q)) :
    (f >>= k).outcome p = some (.error e, q) := by
  change (f.outcome p).bind _ = _
  rw [h]
  rfl

/-- Only the outcome matters to what comes behind. -/
lemma outcome_bind_congr {f' : Descent α} (same : f.outcome p = f'.outcome p) :
    (f >>= k).outcome p = (f' >>= k).outcome p := by
  change (f.outcome p).bind _ = (f'.outcome p).bind _
  rw [same]

/-- What comes behind a look has the kind of the token. -/
lemma outcome_look {k : Kind → Descent β} : (look >>= k).outcome p = (k p.token.kind).outcome p :=
  rfl

/-- A mark that is there is passed over. -/
lemma outcome_consumeMark_of_eq {m : Mark} {k : Token → Descent β} (h : p.token.kind = .mark m) :
    (consumeMark m >>= k).outcome p = (advance >>= k).outcome p := by
  apply outcome_bind_congr
  change (ite (p.token.kind = .mark m) _ _ : Descent Token) p = _
  rw [if_pos h]
  rfl

/-- Anything else is refused in its place. -/
lemma outcome_consumeMark_of_ne {m : Mark} {k : Token → Descent β} (h : p.token.kind ≠ .mark m) :
    (consumeMark m >>= k).outcome p = (refuse (α := β) (.unexpected [.mark m])).outcome p := by
  apply outcome_bind_of_error
  change (ite (p.token.kind = .mark m) _ _ : Descent Token) p = _
  rw [if_neg h]
  rfl

/-- A name that is there is passed over. -/
lemma outcome_consumeName_of_some {what : Expectation} {k : String → Descent β} {name : String}
    (h : p.token.kind.name? = some name) :
    (consumeName what >>= k).outcome p = (advance >>= fun _ => k name).outcome p := by
  rw [consumeName, bind_assoc, outcome_look, h, bind_assoc]
  rfl

/-- Anything else is refused in its place. -/
lemma outcome_consumeName_of_none {what : Expectation} {k : String → Descent β}
    (h : p.token.kind.name? = none) :
    (consumeName what >>= k).outcome p = (refuse (α := β) (.unexpected [what])).outcome p := by
  rw [consumeName, bind_assoc, outcome_look, h]
  rfl

/-- A token that is wanted is passed over. -/
lemma outcome_takeIf_of_true {wanted : Kind → Bool} {k : Bool → Descent β}
    (h : wanted p.token.kind = true) :
    (takeIf wanted >>= k).outcome p = (advance >>= fun _ => k true).outcome p := by
  rw [takeIf, bind_assoc]
  change (Descent.outcome ((ite (wanted p.token.kind = true) _ _) >>= k) p) = _
  simp only [if_pos h, bind_assoc, pure_bind]

/-- Any other stays. -/
lemma outcome_takeIf_of_false {wanted : Kind → Bool} {k : Bool → Descent β}
    (h : ¬ wanted p.token.kind = true) :
    (takeIf wanted >>= k).outcome p = (k false).outcome p := by
  rw [takeIf, bind_assoc]
  change (Descent.outcome ((ite (wanted p.token.kind = true) _ _) >>= k) p) = _
  rw [if_neg h, pure_bind]

/-- At the limit nothing is opened. -/
lemma outcome_nested_full (full : p.settings.maxDepth ≤ p.depth) :
    (nested f).outcome p =
      some (.error (.nestingTooDeep p.token.position p.settings.maxDepth), p) := by
  change (ite (p.settings.maxDepth ≤ p.depth) _ _ : StateT CountingParser Option _) p = _
  rw [if_pos full]
  rfl

/-- Below the limit the counter goes up, and down again whatever comes of it. -/
lemma outcome_nested_open (room : p.depth < p.settings.maxDepth) {answer : Except SyntaxError α}
    (h : f.outcome (p.setDepth (p.depth + 1)) = some (answer, q)) :
    (nested f).outcome p = some (answer, q.setDepth (q.depth - 1)) := by
  change (ite (p.settings.maxDepth ≤ p.depth) _ _ : StateT CountingParser Option _) p = _
  rw [if_neg (Nat.not_le_of_lt room)]
  change (f.outcome (p.setDepth (p.depth + 1))).bind _ = _
  rw [h]
  rfl

/-- In front of another token than the end, a token that follows is looked at next. -/
lemma outcome_advance_pull (inner : p.token.kind ≠ .endOfInput) {u : Token} {rest : List Item}
    (h : p.unread = .ok u :: rest) :
    advance.outcome p = some (.ok p.token, { p with token := u, unread := rest }) := by
  change (ite (p.token.kind = .endOfInput) _ _ : Descent Token) p = _
  rw [if_neg inner, h]
  rfl

/-- An error that follows is the failure. -/
lemma outcome_advance_lex (inner : p.token.kind ≠ .endOfInput) {e : LexError} {rest : List Item}
    (h : p.unread = .error e :: rest) :
    advance.outcome p = some (.error (.lex e), { p with unread := rest }) := by
  change (ite (p.token.kind = .endOfInput) _ _ : Descent Token) p = _
  rw [if_neg inner, h]
  rfl

/-- Where nothing follows, an end does. -/
lemma outcome_advance_supply (inner : p.token.kind ≠ .endOfInput) (h : p.unread = []) :
    advance.outcome p = some (.ok p.token, { p with token := .endAt p.token.endPosition }) := by
  change (ite (p.token.kind = .endOfInput) _ _ : Descent Token) p = _
  rw [if_neg inner, h]
  rfl

end Descent

/-! ## Following the machine -/

/-- What a part of a call keeps: the settings, and the counter, however far up it went in between.
It never went above the limit. -/
structure CountingParser.Keeps (p q : CountingParser) : Prop where
  settings : q.settings = p.settings
  depth : q.depth = p.depth
  noted : ∃ levels, q.noted = levels ++ p.noted ∧ ∀ level ∈ levels, level ≤ p.settings.maxDepth

namespace CountingParser.Keeps

variable {p q r : CountingParser}

/-- Nothing that happens keeps all. -/
lemma refl (p : CountingParser) : p.Keeps p :=
  ⟨rfl, rfl, [], rfl, nofun⟩

/-- What two parts keep, both keep together. -/
lemma trans (h : p.Keeps q) (h' : q.Keeps r) : p.Keeps r := by
  obtain ⟨settings, depth, levels, noted, within⟩ := h
  obtain ⟨settings', depth', levels', noted', within'⟩ := h'
  rw [settings] at within'
  refine ⟨settings'.trans settings, depth'.trans depth, levels' ++ levels, ?_, ?_⟩
  · rw [noted', noted, List.append_assoc]
  · exact List.forall_mem_append.2 ⟨within', within⟩

/-- The counter that goes up below the limit and down again is kept. -/
lemma nested (room : p.depth < p.settings.maxDepth) (h : (p.setDepth (p.depth + 1)).Keeps q) :
    p.Keeps (q.setDepth (q.depth - 1)) := by
  obtain ⟨settings, depth, levels, noted, within⟩ := h
  refine ⟨settings, ?_, (q.depth - 1) :: levels ++ [p.depth + 1], ?_, ?_⟩
  · change q.depth - 1 = p.depth
    rw [depth]
    rfl
  · change (q.depth - 1) :: q.noted = _
    rw [noted]
    simp [setDepth]
  · simp only [List.cons_append, List.forall_mem_cons, List.forall_mem_append]
    refine ⟨?_, within, room, nofun⟩
    rw [depth]
    exact Nat.le_of_lt room

end CountingParser.Keeps

section

variable {α β : Type} {n n' : Nat} {p p' : CountingParser} {f : Descent α} {k : α → Descent β}
  {a b : Stage g} {mid : α → Stage g} {found : β → Stage g}
  {answer : Except SyntaxError g.Result} {q : Parser}

/-- The part of a call comes to an end and keeps the counter. Either it fails with the answer and
leaves the parser, or it finds something, and the machine gives the answer within `n` turns from the
stage that has this in hand. -/
def Agrees (n : Nat) (p : CountingParser) (f : Descent β) (found : β → Stage g)
    (answer : Except SyntaxError g.Result) (q : Parser) : Prop :=
  ∃ result p', f.outcome p = some (result, p') ∧ p.Keeps p' ∧
    match result with
    | .error e => answer = .error e ∧ q = p'.toParser
    | .ok v => ∃ n' ≤ n, Answers p.settings n' ⟨found v, p'.token, p'.unread⟩ answer q

/-- A part that goes on as another one does agrees if the other does. -/
lemma Agrees.of_behind {f : Descent β} {f' : Descent β} (h : Agrees n' p' f' found answer q)
    (same : f.outcome p = f'.outcome p') (keeps : p.Keeps p') (less : n' ≤ n) :
    Agrees n p f found answer q := by
  obtain ⟨result, p'', outcome, keeps', rest⟩ := h
  rw [keeps.settings] at rest
  refine ⟨result, p'', same.trans outcome, keeps.trans keeps', ?_⟩
  cases result with
  | error e => exact rest
  | ok w =>
    obtain ⟨n'', less', answers⟩ := rest
    exact ⟨n'', Nat.le_trans less' less, answers⟩

/-- The part of a call follows the machine from the stage `a` on: it agrees with every answer that
the machine gives from there in `n` turns. -/
def Follows (n : Nat) (p : CountingParser) (f : Descent β) (a : Stage g) (found : β → Stage g) :
    Prop :=
  ∀ answer q, Answers p.settings n ⟨a, p.token, p.unread⟩ answer q → Agrees n p f found answer q

/-- Parts with the same outcome follow alike. -/
lemma Follows.congr {f f' : Descent β} (h : Follows n p f' a found)
    (same : f.outcome p = f'.outcome p) : Follows n p f a found :=
  fun answer q answers => (h answer q answers).of_behind same (.refl p) (Nat.le_refl n)

/-- What comes behind follows from the stage that has in hand what was found. -/
lemma Follows.bind (hf : Follows n p f a mid)
    (hk : ∀ v p', p.Keeps p' → ∀ n' ≤ n, Follows n' p' (k v) (mid v) found) :
    Follows n p (f >>= k) a found := by
  intro answer q answers
  obtain ⟨result, p', outcome, keeps, rest⟩ := hf answer q answers
  cases result with
  | error e => exact ⟨.error e, p', Descent.outcome_bind_of_error outcome, keeps, rest⟩
  | ok v =>
    obtain ⟨n', less, answers'⟩ := rest
    rw [← keeps.settings] at answers'
    exact (hk v p' keeps n' less answer q answers').of_behind
      (Descent.outcome_bind_of_ok outcome) keeps less

/-- What is in hand is found. -/
lemma follows_pure {v : β} (h : found v = a) : Follows n p (pure v) a found := by
  subst h
  exact fun _ _ answers => ⟨.ok v, p, rfl, .refl p, n, Nat.le_refl n, answers⟩

/-- A call of the machine takes a turn. -/
lemma follows_turn {f : Descent β} (ht : a.turn p.settings p.token.kind = .inl b)
    (h : ∀ n' < n, Follows n' p f b found) : Follows n p f a found := by
  intro answer q answers
  obtain ⟨n', less, answers'⟩ := answers.of_call ht
  exact (h n' less answer q answers').of_behind rfl (.refl p) (Nat.le_of_lt less)

/-- Where the machine refuses the token, so does the part. -/
lemma follows_refuse {why : Refusal} (ht : a.turn p.settings p.token.kind = .inr (.refuse why)) :
    Follows n p (Descent.refuse why) a found := by
  intro answer q answers
  obtain ⟨failed, left⟩ := answers.of_refuse ht
  exact ⟨.error (why.error p.settings.maxDepth p.token), p, rfl, .refl p, failed, left⟩

/-- Where the machine takes the token, the part passes over it. -/
lemma follows_advance {k : Token → Descent β} (next : State g)
    (ht : a.turn p.settings p.token.kind = .inr (.shift next))
    (h : ∀ t p', p.Keeps p' → ∀ n' < n, Follows n' p' (k t) (.state next) found) :
    Follows n p (Descent.advance >>= k) a found := by
  have inner := Stage.kind_ne_endOfInput_of_shift ht
  intro answer q answers
  cases unread : p.unread with
  | nil =>
    rw [unread] at answers
    obtain ⟨n', less, answers'⟩ := answers.of_supply ht
    let p' : CountingParser := { p with token := .endAt p.token.endPosition }
    have keeps : p.Keeps p' := ⟨rfl, rfl, [], rfl, nofun⟩
    rw [← unread] at answers'
    exact (h p.token p' keeps n' less answer q answers').of_behind
      (Descent.outcome_bind_of_ok (Descent.outcome_advance_supply inner unread)) keeps
      (Nat.le_of_lt less)
  | cons item rest =>
    rw [unread] at answers
    cases item with
    | ok u =>
      obtain ⟨n', less, answers'⟩ := answers.of_pull ht
      let p' : CountingParser := { p with token := u, unread := rest }
      have keeps : p.Keeps p' := ⟨rfl, rfl, [], rfl, nofun⟩
      exact (h p.token p' keeps n' less answer q answers').of_behind
        (Descent.outcome_bind_of_ok (Descent.outcome_advance_pull inner unread)) keeps
        (Nat.le_of_lt less)
    | error e =>
      obtain ⟨failed, left⟩ := answers.of_lex ht
      exact ⟨.error (.lex e), { p with unread := rest },
        Descent.outcome_bind_of_error (Descent.outcome_advance_lex inner unread),
        ⟨rfl, rfl, [], rfl, nofun⟩, failed, left⟩

/-- At the limit the machine refuses the token, and below it the counter goes up. -/
lemma follows_nested {f : Descent β}
    (full : p.settings.maxDepth ≤ p.depth →
      a.turn p.settings p.token.kind = .inr (.refuse .tooDeep))
    (room : p.depth < p.settings.maxDepth → Follows n (p.setDepth (p.depth + 1)) f a found) :
    Follows n p (Descent.nested f) a found := by
  intro answer q answers
  by_cases less : p.depth < p.settings.maxDepth
  · obtain ⟨result, p', outcome, keeps, rest⟩ := room less answer q answers
    exact ⟨result, _, Descent.outcome_nested_open less outcome, keeps.nested less, rest⟩
  · have reached := Nat.le_of_not_lt less
    obtain ⟨failed, left⟩ := answers.of_refuse (full reached)
    exact ⟨_, p, Descent.outcome_nested_full reached, .refl p, failed, left⟩

/-- A look at the token costs nothing. -/
lemma follows_look {k : Kind → Descent β} (h : Follows n p (k p.token.kind) a found) :
    Follows n p (Descent.look >>= k) a found :=
  h

/-- The token is passed over if it is wanted, and otherwise it stays. -/
lemma follows_takeIf {wanted : Kind → Bool} {k : Bool → Descent β}
    (ht : wanted p.token.kind = true → Follows n p (Descent.advance >>= fun _ => k true) a found)
    (hf : ¬ wanted p.token.kind = true → Follows n p (k false) a found) :
    Follows n p (Descent.takeIf wanted >>= k) a found := by
  by_cases h : wanted p.token.kind = true
  · exact (ht h).congr (Descent.outcome_takeIf_of_true h)
  · exact (hf h).congr (Descent.outcome_takeIf_of_false h)

/-- Neither does a look at the parser. -/
lemma follows_get {k : CountingParser → Descent β} (h : Follows n p (k p) a found) :
    Follows n p (get >>= k) a found :=
  h

/-- Where the machine takes a mark and refuses anything else, the mark is consumed. -/
lemma follows_consumeMark {m : Mark} {k : Token → Descent β} (next : State g)
    (ht : p.token.kind = .mark m → a.turn p.settings p.token.kind = .inr (.shift next))
    (hr : p.token.kind ≠ .mark m →
      a.turn p.settings p.token.kind = .inr (.refuse (.unexpected [.mark m])))
    (h : ∀ t p', p.Keeps p' → ∀ n' < n, Follows n' p' (k t) (.state next) found) :
    Follows n p (Descent.consumeMark m >>= k) a found := by
  by_cases there : p.token.kind = .mark m
  · exact (follows_advance next (ht there) h).congr (Descent.outcome_consumeMark_of_eq there)
  · exact (follows_refuse (hr there)).congr (Descent.outcome_consumeMark_of_ne there)

/-- Where the machine takes a name and refuses anything else, the name is consumed. -/
lemma follows_consumeName {what : Expectation} {k : String → Descent β} (next : String → State g)
    (ht : ∀ name, p.token.kind.name? = some name →
      a.turn p.settings p.token.kind = .inr (.shift (next name)))
    (hr : p.token.kind.name? = none →
      a.turn p.settings p.token.kind = .inr (.refuse (.unexpected [what])))
    (h : ∀ name p', p.Keeps p' → ∀ n' < n, Follows n' p' (k name) (.state (next name)) found) :
    Follows n p (Descent.consumeName what >>= k) a found := by
  cases there : p.token.kind.name? with
  | none => exact (follows_refuse (hr there)).congr (Descent.outcome_consumeName_of_none there)
  | some name =>
    exact (follows_advance (next name) (ht name there) fun _ => h name).congr
      (Descent.outcome_consumeName_of_some there)

end

end Quill
