import Quill.Proofs.Grammar.Stages
import Quill.Proofs.Stream.Session

/-!
# Progress

Every call of a parser ends, whatever its stream holds and however high its limit is. Here a call is
followed from rule to rule: a rule calls another, or passes over the token it looks at (`Goes`),
until the parser has its answer (`Halts`). Each token pays for ten of these turns at most, and
without a token the work soon runs out (`Goes.work_le`).

So a construct that is found takes a token, whether a call asked for it or a rule. Each turn of a
loop takes one as well, and no loop turns in front of the end of the input, where no token is taken
(`Goes.makes_progress`). What is behind such an end is not pulled (`Goes.inFront`).
-/

namespace Quill

variable {g : Goal} {settings : Settings}

/-! ## Turns of a call -/

/-- A parser in the middle of a call: the rule that is at work, the look-ahead, and the items that
are not pulled yet. -/
structure Control (g : Goal) where
  stage : Stage g
  token : Token
  unread : List Item

/-- The parser as it begins to look for a goal. -/
def Parser.control (p : Parser) (g : Goal) : Control g :=
  ⟨.state (State.initial g), p.token, p.unread⟩

/-- From the one to the other in `n` turns that pass over the tokens. -/
inductive Goes (settings : Settings) : Control g → Nat → List Token → Control g → Prop where
  | here {c} : Goes settings c 0 [] c
  | call {a b t items n ts c} :
    a.turn settings t.kind = .inl b →
    Goes settings ⟨b, t, items⟩ n ts c →
    Goes settings ⟨a, t, items⟩ (n + 1) ts c
  | pull {a next t u items n ts c} :
    a.turn settings t.kind = .inr (.shift next) →
    Goes settings ⟨.state next, u, items⟩ n ts c →
    Goes settings ⟨a, t, .ok u :: items⟩ (n + 1) (t :: ts) c
  | supply {a next t n ts c} :
    a.turn settings t.kind = .inr (.shift next) →
    Goes settings ⟨.state next, .endAt t.endPosition, []⟩ n ts c →
    Goes settings ⟨a, t, []⟩ (n + 1) (t :: ts) c

/-- The answer that is given at a rule, and the parser that is left. -/
inductive Halts (settings : Settings) :
    Control g → Except SyntaxError g.Result → Parser → Prop where
  | done {a t items r} :
    a.turn settings t.kind = .inr (.done r) →
    Halts settings ⟨a, t, items⟩ (.ok r) ⟨settings, t, items⟩
  | refuse {a t items why} :
    a.turn settings t.kind = .inr (.refuse why) →
    Halts settings ⟨a, t, items⟩ (.error (why.error settings.maxDepth t)) ⟨settings, t, items⟩
  | lex {a next t e items} :
    a.turn settings t.kind = .inr (.shift next) →
    Halts settings ⟨a, t, .error e :: items⟩ (.error (.lex e)) ⟨settings, t, items⟩

/-- The turns behind others are turns from the first, over the tokens of both. -/
lemma Goes.trans {c c' c'' : Control g} {n n' : Nat} {ts ts' : List Token}
    (h : Goes settings c n ts c') (h' : Goes settings c' n' ts' c'') :
    Goes settings c (n + n') (ts ++ ts') c'' := by
  induction h with
  | here =>
    rw [Nat.zero_add]
    exact h'
  | call ht _ ih =>
    rw [Nat.add_right_comm]
    exact .call ht (ih h')
  | pull ht _ ih =>
    rw [Nat.add_right_comm]
    exact .pull ht (ih h')
  | supply ht _ ih =>
    rw [Nat.add_right_comm]
    exact .supply ht (ih h')

/-! ## Every call halts -/

/-- The rules call one another only so often before one makes the move. -/
lemma goes_to_move (a : Stage g) {t : Token} {m : Move g} (items : List Item)
    (h : a.move settings t.kind = m) :
    ∃ n b, Goes settings ⟨a, t, items⟩ n [] ⟨b, t, items⟩ ∧ b.turn settings t.kind = .inr m := by
  -- Each call leaves less work than there was before it.
  induction hw : a.work using Nat.strongRecOn generalizing a with
  | ind w ih =>
    rw [a.move_eq] at h
    cases ht : a.turn settings t.kind with
    | inl b =>
      rw [ht] at h
      obtain ⟨n, c, goes, made⟩ := ih b.work (hw ▸ Stage.work_of_turn ht) b h rfl
      exact ⟨n + 1, c, .call ht goes, made⟩
    | inr m' =>
      rw [ht] at h
      exact ⟨0, a, .here, ht.trans (congrArg _ h)⟩

/-- A token is taken in a number of turns, and the next one is pulled. -/
lemma goes_of_pull {s next : State g} {t : Token} (u : Token) (items : List Item)
    (hs : step settings s t.kind = .shift next) :
    ∃ n, Goes settings ⟨.state s, t, .ok u :: items⟩ n [t] ⟨.state next, u, items⟩ := by
  obtain ⟨n, b, goes, made⟩ := goes_to_move (.state s) (.ok u :: items) hs
  exact ⟨_, goes.trans (.pull made .here)⟩

/-- A token is taken in a number of turns, and in a dry stream the end is supplied behind it. -/
lemma goes_of_supply {s next : State g} {t : Token} (hs : step settings s t.kind = .shift next) :
    ∃ n, Goes settings ⟨.state s, t, []⟩ n [t] ⟨.state next, .endAt t.endPosition, []⟩ := by
  obtain ⟨n, b, goes, made⟩ := goes_to_move (.state s) [] hs
  exact ⟨_, goes.trans (.supply made .here)⟩

/-- The moments of a call are among its turns. -/
lemma goes_of_passes {m m' : Moment g} {ts : List Token} (h : Passes settings m ts m') :
    ∃ n, Goes settings ⟨.state m.state, m.token, m.unread⟩ n ts
      ⟨.state m'.state, m'.token, m'.unread⟩ := by
  induction h with
  | here => exact ⟨0, .here⟩
  | pull hs _ ih =>
    obtain ⟨n, goes⟩ := goes_of_pull _ _ hs
    obtain ⟨n', further⟩ := ih
    exact ⟨n + n', goes.trans further⟩
  | supply hs _ ih =>
    obtain ⟨n, goes⟩ := goes_of_supply hs
    obtain ⟨n', further⟩ := ih
    exact ⟨n + n', goes.trans further⟩

/-- Every run goes to a rule at which it halts with its answer. -/
lemma exists_halts (settings : Settings) (s : State g) (t : Token) (items : List Item) :
    ∃ n ts c, Goes settings ⟨.state s, t, items⟩ n ts c ∧
      Halts settings c (run settings s t items).1
        ⟨settings, (run settings s t items).2.1, (run settings s t items).2.2⟩ := by
  induction s, t, items using run.induct settings with
  | case1 s t items r h =>
    rw [run_of_done items h]
    obtain ⟨n, b, goes, made⟩ := goes_to_move (.state s) items h
    exact ⟨n, [], _, goes, .done made⟩
  | case2 s t items why h =>
    rw [run_of_refuse items h]
    obtain ⟨n, b, goes, made⟩ := goes_to_move (.state s) items h
    exact ⟨n, [], _, goes, .refuse made⟩
  | case3 s t next h u rest ih =>
    rw [run_of_pull u rest h]
    obtain ⟨n, goes⟩ := goes_of_pull u rest h
    obtain ⟨n', ts, c, further, halts⟩ := ih
    exact ⟨n + n', t :: ts, c, goes.trans further, halts⟩
  | case4 s t next h e rest =>
    rw [run_of_error e rest h]
    obtain ⟨n, b, goes, made⟩ := goes_to_move (.state s) (.error e :: rest) h
    exact ⟨n, [], _, goes, .lex made⟩
  | case5 s t next h _ ih =>
    rw [run_of_dry h]
    obtain ⟨n, goes⟩ := goes_of_supply h
    obtain ⟨n', ts, c, further, halts⟩ := ih
    exact ⟨n + n', t :: ts, c, goes.trans further, halts⟩

/-- Every call of a session halts, and its answer is the parser's. -/
lemma Session.exists_halts {items : List Item} {passed : List Token} {reported : List LexError}
    {p : Parser} (h : Session settings items passed reported p) (g : Goal) :
    ∃ n ts c, Goes settings (p.control g) n ts c ∧
      Halts settings c (p.parse g).1 (p.parse g).2 := by
  obtain rfl := h.settings_eq
  exact Quill.exists_halts p.settings (State.initial g) p.token p.unread

/-! ## The turns are few -/

/-- A turn takes one from the work that is left. A token brings ten at most. -/
lemma Goes.work_le {c c' : Control g} {n : Nat} {ts : List Token} (h : Goes settings c n ts c') :
    n + c'.stage.work ≤ c.stage.work + 10 * ts.length := by
  induction h with
  | here => omega
  | call ht _ ih =>
    have less := Stage.work_of_turn ht
    dsimp only at ih ⊢
    omega
  | pull ht _ ih =>
    have little := Stage.work_of_shift ht
    dsimp only [List.length_cons] at ih ⊢
    omega
  | supply ht _ ih =>
    have little := Stage.work_of_shift ht
    dsimp only [List.length_cons] at ih ⊢
    omega

/-! ## In front of the end -/

section

variable {items : List Item} {passed : List Token} {reported : List LexError} {t : Token}

/-- The tokens in front of the first end of the input, or all of them where there is none. -/
def innerTokens (items : List Item) : List Token :=
  (tokensOf items).takeWhile (·.kind ≠ .endOfInput)

/-- All that stands behind an end of the input is left. -/
def LeavesBehindEnd (items unread : List Item) : Prop :=
  ∀ before last after, items = before ++ .ok last :: after → last.kind = .endOfInput →
    after <:+ unread

/-- A look-ahead that is not the end has nothing behind an end next to it. -/
lemma LeavesBehindEnd.tail {item : Item} {rest : List Item}
    (h : LeavesBehindEnd items (item :: rest)) (hw : Window items passed reported t (item :: rest))
    (inner : t.kind ≠ .endOfInput) : LeavesBehindEnd items rest := by
  intro before last after split hk
  obtain rfl | shorter := List.suffix_cons_iff.1 (h before last after split hk)
  · cases hw with
    | @inside pulled _ _ _ split' tokens =>
      -- Only the token pulled last stands right in front of what is not pulled.
      have joined : (before ++ [.ok last]) ++ (item :: rest) = pulled ++ (item :: rest) := by
        rw [← split', split, List.append_assoc, List.singleton_append]
      have same : before ++ [.ok last] = pulled := List.append_cancel_right joined
      rw [← same, tokensOf_append] at tokens
      obtain ⟨-, ends⟩ := List.append_inj' tokens rfl
      obtain rfl := (List.cons.inj ends).1
      exact absurd hk inner
  · exact shorter

/-- What a parser knows of its stream. It has a window on it, and it has neither passed over an end
nor pulled what is behind one. -/
structure InFront (items : List Item) (passed : List Token) (reported : List LexError) (t : Token)
    (unread : List Item) : Prop where
  window : Window items passed reported t unread
  inner : ∀ u ∈ passed, u.kind ≠ .endOfInput
  leaves : LeavesBehindEnd items unread

/-- The tokens that are passed over stand in front of the first end. -/
lemma InFront.passed_prefix {unread : List Item} (h : InFront items passed reported t unread) :
    passed <+: innerTokens items := by
  have prefixed : passed <+: tokensOf items := by
    cases h.window with
    | inside split tokens =>
      rw [split, tokensOf_append, tokens, List.append_assoc]
      exact List.prefix_append _ _
    | dry => exact List.prefix_rfl
  obtain ⟨rest, split⟩ := prefixed
  rw [innerTokens, ← split, List.takeWhile_append_of_pos]
  · exact List.prefix_append _ _
  · exact fun u hu => decide_eq_true (h.inner u hu)

/-- A parser that takes a token and pulls the next one is still in front of the end. -/
lemma InFront.pull {u : Token} {rest : List Item}
    (h : InFront items passed reported t (.ok u :: rest)) (inner : t.kind ≠ .endOfInput) :
    InFront items (passed ++ [t]) reported u rest where
  window := h.window.pull
  inner := by simpa [or_imp, forall_and] using ⟨h.inner, inner⟩
  leaves := h.leaves.tail h.window inner

/-- A parser that takes the last token of its stream is still in front of the end. -/
lemma InFront.supply (h : InFront items passed reported t []) (inner : t.kind ≠ .endOfInput) :
    InFront items (passed ++ [t]) reported (.endAt t.endPosition) [] where
  window := h.window.supply inner
  inner := by simpa [or_imp, forall_and] using ⟨h.inner, inner⟩
  leaves := h.leaves

/-- A parser that reports an error is still in front of the end. -/
lemma InFront.report {e : LexError} {rest : List Item}
    (h : InFront items passed reported t (.error e :: rest)) (inner : t.kind ≠ .endOfInput) :
    InFront items passed (reported ++ [e]) t rest where
  window := h.window.report
  inner := h.inner
  leaves := h.leaves.tail h.window inner

/-- No turn leads a parser behind the end. -/
lemma Goes.inFront {c c' : Control g} {n : Nat} {ts : List Token} (h : Goes settings c n ts c')
    (hc : InFront items passed reported c.token c.unread) :
    InFront items (passed ++ ts) reported c'.token c'.unread := by
  induction h generalizing passed with
  | here =>
    rw [List.append_nil]
    exact hc
  | call _ _ ih => exact ih hc
  | pull ht _ ih =>
    rw [List.append_cons]
    exact ih (hc.pull (Stage.kind_ne_endOfInput_of_shift ht))
  | supply ht _ ih =>
    rw [List.append_cons]
    exact ih (hc.supply (Stage.kind_ne_endOfInput_of_shift ht))

/-- A call that ends leaves a parser in front of the end. -/
lemma Ends.inFront {m : Moment g} {answer : Except SyntaxError g.Result} {q : Parser}
    (h : Ends settings m answer q) (hm : InFront items passed reported m.token m.unread) :
    InFront items passed (reported ++ lexErrorOf answer) q.token q.unread where
  window := h.window hm.window
  inner := hm.inner
  leaves := by
    cases h with
    | done _ => exact hm.leaves
    | unexpected _ => exact hm.leaves
    | tooDeep _ => exact hm.leaves
    | @lex s next t _ _ hs =>
      have inner : t.kind ≠ .endOfInput := by
        intro hk
        exact step_endOfInput settings s next (hk ▸ hs)
      exact hm.leaves.tail hm.window inner

variable {p : Parser}

/-- A parser starts in front of the end. -/
lemma inFront_start (started : Parser.start settings items = .ok p) :
    InFront items [] [] p.token p.unread where
  window := window_start started
  inner := nofun
  leaves := by
    intro before last after split hk
    subst split
    cases before with
    | nil =>
      cases started
      exact List.suffix_rfl
    | cons item before =>
      cases item with
      | error e => cases started
      | ok t =>
        cases started
        exact ⟨before ++ [.ok last], by simp⟩

/-- After any calls, nothing that stands behind an end has been pulled. -/
lemma Session.inFront (h : Session settings items passed reported p) :
    InFront items passed reported p.token p.unread := by
  induction h with
  | start started => exact inFront_start started
  | call g _ passes ends ih =>
    obtain ⟨n, goes⟩ := goes_of_passes passes
    exact ends.inFront (goes.inFront ih)

end

/-! ## Progress -/

/-- What the turns from the one to the other have done. A construct that is found has taken a token.
So has a loop that goes round, and it did not stand in front of the end, where no token is taken. -/
structure MakesProgress (c : Control g) (n : Nat) (ts : List Token) (c' : Control g) : Prop where
  construct : ∀ x, c.stage.asks? = some x → c'.stage.gives? = some x → ts ≠ []
  loop : ∀ l, c.stage.loop? = some l → c'.stage.loop? = some l → 0 < n →
    ts ≠ [] ∧ c.token.kind ≠ .endOfInput
  ending : c.token.kind = .endOfInput → ts = []

/-- In front of the end no token is passed over. -/
lemma Goes.passed_nil {c c' : Control g} {n : Nat} {ts : List Token} (h : Goes settings c n ts c')
    (hk : c.token.kind = .endOfInput) : ts = [] := by
  induction h with
  | here => rfl
  | call _ _ ih => exact ih hk
  | pull ht _ _ => exact absurd hk (Stage.kind_ne_endOfInput_of_shift ht)
  | supply ht _ _ => exact absurd hk (Stage.kind_ne_endOfInput_of_shift ht)

/-- Turns make progress: what is found has taken a token, and so has a loop that goes round. -/
lemma Goes.makes_progress {c c' : Control g} {n : Nat} {ts : List Token}
    (h : Goes settings c n ts c') : MakesProgress c n ts c' where
  construct x asked given := by
    rintro rfl
    have bound := h.work_le
    have more := Stage.work_lt_of_gives asked given
    simp only [List.length_nil] at bound
    omega
  loop l first second turned := by
    have taken : ts ≠ [] := by
      rintro rfl
      have bound := h.work_le
      rw [Stage.work_of_loop first, Stage.work_of_loop second] at bound
      simp only [List.length_nil] at bound
      omega
    exact ⟨taken, fun hk => taken (h.passed_nil hk)⟩
  ending := h.passed_nil

/-- Every call of a parser ends, after any calls before it. It makes a few turns for every token
that it passes over, and halts with its answer, and no construct is found without a token. On the
way only tokens in front of the first end are passed over, and what is behind an end stays where it
is. Every construct that is found takes a token, and every loop takes one as it goes round. -/
theorem calls_terminate {items : List Item} {passed : List Token} {reported : List LexError}
    {p : Parser} (h : Session settings items passed reported p) (g : Goal) :
    (∃ n ts c, Goes settings (p.control g) n ts c ∧ Halts settings c (p.parse g).1 (p.parse g).2 ∧
      ((∃ r, (p.parse g).1 = .ok r) → ts ≠ [])) ∧
    (∀ n ts c, Goes settings (p.control g) n ts c →
      n ≤ 10 * ts.length + 3 ∧ passed ++ ts <+: innerTokens items ∧
        LeavesBehindEnd items c.unread) ∧
    LeavesBehindEnd items (p.parse g).2.unread ∧
    ∀ n ts, ∀ c c' : Control g, Goes settings c n ts c' → MakesProgress c n ts c' := by
  have initial := Stage.work_initial g
  refine ⟨?_, ?_, ?_, fun n ts c c' goes => goes.makes_progress⟩
  · obtain ⟨n, ts, c, goes, halts⟩ := h.exists_halts g
    refine ⟨n, ts, c, goes, halts, ?_⟩
    rintro ⟨r, found⟩ rfl
    have bound := goes.work_le
    rw [found] at halts
    cases halts with
    | done ht =>
      have left := Stage.work_of_done ht
      simp only [Parser.control, List.length_nil] at bound
      omega
  · intro n ts c goes
    have reached := goes.inFront h.inFront
    have bound := goes.work_le
    simp only [Parser.control] at bound
    exact ⟨by omega, reached.passed_prefix, reached.leaves⟩
  · obtain ⟨ts, m, passes, ends⟩ := h.exists_ends g
    obtain ⟨n, goes⟩ := goes_of_passes passes
    exact (ends.inFront (goes.inFront h.inFront)).leaves

/-- A comma in a call, and a parenthesis behind the end. -/
def cutOff : List Item :=
  [.ok ⟨.word "f", "f", .start⟩, .ok ⟨.mark .leftParen, "(", ⟨1, 1, 2⟩⟩,
    .error ⟨⟨2, 1, 3⟩, .unexpectedChar ','⟩, .ok (.endAt ⟨3, 1, 4⟩),
    .ok ⟨.mark .rightParen, ")", ⟨3, 1, 4⟩⟩]

/-- The parser at the start of these items. -/
def beforeCall : Parser :=
  ⟨{ maxDepth := 1000000 }, ⟨.word "f", "f", .start⟩, cutOff.drop 1⟩

/-- The parser that has reported the comma. It looks at the parenthesis in front of it. -/
def insideCall : Parser :=
  ⟨{ maxDepth := 1000000 }, ⟨.mark .leftParen, "(", ⟨1, 1, 2⟩⟩, cutOff.drop 3⟩

/-- Asked once more, the parser passes over the parenthesis at most, and leaves the one behind the
end. -/
theorem cutOff_terminates :
    Session { maxDepth := 1000000 } cutOff [⟨.word "f", "f", .start⟩]
      [⟨⟨2, 1, 3⟩, .unexpectedChar ','⟩] insideCall ∧
    (∃ n ts c, Goes { maxDepth := 1000000 } (insideCall.control .expression) n ts c ∧
      Halts { maxDepth := 1000000 } c (insideCall.parse .expression).1
        (insideCall.parse .expression).2) ∧
    (∀ n ts c, Goes { maxDepth := 1000000 } (insideCall.control .expression) n ts c →
      n ≤ 10 * ts.length + 3 ∧ [⟨.word "f", "f", .start⟩] ++ ts <+: innerTokens cutOff ∧
        LeavesBehindEnd cutOff c.unread) := by
  have started : Parser.start { maxDepth := 1000000 } cutOff = .ok beforeCall := rfl
  have first : beforeCall.parse .expression =
      (.error (.lex ⟨⟨2, 1, 3⟩, .unexpectedChar ','⟩), insideCall) := by cbv
  have session : Session { maxDepth := 1000000 } cutOff _ _ _ := .call .expression (.start started)
    (.pull rfl .here) <| by
      rw [first]
      exact .lex rfl
  rw [first] at session
  obtain ⟨⟨n, ts, c, goes, halts, _⟩, few, _⟩ := calls_terminate session .expression
  exact ⟨session, ⟨n, ts, c, goes, halts⟩, few⟩

end Quill
