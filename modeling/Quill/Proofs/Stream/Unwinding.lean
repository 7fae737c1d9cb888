import Quill.Proofs.Descent.Constructs
import Quill.Proofs.Descent.Rounds

/-!
# A parser that survives its errors

What becomes of a parser that counts its open levels while it is called again and again, in any
order and whatever comes of the calls. The rounds of a call never run out: it has an answer, and it
is the machine's (`call_eq_parse`), so the calls are a session of the machine. Whichever way a call
ends, the counter is back at zero behind it, and on the way it never exceeds the limit. The window
on the stream stays intact (`parser_survives_errors`).
-/

namespace Quill

open Descent

variable {g : Goal} {settings : Settings} {n rounds : Nat} {p : CountingParser}

/-! ## The answer of a call -/

/-- What is asked for comes to an end with every answer that the machine gives in `n` turns. -/
def Settles (n : Nat) (p : CountingParser) (f : Descent g.Result) (a : Stage g) : Prop :=
  ∀ answer q, Answers p.settings n ⟨a, p.token, p.unread⟩ answer q →
    ∃ p', f.outcome p = some (answer, p') ∧ p.Keeps p' ∧ q = p'.toParser

/-- What follows the machine settles if the machine is done with what is found. -/
lemma Follows.settles {f : Descent g.Result} {a : Stage g} {found : g.Result → Stage g}
    (h : Follows n p f a found)
    (done : ∀ v settings k, (found v).turn settings k = .inr (.done v)) : Settles n p f a := by
  intro answer q answers
  obtain ⟨result, p', outcome, keeps, rest⟩ := h answer q answers
  cases result with
  | error e =>
    obtain ⟨failed, left⟩ := rest
    exact ⟨p', failed ▸ outcome, keeps, left⟩
  | ok v =>
    obtain ⟨n', -, answers'⟩ := rest
    obtain ⟨finished, left⟩ := answers'.of_done (done v _ _)
    rw [← keeps.settings] at left
    exact ⟨p', finished ▸ outcome, keeps, left⟩

/-- A program settles: behind its block the machine is done or refuses the token. -/
lemma settles_program {self : Calls} (ih : ∀ m < n, self.Follow .program m) (closed : p.depth = 0) :
    Settles (g := .program) n p (program self) (.state (.block (.program rfl))) := by
  intro answer q answers
  obtain ⟨result, p', outcome, keeps, rest⟩ :=
    follows_block ih (.program rfl) closed answer q answers
  cases result with
  | error e =>
    obtain ⟨rfl, left⟩ := rest
    exact ⟨p', outcome_bind_of_error outcome, keeps, left⟩
  | ok body =>
    obtain ⟨n', -, answers'⟩ := rest
    rw [← keeps.settings] at answers'
    have behind : (program self).outcome p =
        (if p'.token.kind = .endOfInput then pure body
          else refuse (.unexpected [.endOfInput]) : Descent Block).outcome p' :=
      outcome_bind_of_ok outcome
    by_cases last : p'.token.kind = .endOfInput
    · rw [if_pos last] at behind
      obtain ⟨rfl, left⟩ := answers'.of_done (r := body) (by rw [last]; rfl)
      exact ⟨p', behind, keeps, left⟩
    · rw [if_neg last] at behind
      have refused : (Stage.state (.closed body (.program rfl))).turn p'.settings p'.token.kind =
          .inr (.refuse (.unexpected [.endOfInput])) := by
        simp only [Stage.turn, finishBlock]
      obtain ⟨rfl, left⟩ := answers'.of_refuse refused
      exact ⟨p', behind, keeps, left⟩

/-- Everything that can be asked for settles, within as many rounds as the machine takes turns. -/
lemma settles_seek (enough : n ≤ rounds) (closed : p.depth = 0) :
    Settles n p (seek (calls rounds) g) (.state (State.initial g)) := by
  have ih : ∀ m < n, (calls rounds).Follow g m :=
    fun m less => follow_calls g (Nat.lt_of_lt_of_le less enough)
  cases g with
  | expression =>
    exact (follows_expression ih (.whole rfl) closed).settles fun _ _ _ => rfl
  | statement =>
    exact (follows_statement ih (.whole rfl) closed).settles fun _ _ _ => rfl
  | block => exact (follows_block ih (.whole rfl) closed).settles fun _ _ _ => rfl
  | program => exact settles_program ih closed

/-- Nothing is passed over but the token in front and tokens that were not pulled yet. -/
lemma Goes.length_le {c c' : Control g} {ts : List Token} (h : Goes settings c n ts c') :
    ts.length ≤ c.unread.length + 1 := by
  induction h with
  | here => exact Nat.zero_le _
  | call _ _ ih => exact ih
  | pull _ _ ih => exact Nat.succ_le_succ ih
  | supply _ goes _ =>
    -- The end that is supplied is not passed over.
    rw [goes.passed_nil rfl]
    exact Nat.le_refl 1

/-- The machine takes no more turns than a call gets rounds. -/
lemma Goes.le_rounds {ts : List Token} {c : Control g}
    (h : Goes settings (p.toParser.control g) n ts c) : n ≤ p.rounds := by
  have work := h.work_le
  have initial := Stage.work_initial g
  have passed := h.length_le
  simp only [Parser.control] at work passed
  simp only [CountingParser.rounds]
  omega

/-- Every call ends. It has the machine's answer and leaves the machine's parser, with the counter
where it was. -/
theorem call_eq_parse (g : Goal) (closed : p.depth = 0) :
    ∃ q, p.call g = some ((p.toParser.parse g).1, q) ∧ p.Keeps q ∧
      (p.toParser.parse g).2 = q.toParser := by
  obtain ⟨n, ts, c, goes, halts⟩ := exists_halts p.settings (State.initial g) p.token p.unread
  exact settles_seek goes.le_rounds closed _ _ ⟨ts, c, goes, halts⟩

/-- The rounds of a call never run out, so more of them make no difference. -/
theorem call_eq_of_rounds_le (g : Goal) (closed : p.depth = 0) (more : p.rounds ≤ rounds) :
    (seek (calls rounds) g).outcome p = p.call g := by
  obtain ⟨q, called, -⟩ := call_eq_parse g closed
  rw [called]
  exact seek_mono more g p _ called

/-! ## A series of calls -/

/-- A parser of a stream after any calls, with the errors that they have reported. -/
inductive Called (settings : Settings) (items : List Item) :
    List LexError → CountingParser → Prop where
  | start {p : CountingParser} :
    CountingParser.start settings items = .ok p →
    Called settings items [] p
  | call {reported} {p q : CountingParser} (g : Goal) {answer : Except SyntaxError g.Result} :
    Called settings items reported p →
    p.call g = some (answer, q) →
    Called settings items (reported ++ lexErrorOf answer) q

variable {items : List Item} {reported : List LexError}

/-- A parser that is made has nothing open. -/
lemma called_start (started : CountingParser.start settings items = .ok p) :
    p.depth = 0 ∧ Parser.start settings items = .ok p.toParser := by
  unfold CountingParser.start at started
  cases made : Parser.start settings items with
  | error e => simp [made, Except.map] at started
  | ok p' =>
    obtain rfl : ⟨p', 0, []⟩ = p := by simpa [made, Except.map] using started
    exact ⟨rfl, rfl⟩

/-- Between two calls the counter is at zero, and the calls are a session of the machine. -/
lemma Called.unwound (h : Called settings items reported p) :
    p.depth = 0 ∧ ∃ passed, Session settings items passed reported p.toParser := by
  induction h with
  | start started =>
    obtain ⟨closed, made⟩ := called_start started
    exact ⟨closed, [], .start made⟩
  | @call reported p q g answer _ called ih =>
    obtain ⟨closed, passed, session⟩ := ih
    obtain ⟨q', called', keeps, left⟩ := call_eq_parse g closed
    obtain ⟨rfl, rfl⟩ : (p.toParser.parse g).1 = answer ∧ q' = q := by
      simpa [called] using called'.symm
    obtain ⟨ts, m, passes, ends⟩ := session.exists_ends g
    refine ⟨keeps.depth.trans closed, passed ++ ts, ?_⟩
    rw [← left]
    exact .call g session passes ends

/-- What a call does to a parser that has passed over the tokens and reported the errors. It has an
answer. The counter is back at zero behind it, and none of the values it took on the way exceeds the
limit. At every moment the tokens that were passed over, the look-ahead and what is not pulled yet
are the stream. Behind the call that is so with the error it has pulled reported. An unexpected
token, or one that is nested too deep, is the look-ahead, and an error that is pulled leaves the
look-ahead as it was. -/
structure Survives (settings : Settings) (items : List Item) (passed : List Token)
    (reported : List LexError) (p : CountingParser) (g : Goal)
    (answer : Except SyntaxError g.Result) (q : CountingParser) : Prop where
  called : p.call g = some (answer, q)
  unwound : q.depth = 0
  within : ∃ levels, q.noted = levels ++ p.noted ∧ ∀ level ∈ levels, level ≤ settings.maxDepth
  moments : ∀ ts m, Passes settings (p.toParser.moment g) ts m →
    m.state.depth ≤ settings.maxDepth ∧ Window items (passed ++ ts) reported m.token m.unread
  ended : ∃ ts m, Passes settings (p.toParser.moment g) ts m ∧ Ends settings m answer q.toParser ∧
    Window items (passed ++ ts) (reported ++ lexErrorOf answer) q.token q.unread

/-- A parser survives its own errors. After any calls, failed or not, its counter is at zero and its
window on the stream is intact, and so it is with every call that it is asked for next. -/
theorem parser_survives_errors (h : Called settings items reported p) :
    p.depth = 0 ∧ ∃ passed, Window items passed reported p.token p.unread ∧
      ∀ g, ∃ answer q, Survives settings items passed reported p g answer q := by
  obtain ⟨closed, passed, session⟩ := h.unwound
  refine ⟨closed, passed, session.window, fun g => ?_⟩
  obtain ⟨q, called, keeps, left⟩ := call_eq_parse g closed
  obtain ⟨ts, m, passes, ends⟩ := session.exists_ends g
  have window := ends.window (passes.window session.window)
  rw [left] at ends window
  refine ⟨_, q, called, keeps.depth.trans closed, ?_, fun ts m passes => ⟨?_, ?_⟩,
    ts, m, passes, ends, window⟩
  · rw [← session.settings_eq]
    exact keeps.noted
  · apply passes.depth_le
    rw [depth_moment]
    exact Nat.zero_le _
  · exact passes.window session.window

/-- A parenthesis with a sign behind it, a comma, and a name. -/
def interrupted : List Item :=
  [.ok ⟨.mark .leftParen, "(", .start⟩, .ok ⟨.operator .minus, "-", ⟨1, 1, 2⟩⟩,
    .error ⟨⟨2, 1, 3⟩, .unexpectedChar ','⟩, .ok ⟨.word "x", "x", ⟨3, 1, 4⟩⟩]

/-- The parser at the start of these items. -/
def beforeComma : CountingParser :=
  ⟨⟨{}, ⟨.mark .leftParen, "(", .start⟩, interrupted.drop 1⟩, 0, []⟩

/-- The parser that has reported the comma, behind the parenthesis. It still looks at the sign, and
the two levels that were open are closed. -/
def afterComma : CountingParser :=
  ⟨⟨{}, ⟨.operator .minus, "-", ⟨1, 1, 2⟩⟩, interrupted.drop 3⟩, 0, [0, 1, 2, 1]⟩

/-- The parser that has reported the comma survives it, and whatever it is asked for next. -/
theorem interrupted_survives :
    Called {} interrupted [⟨⟨2, 1, 3⟩, .unexpectedChar ','⟩] afterComma ∧
      afterComma.depth = 0 ∧
      ∃ passed, Window interrupted passed [⟨⟨2, 1, 3⟩, .unexpectedChar ','⟩] afterComma.token
        afterComma.unread ∧
      ∀ g, ∃ answer q,
        Survives {} interrupted passed [⟨⟨2, 1, 3⟩, .unexpectedChar ','⟩] afterComma g answer q := by
  have started : CountingParser.start {} interrupted = .ok beforeComma := rfl
  have called : beforeComma.call .expression =
      some (.error (.lex ⟨⟨2, 1, 3⟩, .unexpectedChar ','⟩), afterComma) := rfl
  have series : Called {} interrupted [⟨⟨2, 1, 3⟩, .unexpectedChar ','⟩] afterComma :=
    .call .expression (.start started) called
  exact ⟨series, parser_survives_errors series⟩

end Quill
