import Quill.Proofs.Grammar.Exactness
import Quill.Proofs.Grammar.Expected
import Quill.Proofs.Stream.Stopping

/-!
# Errors at the first wrong token

A parse error stands at the first token that cannot be part of any program. The tokens in front of
it are viable, that is, they go on to a stream that is accepted; with the offending token they are
not, and with a token that the error lists they are again. Viability is about every limit, so these
facts come from the grammar and not from one run: a state that is reached can be completed, whatever
is open (`State.completes`), and a state that refuses a token is completed by nothing that begins
with it (`closes_step`).
-/

namespace Quill

variable {settings : Settings} {d : Division}

/-- Some limit lets the stream through. -/
def Accepts (d : Division) (items : List Item) : Prop :=
  ∃ limit b, parseItems ⟨d, limit⟩ items = .ok b

/-- The tokens go on to a stream that is accepted. -/
def Viable (d : Division) (ts : List Token) : Prop :=
  ∃ more : List Item, Accepts d (ts.map .ok ++ more)

/-! ## Kinds that complete a state make a viable prefix -/

/-- What completes a state of a program completes it up to the first end of the input. -/
lemma State.closes_to_end {s : State .program} {ks : List Kind} {b : Block} (h : s.Closes d ks b) :
    ∃ front after, ks = front ++ .endOfInput :: after ∧ .endOfInput ∉ front ∧
      s.Closes d (front ++ [.endOfInput]) b := by
  -- The limit is chosen for each step, so that it never stops one.
  induction ks generalizing s with
  | nil => cases State.end_mem h
  | cons k ks ih =>
    have free : step ⟨d, s.depth + 1⟩ s k ≠ .refuse .tooDeep := step_ne_tooDeep (Nat.lt_succ_self _)
    have closes := (closes_step free).2 h
    cases hs : step ⟨d, s.depth + 1⟩ s k with
    | shift next =>
      rw [hs] at closes
      obtain ⟨front, after, rfl, inner, hf⟩ := ih closes
      have hk : k ≠ .endOfInput := by
        rintro rfl
        exact step_endOfInput _ s next hs
      refine ⟨k :: front, after, rfl, by simp [inner, hk.symm], (closes_step free).1 ?_⟩
      rw [hs]
      exact hf
    | done result =>
      rw [hs] at closes
      obtain ⟨rfl, _⟩ := closed_of_step_done hs
      refine ⟨[], ks, rfl, List.not_mem_nil, (closes_step free).1 ?_⟩
      rw [hs]
      exact closes
    | refuse why =>
      rw [hs] at closes
      exact closes.elim

/-- Tokens with kinds behind them that make up a program begin a program. -/
lemma viable_of_closes {ts : List Token} {ks : List Kind} {b : Block}
    (h : (State.initial .program).Closes d (ts.map Token.kind ++ ks) b) : Viable d ts := by
  obtain ⟨front, after, split, inner, closes⟩ := State.closes_to_end h
  let more : List Token := ks.map fun k => ⟨k, "", .start⟩
  have kinds : (ts ++ more).map Token.kind = front ++ .endOfInput :: after := by
    rw [← split, List.map_append, List.map_map]
    simp [Function.comp_def]
  have before : kindsBeforeEnd (ts ++ more) = front := kindsBeforeEnd_of_split kinds inner
  refine ⟨more.map .ok, front.length + 1, b, ?_⟩
  rw [← List.map_append, parseItems_eq_ok_iff_closes (by rw [before]; exact Nat.lt_succ_self _),
    before]
  exact closes

/-! ## Tokens that the grammar refuses make none -/

/-- A walk that refuses a token gives an error at that token, whatever is behind it. -/
lemma readItems_of_walk_refuse {g : Goal} {s : State g} {ts : List Token} {why : Refusal}
    (h : walk settings s (ts.map Token.kind) = .refuse why) :
    ∃ t ∈ ts, ∀ items,
      (readItems settings s (ts.map .ok ++ items)).1 = .error (why.error settings.maxDepth t) := by
  induction ts generalizing s with
  | nil => cases h
  | cons t ts ih =>
    rw [List.map_cons, walk] at h
    split at h
    · rename_i next hs
      obtain ⟨u, hu, error⟩ := ih h
      refine ⟨u, List.mem_cons_of_mem _ hu, fun items => ?_⟩
      rw [← error items]
      cases ts with
      | nil => cases h
      | cons v ts =>
        rw [List.map_cons, List.map_cons, List.cons_append, List.cons_append, readItems_of_shift hs]
    · cases h
    · rename_i hs
      cases h
      refine ⟨t, List.mem_cons_self, fun items => ?_⟩
      rw [List.map_cons, List.cons_append, readItems_of_refuse hs]

/-- Tokens that begin a program have kinds behind them that make up one. -/
lemma closes_of_viable {ts : List Token} (h : Viable d ts) :
    ∃ ks b, (State.initial .program).Closes d (ts.map Token.kind ++ ks) b := by
  obtain ⟨more, limit, b, accepted⟩ := h
  have parsed := accepted
  rw [parseItems_eq] at parsed
  cases hw : walk ⟨d, limit⟩ (State.initial .program) (ts.map Token.kind) with
  | shift s =>
    obtain ⟨ks, r, closes⟩ := s.completes d
    exact ⟨ks, r, (closes_of_walk_shift hw).1 closes⟩
  | done r => exact ⟨[], r, closes_of_walk_done [] hw⟩
  | refuse why =>
    -- The stream fails at the refused token, whatever is behind it.
    obtain ⟨t, _, error⟩ := readItems_of_walk_refuse hw
    rw [error more] at parsed
    cases parsed

/-- Tokens are viable exactly when their kinds begin a text of the grammar. -/
theorem viable_iff {ts : List Token} :
    Viable d ts ↔ ∃ ks b, (State.initial .program).Closes d (ts.map Token.kind ++ ks) b :=
  ⟨closes_of_viable, fun ⟨_, _, h⟩ => viable_of_closes h⟩

/-- Behind tokens that a walk takes, viability is that of the state it reaches. -/
lemma viable_append_iff {before ts : List Token} {s : State .program}
    (hw : walk settings (State.initial .program) (before.map Token.kind) = .shift s) :
    Viable settings.division (before ++ ts) ↔
      ∃ ks b, s.Closes settings.division (ts.map Token.kind ++ ks) b := by
  have closes : ∀ ks b, s.Closes settings.division (ts.map Token.kind ++ ks) b ↔
      (State.initial .program).Closes settings.division
        ((before ++ ts).map Token.kind ++ ks) b := by
    intro ks b
    rw [List.map_append, List.append_assoc]
    exact closes_of_walk_shift hw
  simp only [viable_iff, closes]

/-! ## Parse errors -/

/-- A message names the end of the input only where that is the token. -/
lemma describe_eq_iff (t : Token) : t.describe = "end of input" ↔ t.kind = .endOfInput := by
  constructor
  · intro h
    have h := congrArg String.toList h
    unfold Token.describe at h
    -- Every other description begins with another letter.
    split at h <;> rename_i hk
    · simp [String.toList_append] at h
    · simp [String.toList_append] at h
    · split at h <;> simp [String.toList_append] at h
    · simp [String.toList_append] at h
    · simp [String.toList_append] at h
    · exact hk
  · intro hk
    simp only [Token.describe, hk]

/-- A refusal is at the end of the input where that is the token. -/
lemma atEnd_iff_of_error {limit : Nat} {t : Token} {why : Refusal} {e : ParseError}
    (h : why.error limit t = .parse e) : e.atEnd = true ↔ t.kind = .endOfInput := by
  cases why with
  | unexpected expected =>
    cases h
    rw [ParseError.atEnd, beq_iff_eq]
    exact describe_eq_iff t
  | tooDeep => cases h

/-- The error is made by `offending`, the first token that is part of no program, and it lists
`expected`, all of which can stand there instead. -/
structure FirstWrong (d : Division) (e : ParseError) (before : List Token) (offending : Token)
    (expected : List Expectation) : Prop where
  error : e = ⟨offending.position, expected.map Expectation.text, offending.describe⟩
  viable : Viable d before
  not_viable : ¬ Viable d (before ++ [offending])
  sound : ∀ x ∈ expected, ∃ t : Token, x.Fits d t.kind ∧ Viable d (before ++ [t])
  atEnd_iff : e.atEnd = true ↔ offending.kind = .endOfInput

/-- A refused token is the first wrong one. -/
lemma firstWrong_of_refuse {before : List Token} {offending : Token} {s : State .program}
    {expected : List Expectation}
    (hw : walk settings (State.initial .program) (before.map Token.kind) = .shift s)
    (hs : step settings s offending.kind = .refuse (.unexpected expected)) :
    FirstWrong settings.division
      ⟨offending.position, expected.map Expectation.text, offending.describe⟩
      before offending expected where
  error := rfl
  viable := by
    obtain ⟨ks, b, closes⟩ := s.completes settings.division
    rw [← List.append_nil before, viable_append_iff hw]
    exact ⟨ks, b, closes⟩
  not_viable := by
    rw [viable_append_iff hw]
    rintro ⟨ks, b, closes⟩
    have refused := (closes_step (by rw [hs]; nofun)).2 closes
    rw [hs] at refused
    exact refused
  sound := by
    intro x hx
    have advice : (step settings s offending.kind).Advises settings.division _ := step_advises s
    rw [hs] at advice
    obtain ⟨k, ks, fits, b, closes⟩ := advice x hx
    refine ⟨⟨k, "", .start⟩, fits, (viable_append_iff hw).2 ⟨ks, b, closes⟩⟩
  atEnd_iff := by
    have error : (Refusal.unexpected expected).error settings.maxDepth offending = .parse _ := rfl
    exact atEnd_iff_of_error error

/-- A parse error stands where the parse stops. -/
lemma firstWrong_of_stop {before : List Token} {item : Item} {answer : Except SyntaxError Block}
    {e : ParseError} (h : Stop settings before item answer) (error : answer = .error (.parse e)) :
    ∃ offending expected, item = .ok offending ∧
      FirstWrong settings.division e before offending expected := by
  cases h with
  | error hw => cases error
  | done hw hs => cases error
  | @refuse s t why hw hs =>
    cases why with
    | unexpected expected =>
      cases error
      exact ⟨t, expected, rfl, firstWrong_of_refuse hw hs⟩
    | tooDeep => cases error

/-- With room, the error is at the end of the input exactly when the tokens in front of it are taken
and the end is refused. -/
lemma exists_atEnd_iff {ts : List Token} (room : (kindsBeforeEnd ts).length < settings.maxDepth) :
    (∃ e, parseItems settings (ts.map .ok) = .error (.parse e) ∧ e.atEnd = true) ↔
      ∃ s why, walk settings (State.initial .program) (kindsBeforeEnd ts) = .shift s ∧
        step settings s .endOfInput = .refuse why := by
  obtain ⟨front, last, more, stream, hl, hf⟩ := exists_split_at_end ts
  have inner := end_notMem_kindsBeforeEnd ts
  rw [← parseItems_withEnd, parseItems_eq, stream]
  rw [← hf] at room inner ⊢
  cases hw : walk settings (State.initial .program) (front.map Token.kind) with
  | shift s =>
    rw [readItems_of_walk hw]
    cases hs : step settings s .endOfInput with
    | shift next => exact absurd hs (step_endOfInput settings s next)
    | done b =>
      rw [readItems_of_done (hl ▸ hs)]
      constructor
      · rintro ⟨e, h, _⟩
        cases h
      · rintro ⟨_, why, ⟨⟩, h⟩
        cases hs.symm.trans h
    | refuse why =>
      rw [readItems_of_refuse (hl ▸ hs)]
      refine ⟨fun _ => ⟨s, why, rfl, hs⟩, fun _ => ?_⟩
      cases why with
      | unexpected expected =>
        have error : (Refusal.unexpected expected).error settings.maxDepth last = .parse _ := rfl
        exact ⟨_, rfl, (atEnd_iff_of_error error).2 hl⟩
      | tooDeep => exact absurd hs (step_endOfInput_ne_tooDeep hw room)
  | done b =>
    -- A program is done at an end only, and none of these kinds is one.
    have mem := State.end_mem (closes_of_walk_done [] hw)
    rw [List.append_nil] at mem
    exact absurd mem inner
  | refuse why =>
    obtain ⟨t, ht, error⟩ := readItems_of_walk_refuse hw
    rw [error]
    constructor
    · rintro ⟨e, h, atEnd⟩
      have hk := (atEnd_iff_of_error (Except.error.inj h)).1 atEnd
      exact absurd (List.mem_map.2 ⟨t, ht, hk⟩) inner
    · rintro ⟨_, _, ⟨⟩, _⟩

/-- Kinds without an end are taken, with the end refused behind them, exactly when they are a proper
prefix of a program. -/
lemma exists_refusal_iff {ks : List Kind} (room : ks.length < settings.maxDepth)
    (inner : .endOfInput ∉ ks) :
    (∃ s why, walk settings (State.initial .program) ks = .shift s ∧
        step settings s .endOfInput = .refuse why) ↔
      ∃ more b, more ≠ [] ∧ DerivesProgram settings.division (ks ++ more) b := by
  constructor
  · rintro ⟨s, why, hw, hs⟩
    obtain ⟨_, b, completes⟩ := s.completes settings.division
    obtain ⟨more, _, _, end_notMem, closes⟩ := State.closes_to_end completes
    refine ⟨more, b, ?_, ?_⟩
    · rintro rfl
      have refused := (closes_step (step_endOfInput_ne_tooDeep hw room)).2 closes
      rw [hs] at refused
      exact refused
    · rw [← closes_initial_iff (by simp [inner, end_notMem]), List.append_assoc]
      exact (closes_of_walk_shift hw).1 closes
  · rintro ⟨more, b, ne, derives⟩
    have end_notMem := derives.end_notMem
    rw [← closes_initial_iff end_notMem, List.append_assoc] at derives
    cases hw : walk settings (State.initial .program) ks with
    | shift s =>
      cases hs : step settings s .endOfInput with
      | shift next => exact absurd hs (step_endOfInput settings s next)
      | done b =>
        -- The program is closed, so what follows would have to be an end.
        obtain ⟨_, _, rfl⟩ := closed_of_step_done hs
        obtain ⟨⟨rest, split⟩, _⟩ := (closes_of_walk_shift hw).2 derives
        obtain ⟨k, more, rfl⟩ := List.exists_cons_of_ne_nil ne
        cases split
        simp at end_notMem
      | refuse why => exact ⟨s, why, rfl, hs⟩
    | done b =>
      have mem := State.end_mem (closes_of_walk_done [] hw)
      rw [List.append_nil] at mem
      exact absurd mem inner
    | refuse why =>
      have refused := (closes_walk (walk_initial_ne_tooDeep room.le)).2 derives
      rw [hw] at refused
      exact refused.elim

/-- A parse error stands at the first token that is part of no program, lists what can stand there
instead, and is at the end of the input where that token is the end. With room for every token, the
parse fails at the end of the input exactly when the tokens are a proper prefix of a program. -/
theorem parse_error_at_first_wrong (settings : Settings) (items : List Item) :
    (∀ e, parseItems settings items = .error (.parse e) →
      ∃ before offending after expected,
        withEnd items = before.map .ok ++ .ok offending :: after ∧
        unpulled settings items = after.dropLast ∧
        FirstWrong settings.division e before offending expected) ∧
    ∀ ts : List Token, items = ts.map .ok → (kindsBeforeEnd ts).length < settings.maxDepth →
      ((∃ e, parseItems settings items = .error (.parse e) ∧ e.atEnd = true) ↔
        ∃ more b, more ≠ [] ∧
          DerivesProgram settings.division (kindsBeforeEnd ts ++ more) b) := by
  constructor
  · intro e error
    obtain ⟨before, item, after, stream, stop, rest⟩ := exists_stop settings items
    obtain ⟨offending, expected, rfl, wrong⟩ := firstWrong_of_stop stop error
    exact ⟨before, offending, after, expected, stream, rest, wrong⟩
  · rintro ts rfl room
    rw [exists_atEnd_iff room]
    exact exists_refusal_iff room (end_notMem_kindsBeforeEnd ts)

/-- The tokens `{` and `;`. -/
def strayTokens : List Token :=
  [⟨.mark .leftBrace, "\x7b", .start⟩, ⟨.mark .semicolon, ";", ⟨1, 1, 2⟩⟩]

/-- In a block, a semicolon is not a statement, and a lone brace lacks the other one. -/
theorem parse_error_in_open_block :
    (∃ before offending after expected,
      withEnd (strayTokens.map .ok) = before.map .ok ++ .ok offending :: after ∧
      unpulled {} (strayTokens.map .ok) = after.dropLast ∧
      FirstWrong .distinct ⟨⟨1, 1, 2⟩, ["`\x7d`", "statement"], "`;`"⟩ before offending expected) ∧
    ∃ more b, more ≠ [] ∧ DerivesProgram .distinct (.mark .leftBrace :: more) b := by
  have semicolon : parseItems {} (strayTokens.map .ok) =
      .error (.parse ⟨⟨1, 1, 2⟩, ["`\x7d`", "statement"], "`;`"⟩) := by
    rw [parseItems_eq, strayTokens, List.map_cons, List.map_cons, readItems_of_shift rfl,
      readItems_of_refuse rfl]
    rfl
  have dry : parseItems {} ((strayTokens.take 1).map .ok) =
      .error (.parse ⟨⟨1, 1, 2⟩, ["`\x7d`", "statement"], "end of input"⟩) := by
    rw [parseItems_eq, strayTokens, List.take_succ_cons, List.take_zero, List.map_cons,
      List.map_nil, readItems_of_shift_dry rfl, readItems_of_refuse rfl]
    rfl
  exact ⟨(parse_error_at_first_wrong {} _).1 _ semicolon,
    ((parse_error_at_first_wrong {} _).2 (strayTokens.take 1) rfl (by decide)).1 ⟨_, dry, rfl⟩⟩

end Quill
