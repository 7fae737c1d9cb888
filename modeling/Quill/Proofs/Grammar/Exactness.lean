import Mathlib.Data.List.TakeWhile
import Quill.Proofs.Grammar.Consumed
import Quill.Proofs.Stream.Reading

/-!
# Exactness of the parser

The parser accepts exactly the programs of the grammar, and gives the tree that the grammar derives.
The tokens up to the first end of the input are all that counts, and a limit above their number is
never reached.
-/

namespace Quill

variable {g : Goal} {settings : Settings}

/-- The kinds of the tokens in front of the first end of the input. -/
def kindsBeforeEnd (ts : List Token) : List Kind :=
  (ts.map Token.kind).takeWhile (· ≠ .endOfInput)

/-- There is no end of the input among the kinds in front of the first one. -/
lemma end_notMem_kindsBeforeEnd (ts : List Token) : .endOfInput ∉ kindsBeforeEnd ts := by
  intro h
  simpa using List.mem_takeWhile_imp h

/-- The kinds in front of the first end, when that end is in sight. -/
lemma kindsBeforeEnd_of_split {ts : List Token} {front after : List Kind}
    (split : ts.map Token.kind = front ++ .endOfInput :: after) (inner : .endOfInput ∉ front) :
    kindsBeforeEnd ts = front := by
  have all : ∀ k ∈ front, (decide (k ≠ .endOfInput)) = true := by
    intro k hk
    simp only [decide_eq_true_eq]
    rintro rfl
    exact inner hk
  rw [kindsBeforeEnd, split, List.takeWhile_append_of_pos all]
  simp

/-- A stream of tokens has those that count, an end, and what is behind it. -/
lemma exists_split_at_end (ts : List Token) :
    ∃ (front : List Token) (last : Token) (more : List Item),
      withEnd (ts.map .ok) = front.map .ok ++ .ok last :: more ∧ last.kind = .endOfInput ∧
        front.map Token.kind = kindsBeforeEnd ts := by
  rw [withEnd]
  generalize endPlace (ts.map .ok) = p
  induction ts with
  | nil => exact ⟨[], .endAt p, [], rfl, rfl, rfl⟩
  | cons t ts ih =>
    by_cases hk : t.kind = .endOfInput
    · exact ⟨[], t, ts.map .ok ++ [.ok (.endAt p)], rfl, hk, by simp [kindsBeforeEnd, hk]⟩
    · obtain ⟨front, last, more, stream, hl, hf⟩ := ih
      exact ⟨t :: front, last, more, by simp [stream], hl, by simp [kindsBeforeEnd, hk, hf]⟩

/-- Reading tokens up to an end gives the tree that the walk over their kinds gives. -/
lemma readItems_eq_ok_iff {r : g.Result} {s : State g} {front : List Token} {last : Token}
    {items : List Item} (hl : last.kind = .endOfInput) :
    (readItems settings s (front.map .ok ++ .ok last :: items)).1 = .ok r ↔
      walk settings s (front.map Token.kind ++ [.endOfInput]) = .done r := by
  induction front generalizing s with
  | nil =>
    rw [List.map_nil, List.map_nil, List.nil_append, List.nil_append,
      walk_cons_of_stays (step_endOfInput settings s)]
    cases hs : step settings s .endOfInput with
    | shift next => exact absurd hs (step_endOfInput settings s next)
    | done result =>
      rw [readItems_of_done (hl ▸ hs)]
      simp
    | refuse why =>
      rw [readItems_of_refuse (hl ▸ hs)]
      simp
  | cons t front ih =>
    rw [List.map_cons, List.map_cons, List.cons_append, List.cons_append, walk]
    cases hs : step settings s t.kind with
    | shift next =>
      rw [← ih]
      cases front with
      | nil => exact Eq.to_iff (by rw [List.map_nil, List.nil_append, readItems_of_shift hs])
      | cons u front =>
        exact Eq.to_iff (by rw [List.map_cons, List.cons_append, readItems_of_shift hs])
    | done result =>
      rw [readItems_of_done hs]
      simp
    | refuse why =>
      rw [readItems_of_refuse hs]
      simp

/-- The initial state is completed by the programs of the grammar. -/
lemma closes_initial_iff {d : Division} {ks : List Kind} {b : Block} (inner : .endOfInput ∉ ks) :
    (State.initial .program).Closes d (ks ++ [.endOfInput]) b ↔ DerivesProgram d ks b := by
  constructor
  · rintro ⟨b', _, hb, ⟨rest, rfl⟩, rfl⟩
    exact derivesProgram_of_rest inner hb
  · intro h
    exact ⟨b, _, h, ⟨_, rfl⟩, rfl⟩

/-- The limit stops no walk over fewer kinds. -/
lemma walk_initial_ne_tooDeep {ks : List Kind} (h : ks.length ≤ settings.maxDepth) :
    walk settings (State.initial .program) ks ≠ .refuse .tooDeep :=
  walk_ne_tooDeep (by simpa [State.initial, State.depth, BlockContext.depth] using h)

/-- With room for every kind, the limit does not stop the step at the end behind them either. -/
lemma step_endOfInput_ne_tooDeep {ks : List Kind} {s : State .program}
    (hw : walk settings (State.initial .program) ks = .shift s)
    (room : ks.length < settings.maxDepth) :
    step settings s .endOfInput ≠ .refuse .tooDeep := by
  have last : walk settings s [.endOfInput] = step settings s .endOfInput :=
    walk_cons_of_stays (step_endOfInput settings s)
  rw [← last, ← walk_append hw]
  exact walk_initial_ne_tooDeep (by simpa using Nat.succ_le_of_lt room)

/-- With a limit above the number of tokens, a parse gives a tree exactly when the tokens in front
of the end, and an end, complete the initial state. -/
lemma parseItems_eq_ok_iff_closes {ts : List Token} {b : Block}
    (room : (kindsBeforeEnd ts).length < settings.maxDepth) :
    parseItems settings (ts.map .ok) = .ok b ↔
      (State.initial .program).Closes settings.division (kindsBeforeEnd ts ++ [.endOfInput]) b := by
  obtain ⟨front, last, more, stream, hl, hf⟩ := exists_split_at_end ts
  have free : walk settings (State.initial .program) (kindsBeforeEnd ts ++ [.endOfInput]) ≠
      .refuse .tooDeep :=
    walk_initial_ne_tooDeep (by simpa using Nat.succ_le_of_lt room)
  rw [← parseItems_withEnd, parseItems_eq, stream, readItems_eq_ok_iff hl, hf]
  exact walk_eq_done_iff free

/-- With a limit above the number of tokens, a parse gives a tree exactly when the tokens in front
of the end derive that tree. -/
theorem parseItems_eq_ok_iff_derives (settings : Settings) (ts : List Token) (b : Block)
    (room : (kindsBeforeEnd ts).length < settings.maxDepth) :
    parseItems settings (ts.map .ok) = .ok b ↔
      DerivesProgram settings.division (kindsBeforeEnd ts) b := by
  rw [parseItems_eq_ok_iff_closes room]
  exact closes_initial_iff (end_notMem_kindsBeforeEnd ts)

/-- The kinds of `{ print f(x -y z) < !w / ""; }`, an end, and a stray semicolon. -/
def sampleKinds : List Kind :=
  [.mark .leftBrace, Keyword.kwPrint.kind, .word "f", .mark .leftParen, .word "x",
    .operator .minus, .word "y", .word "z", .mark .rightParen, .operator .less, .operator .bang,
    .word "w", .operator .slash, .string "", .mark .semicolon, .mark .rightBrace, .endOfInput,
    .mark .semicolon]

/-- A sign behind an argument subtracts, `!` takes all that follows, and what stands behind the end
does not count. -/
theorem derives_sample :
    let ts : List Token := sampleKinds.map fun k => ⟨k, "", .start⟩
    (kindsBeforeEnd ts).length < 17 ∧
      DerivesProgram .legacySubtraction (kindsBeforeEnd ts)
        [.print (.binary .lt
          (.call "f" [.binary .sub (.ref "x") (.ref "y"), .ref "z"])
          (.unary .not (.binary .sub (.ref "w") (.string ""))))] :=
  ⟨by decide,
    (parseItems_eq_ok_iff_derives ⟨.legacySubtraction, 17⟩ _ _ (by decide)).1 (by cbv)⟩

end Quill
