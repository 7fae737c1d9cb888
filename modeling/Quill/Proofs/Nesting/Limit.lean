import Mathlib.Data.List.Basic
import Quill.Proofs.Grammar.Exactness
import Quill.Proofs.Nesting.Reading
import Quill.Proofs.Stream.FirstError

/-!
# The nesting limit

The limit stops a program exactly when one of its levels is beyond it, and at the first token whose
level is. That level is one more than the limit: a walk that the limit has not stopped is never
deeper than the limit, and a token opens at most one level (`level_of_gate`).
-/

namespace Quill

variable {g : Goal} {d : Division} {m : Nat}

/-! ## The depth of a walk -/

/-- A walk that begins within the limit stays within it. -/
lemma depth_of_walk {s next : State g} {ks : List Kind} (hs : s.depth ≤ m)
    (hw : walk ⟨d, m⟩ s ks = .shift next) : next.depth ≤ m := by
  induction ks generalizing s with
  | nil =>
    cases hw
    exact hs
  | cons k ks ih =>
    rw [walk] at hw
    split at hw
    · rename_i mid hk
      exact ih (depth_of_shift hk hs) hw
    · cases hw
    · cases hw

/-- A level that stops a state within the limit is one more than the limit. -/
lemma level_of_gate {s : State g} {k : Kind} {l : Nat} {move : Move g} (hs : s.depth ≤ m)
    (deep : m < l) (gated : ∀ limit, step ⟨d, limit⟩ s k = gate limit l move) : l = m + 1 := by
  -- The limit just below the level stops the step as well, so the state is as deep as that.
  have stopped : step ⟨d, l - 1⟩ s k = .refuse .tooDeep := by
    rw [gated, gate_of_lt (by omega)]
  have : l - 1 ≤ s.depth := le_depth_of_tooDeep stopped
  omega

/-! ## Walking over levelled kinds -/

/-- Under a limit that no level is beyond, the walk gives the tree. -/
lemma Reads.walk_eq_done {r : g.Result} {moves : Nat → Kind → Move g} {ks : List Levelled}
    (reads : Reads d r moves ks) (within : ∀ x ∈ ks, x.2 ≤ m) {s : State g}
    (hs : ∀ limit k, moves limit k = step ⟨d, limit⟩ s k) :
    walk ⟨d, m⟩ s (kindsOf ks) = .done r := by
  induction reads generalizing s with
  | shift gated _ ih =>
    obtain ⟨hl, within⟩ := List.forall_mem_cons.1 within
    have taken := (hs m _).symm.trans ((gated m).trans (gate_of_le hl))
    rw [kindsOf, List.map_cons, walk_cons_of_shift taken]
    exact ih within fun _ _ => rfl
  | done gated =>
    have done := (hs m _).symm.trans ((gated m).trans (gate_of_le (within _ List.mem_cons_self)))
    rw [kindsOf, List.map_cons, walk, done]

/-- Under a smaller limit, the walk takes the tokens in front of the first level beyond it, and that
level stops the next step. -/
lemma Reads.exists_too_deep {r : g.Result} {moves : Nat → Kind → Move g} {ks : List Levelled}
    (reads : Reads d r moves ks) (deep : ∃ x ∈ ks, m < x.2) {s : State g}
    (hs : ∀ limit k, moves limit k = step ⟨d, limit⟩ s k) :
    ∃ front k l back next move, ks = front ++ (k, l) :: back ∧ (∀ x ∈ front, x.2 ≤ m) ∧ m < l ∧
      walk ⟨d, m⟩ s (kindsOf front) = .shift next ∧
      ∀ limit, step ⟨d, limit⟩ next k = gate limit l move := by
  induction reads generalizing s with
  | @shift _ next k l ks gated _ ih =>
    by_cases hl : l ≤ m
    · have taken := (hs m _).symm.trans ((gated m).trans (gate_of_le hl))
      obtain ⟨x, hx, hm⟩ := deep
      have later : ∃ x ∈ ks, m < x.2 := by
        cases hx with
        | head => exact absurd hl (Nat.not_le_of_lt hm)
        | tail _ hx => exact ⟨x, hx, hm⟩
      obtain ⟨front, k', l', back, last, move, rfl, within, beyond, hw, gated'⟩ :=
        ih later fun _ _ => rfl
      refine ⟨(k, l) :: front, k', l', back, last, move, rfl, ?_, beyond, ?_, gated'⟩
      · exact List.forall_mem_cons.2 ⟨hl, within⟩
      · rw [kindsOf, List.map_cons, walk_cons_of_shift taken]
        exact hw
    · exact ⟨[], k, l, ks, s, _, rfl, List.forall_mem_nil _, Nat.lt_of_not_le hl, rfl,
        fun limit => (hs limit k).symm.trans (gated limit)⟩
  | @done _ k l gated =>
    obtain ⟨x, hx, hm⟩ := deep
    obtain rfl := List.mem_singleton.1 hx
    exact ⟨[], k, l, [], s, _, rfl, List.forall_mem_nil _, hm, rfl,
      fun limit => (hs limit k).symm.trans (gated limit)⟩

/-! ## Programs -/

/-- The deepest level is within a limit exactly if every level is. -/
lemma deepest_le_iff {levels : List Nat} : deepest levels ≤ m ↔ ∀ l ∈ levels, l ≤ m := by
  induction levels with
  | nil => simp [deepest]
  | cons l levels ih =>
    rw [List.forall_mem_cons, ← ih]
    exact max_le_iff

/-- The deepest level is beyond a limit exactly if some level is. -/
lemma lt_deepest_iff {levels : List Nat} : m < deepest levels ↔ ∃ l ∈ levels, m < l := by
  rw [← Nat.not_le, deepest_le_iff]
  push Not
  rfl

variable {ks : List Kind} {levels : List Nat} {b : Block}

/-- The kinds and the levels of a program side by side have the kinds of the program. -/
lemma LevelsProgram.fst_zip (h : LevelsProgram d ks levels b) :
    kindsOf (ks.zip levels ++ [(.endOfInput, 0)]) = ks ++ [.endOfInput] := by
  simp [kindsOf, List.map_fst_zip h.1.ge]

/-- The kinds and the levels of a program side by side have the levels of the program. -/
lemma LevelsProgram.snd_zip (h : LevelsProgram d ks levels b) :
    (ks.zip levels).map Prod.snd = levels :=
  List.map_snd_zip h.1.le

/-- Within the limit, the program is read to its end. -/
lemma LevelsProgram.walk_eq_done (h : LevelsProgram d ks levels b) (hm : deepest levels ≤ m) :
    walk ⟨d, m⟩ (State.initial .program) (ks ++ [.endOfInput]) = .done b := by
  rw [← h.fst_zip]
  refine h.reads.walk_eq_done ?_ fun _ _ => rfl
  intro x hx
  obtain hx | hx := List.mem_append.1 hx
  · refine deepest_le_iff.1 hm x.2 ?_
    rw [← h.snd_zip]
    exact List.mem_map_of_mem hx
  · obtain rfl := List.mem_singleton.1 hx
    exact Nat.zero_le m

/-- Beyond the limit, the walk stops at the first token of the level behind the limit. -/
lemma LevelsProgram.exists_too_deep (h : LevelsProgram d ks levels b) (hm : m < deepest levels) :
    ∃ front k back s, ks = front ++ k :: back ∧ levels.idxOf (m + 1) = front.length ∧
      walk ⟨d, m⟩ (State.initial .program) front = .shift s ∧
      step ⟨d, m⟩ s k = .refuse .tooDeep := by
  obtain ⟨l, hl, deep⟩ := lt_deepest_iff.1 hm
  rw [← h.snd_zip] at hl
  obtain ⟨x, hx, rfl⟩ := List.mem_map.1 hl
  obtain ⟨front, k, l, back, s, move, split, within, beyond, hw, gated⟩ :=
    h.reads.exists_too_deep ⟨x, List.mem_append_left _ hx, deep⟩ fun _ _ => rfl
  obtain rfl := level_of_gate (depth_of_walk (Nat.zero_le m) hw) beyond gated
  -- The end of the input carries no level, so the split lies within the program.
  obtain rfl | ⟨back, last, rfl⟩ := List.eq_nil_or_concat back
  · cases (List.append_inj' split rfl).2
  · rw [List.concat_eq_append, ← List.cons_append, ← List.append_assoc] at split
    have inner := (List.append_inj' split rfl).1
    refine ⟨kindsOf front, k, kindsOf back, s, ?_, ?_, hw, ?_⟩
    · rw [← List.map_fst_zip h.1.ge, inner, List.map_append, List.map_cons]
    · have absent : m + 1 ∉ front.map Prod.snd := by
        intro hmem
        obtain ⟨x, hx, same⟩ := List.mem_map.1 hmem
        have := within x hx
        omega
      rw [← h.snd_zip, inner, List.map_append, List.map_cons, List.idxOf_append_of_notMem absent,
        List.idxOf_cons_self]
      simp
    · rw [gated, gate_of_lt beyond]

/-! ## Parses -/

variable {items : List Item}

/-- A parse that gives a tree has read a program up to an end. -/
lemma exists_program_of_parse (h : parseItems ⟨d, m⟩ items = .ok b) :
    ∃ (ts : List Token) (last : Token) (after : List Item),
      withEnd items = ts.map .ok ++ .ok last :: after ∧ last.kind = .endOfInput ∧
      DerivesProgram d (ts.map Token.kind) b := by
  obtain ⟨ts, item, after, stream, stop, _⟩ := exists_stop ⟨d, m⟩ items
  obtain ⟨last, rfl, hl⟩ := end_of_stop stop h
  refine ⟨ts, last, after, stream, hl, ?_⟩
  have inner : .endOfInput ∉ ts.map Token.kind := by
    intro hmem
    obtain ⟨t, ht, hk⟩ := List.mem_map.1 hmem
    exact stop.kind_ne_endOfInput t ht hk
  rw [← parseItems_withEnd, parseItems_eq, stream, readItems_eq_ok_iff hl] at h
  rw [← closes_initial_iff inner]
  simpa using closes_of_walk_done [] h

variable {ts : List Token} {last : Token} {after : List Item}

/-- A program within the limit gives its tree. -/
lemma LevelsProgram.parse_eq_ok (h : LevelsProgram d (ts.map Token.kind) levels b)
    (stream : withEnd items = ts.map .ok ++ .ok last :: after) (hl : last.kind = .endOfInput)
    (hm : deepest levels ≤ m) : parseItems ⟨d, m⟩ items = .ok b := by
  rw [← parseItems_withEnd, parseItems_eq, stream, readItems_eq_ok_iff hl]
  exact h.walk_eq_done hm

/-- A program beyond the limit is refused at the first token of the level behind the limit. -/
lemma LevelsProgram.parse_eq_error (h : LevelsProgram d (ts.map Token.kind) levels b)
    (stream : withEnd items = ts.map .ok ++ .ok last :: after) (hm : m < deepest levels) :
    ∃ t, ts[levels.idxOf (m + 1)]? = some t ∧
      parseItems ⟨d, m⟩ items = .error (.nestingTooDeep t.position m) := by
  obtain ⟨front, k, back, s, split, place, hw, hs⟩ := h.exists_too_deep hm
  obtain ⟨before, rest, rfl, rfl, hrest⟩ := List.map_eq_append_iff.1 split
  obtain ⟨t, rest, rfl, rfl, _⟩ := List.map_eq_cons_iff.1 hrest
  refine ⟨t, by simp [place], ?_⟩
  have stop : Stop ⟨d, m⟩ before (.ok t) (.error (.nestingTooDeep t.position m)) := .refuse hw hs
  have stream' : withEnd items =
      before.map .ok ++ .ok t :: (rest.map .ok ++ .ok last :: after) := by
    rw [stream]
    simp
  exact stop.parseItems stream'

/-- The nesting limit is exact and monotone. A stream that is accepted under one limit is a program
up to an end, with levels. Under every limit that none of them is beyond, the same tree comes out,
and under every other limit the first token of the level behind the limit is refused. An error that
is not about nesting stays under every greater limit. -/
theorem parse_limit_exact (d : Division) (items : List Item) :
    (∀ limit b, parseItems ⟨d, limit⟩ items = .ok b →
      ∃ (ts : List Token) (last : Token) (after : List Item),
        withEnd items = ts.map .ok ++ .ok last :: after ∧ last.kind = .endOfInput ∧
        (∃ levels, LevelsProgram d (ts.map Token.kind) levels b) ∧
        ∀ levels, LevelsProgram d (ts.map Token.kind) levels b → ∀ m,
          (deepest levels ≤ m → parseItems ⟨d, m⟩ items = .ok b) ∧
          (m < deepest levels → ∃ t, ts[levels.idxOf (m + 1)]? = some t ∧
            parseItems ⟨d, m⟩ items = .error (.nestingTooDeep t.position m))) ∧
    ∀ m m' error, m ≤ m' → parseItems ⟨d, m⟩ items = .error error →
      (∀ p limit, error ≠ .nestingTooDeep p limit) →
      parseItems ⟨d, m'⟩ items = .error error := by
  constructor
  · intro limit b parsed
    obtain ⟨ts, last, after, stream, hl, derived⟩ := exists_program_of_parse parsed
    refine ⟨ts, last, after, stream, hl, derived.exists_levels, fun levels h m => ?_⟩
    exact ⟨h.parse_eq_ok stream hl, h.parse_eq_error stream⟩
  · intro m m' error hm failed free
    refine parseItems_mono hm failed fun p same => ?_
    exact free p m (Except.error.inj same)

/-- The levels are one at the brace, two at the sign, three at the parenthesis and four at the word
inside it. -/
example : parseText ⟨.distinct, 3⟩ "\x7b print -(none); \x7d" =
    .error (.nestingTooDeep ⟨10, 1, 11⟩ 3) := by cbv

end Quill
