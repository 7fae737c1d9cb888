import Quill.Proofs.Grammar.Levels
import Quill.Proofs.Grammar.Simulation

/-!
# Walking over kinds

The machine on a list of kinds, without places, errors and streams: `walk settings s ks` is the move
that comes of reading `ks` from the state `s`. The single steps add up here: a walk keeps what the
grammar says (`closes_walk`), and it is never stopped by a limit that is as large as the number of
kinds and the levels already open (`walk_ne_tooDeep`).
-/

namespace Quill

variable {g : Goal} {settings : Settings}

/-- Reads the kinds from a state up to the first that is not taken. When all are taken, the walk
stands in front of whatever follows. -/
def walk (settings : Settings) : State g → List Kind → Move g
  | s, [] => .shift s
  | s, k :: ks =>
    match step settings s k with
    | .shift next => walk settings next ks
    | .done result => .done result
    | .refuse why => .refuse why

/-- A walk goes on behind a token that is taken. -/
lemma walk_cons_of_shift {s next : State g} {k : Kind} {ks : List Kind}
    (h : step settings s k = .shift next) : walk settings s (k :: ks) = walk settings next ks := by
  rw [walk, h]

/-- A walk ends at a token that is not taken. -/
lemma walk_cons_of_stays {s : State g} {k : Kind} {ks : List Kind}
    (h : (step settings s k).Stays) : walk settings s (k :: ks) = step settings s k := by
  rw [walk]
  split
  · rename_i next hs
    exact absurd hs (h next)
  · rename_i hs
    exact hs.symm
  · rename_i hs
    exact hs.symm

/-- A walk goes on from where its first part stopped. -/
lemma walk_append {s next : State g} {ks ls : List Kind} (h : walk settings s ks = .shift next) :
    walk settings s (ks ++ ls) = walk settings next ls := by
  induction ks generalizing s with
  | nil =>
    cases h
    rfl
  | cons k ks ih =>
    rw [walk] at h
    split at h
    · rename_i hs
      rw [List.cons_append, walk_cons_of_shift hs]
      exact ih h
    · cases h
    · cases h

/-- A walk over the end of the input stops there at the latest. -/
lemma walk_stays (s : State g) (ks : List Kind) :
    (walk settings s (ks ++ [.endOfInput])).Stays := by
  induction ks generalizing s with
  | nil =>
    have stays := step_endOfInput settings s
    rw [List.nil_append, walk_cons_of_stays stays]
    exact stays
  | cons k ks ih =>
    rw [List.cons_append, walk]
    split
    · exact ih _
    · exact Move.stays_done _
    · exact Move.stays_refuse _

/-- A walk keeps exactly what the grammar says, unless the nesting limit stops it. -/
theorem closes_walk {r : g.Result} {s : State g} {ks ls : List Kind}
    (free : walk settings s ks ≠ .refuse .tooDeep) :
    (walk settings s ks).Closes settings.division ls r ↔
      s.Closes settings.division (ks ++ ls) r := by
  induction ks generalizing s with
  | nil => exact Iff.rfl
  | cons k ks ih =>
    have step_free : step settings s k ≠ .refuse .tooDeep := by
      intro h
      rw [walk, h] at free
      exact free rfl
    rw [List.cons_append, ← closes_step step_free]
    rw [walk] at free ⊢
    split
    · rename_i hs
      rw [hs] at free ⊢
      exact ih free
    -- A step that stays ends the walk, and the kinds behind it are not looked at.
    · rename_i hs
      rw [hs]
      exact Iff.rfl
    · rename_i hs
      rw [hs]
      exact Iff.rfl

/-- Behind the kinds that a walk takes, what completes the state it reaches completes the first. -/
lemma closes_of_walk_shift {r : g.Result} {s next : State g} {ks ls : List Kind}
    (hw : walk settings s ks = .shift next) :
    next.Closes settings.division ls r ↔ s.Closes settings.division (ks ++ ls) r := by
  rw [← closes_walk (by rw [hw]; nofun), hw]
  exact Iff.rfl

/-- A walk that is done took kinds that complete the state. -/
lemma closes_of_walk_done {r : g.Result} {s : State g} {ks : List Kind} (ls : List Kind)
    (hw : walk settings s ks = .done r) : s.Closes settings.division (ks ++ ls) r := by
  rw [← closes_walk (by rw [hw]; nofun), hw]
  exact rfl

/-- A walk that reaches the end of the input gives a tree exactly when the grammar does. -/
theorem walk_eq_done_iff {r : g.Result} {s : State g} {ks : List Kind}
    (free : walk settings s (ks ++ [.endOfInput]) ≠ .refuse .tooDeep) :
    walk settings s (ks ++ [.endOfInput]) = .done r ↔
      s.Closes settings.division (ks ++ [.endOfInput]) r := by
  have closes : (walk settings s (ks ++ [.endOfInput])).Closes settings.division [] r ↔
      s.Closes settings.division ((ks ++ [.endOfInput]) ++ []) r := closes_walk free
  rw [List.append_nil] at closes
  rw [← closes]
  cases hw : walk settings s (ks ++ [.endOfInput]) with
  | shift next => exact absurd hw (walk_stays s ks next)
  | done result =>
    constructor
    · rintro ⟨⟩
      rfl
    · rintro ⟨⟩
      rfl
  | refuse why => exact ⟨nofun, False.elim⟩

/-- With room for every kind to open a level, the limit stops no walk. -/
lemma walk_ne_tooDeep {s : State g} {ks : List Kind}
    (h : s.depth + ks.length ≤ settings.maxDepth) : walk settings s ks ≠ .refuse .tooDeep := by
  induction ks generalizing s with
  | nil => nofun
  | cons k ks ih =>
    rw [List.length_cons] at h
    rw [walk]
    split
    · rename_i next hs
      have := depth_of_step hs
      exact ih (by omega)
    · nofun
    · rename_i why hs
      rw [← hs]
      exact step_ne_tooDeep (by omega)

end Quill
