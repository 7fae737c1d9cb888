import Mathlib.Tactic.Common
import Quill.Proofs.Grammar.Walk
import Quill.Proofs.Stream.Stopping

/-!
# One limit against another

The nesting limit enters a step in one place at most: the token opens a level or it does not, and
the limit is compared with that level alone (`gated_step`). So two parses that differ only in the
limit make the same moves up to the first token that is nested too deep for one of them, and raising
the limit changes no answer but that one (`parseItems_mono`).
-/

namespace Quill

variable {g : Goal} {d : Division}

/-- The move, unless it opens a level `l` beyond the limit. -/
def gate (limit l : Nat) (m : Move g) : Move g :=
  if l ≤ limit then m else .refuse .tooDeep

/-- A level within the limit may be opened. -/
lemma gate_of_le {limit l : Nat} {m : Move g} (h : l ≤ limit) : gate limit l m = m :=
  if_pos h

/-- A level beyond the limit is refused. -/
lemma gate_of_lt {limit l : Nat} {m : Move g} (h : limit < l) :
    gate limit l m = .refuse .tooDeep :=
  if_neg (Nat.not_le_of_lt h)

/-- Where no level opens, no limit stops the move. -/
@[simp] lemma gate_zero (limit : Nat) (m : Move g) : gate limit 0 m = m :=
  gate_of_le (Nat.zero_le _)

/-- The moves under all limits are one move behind one level. -/
def Gated (moves : Nat → Move g) : Prop :=
  ∃ l m, ∀ limit, moves limit = gate limit l m

/-- A move that is not stopped by the limit is the same under every greater limit. -/
lemma Gated.mono {moves : Nat → Move g} (h : Gated moves) {m n : Nat} (hn : m ≤ n)
    (free : moves m ≠ .refuse .tooDeep) : moves n = moves m := by
  obtain ⟨l, move, gated⟩ := h
  rw [gated] at free
  rw [gated, gated]
  by_cases hl : l ≤ m
  · rw [gate_of_le hl, gate_of_le (Nat.le_trans hl hn)]
  · exact absurd (gate_of_lt (Nat.lt_of_not_le hl)) free

/-! ## Each function of the step -/

/-- A move that does not look at the limit opens no level. -/
lemma gated_const (m : Move g) : Gated fun _ => m :=
  ⟨0, m, fun limit => (gate_zero limit m).symm⟩

/-- A move behind the check of a level opens that level. -/
lemma gated_openLevel (n : Nat) (m : Move g) : Gated fun limit => openLevel ⟨d, limit⟩ n m :=
  ⟨n + 1, m, fun _ => rfl⟩

/-- An expression that begins opens one level, whatever its first token. -/
lemma gated_beginExpression (outer : ExprContext g) (k : Kind) :
    Gated fun limit => beginExpression ⟨d, limit⟩ outer k :=
  gated_openLevel _ _

/-- A block that begins opens one level. -/
lemma gated_beginBlock (outer : BlockContext g) (k : Kind) :
    Gated fun limit => beginBlock ⟨d, limit⟩ outer k :=
  gated_openLevel _ _

/-- A statement that begins opens one level at most. -/
lemma gated_beginStatement (outer : StmtContext g) (k : Kind) :
    Gated fun limit => beginStatement ⟨d, limit⟩ outer k := by
  unfold beginStatement
  split
  case h_8 => exact gated_beginExpression _ k
  all_goals exact gated_const _

/-- Between the statements of a block, one level opens at most. -/
lemma gated_continueBlock (earlier : List Stmt) (outer : BlockContext g) (k : Kind) :
    Gated fun limit => continueBlock ⟨d, limit⟩ earlier outer k := by
  unfold continueBlock
  split
  · exact gated_const _
  · split
    · exact gated_beginStatement _ k
    · exact gated_const _

/-- Between the arguments of a call, one level opens at most. -/
lemma gated_continueCall (f : String) (args : List Expr) (outer : FactorContext g) (k : Kind) :
    Gated fun limit => continueCall ⟨d, limit⟩ f args outer k := by
  unfold continueCall
  split
  · exact gated_const _
  · split
    · exact gated_beginExpression _ k
    · exact gated_const _

/-- Behind an expression, one level opens at most. -/
lemma gated_finishExpression (k : Kind) : ∀ (e : Expr) (outer : ExprContext g),
    Gated fun limit => finishExpression ⟨d, limit⟩ e outer k
  | _, .whole _ => gated_const _
  | _, .not outer => gated_finishExpression k _ outer
  | _, .compare _ _ outer => gated_finishExpression k _ outer
  | _, .group _ => gated_const _
  | _, .argument f _ outer => gated_continueCall f _ outer k
  | _, .assign _ _ _ => gated_const _
  | _, .giveBack _ => gated_const _
  | _, .print _ => gated_const _
  | _, .expression _ => gated_const _
  | _, .branch _ _ => gated_beginBlock _ k
  | _, .loop _ => gated_beginBlock _ k

/-- Behind a term, one level opens at most. -/
lemma gated_continueSum (e : Expr) (outer : ExprContext g) (k : Kind) :
    Gated fun limit => continueSum ⟨d, limit⟩ e outer k := by
  unfold continueSum
  split
  · exact gated_const _
  · exact gated_finishExpression k e outer

/-- Behind the operand of a sum, one level opens at most. -/
lemma gated_finishTerm (e : Expr) (outer : TermContext g) (k : Kind) :
    Gated fun limit => finishTerm ⟨d, limit⟩ e outer k := by
  unfold finishTerm
  split
  · split
    · exact gated_const _
    · exact gated_continueSum _ _ k
  · exact gated_continueSum _ _ k

/-- Behind a factor, one level opens at most. -/
lemma gated_continueProduct (e : Expr) (outer : TermContext g) (k : Kind) :
    Gated fun limit => continueProduct ⟨d, limit⟩ e outer k := by
  unfold continueProduct
  dsimp only
  split
  · exact gated_const _
  · exact gated_finishTerm e outer k

/-- Behind the operand of a product or of a sign, one level opens at most. -/
lemma gated_finishFactor (k : Kind) : ∀ (e : Expr) (outer : FactorContext g),
    Gated fun limit => finishFactor ⟨d, limit⟩ e outer k
  | _, .first outer => gated_continueProduct _ outer k
  | _, .product _ _ outer => gated_continueProduct _ outer k
  | _, .signed _ outer => gated_finishFactor k _ outer

/-- Behind a name, one level opens at most. -/
lemma gated_finishName (x : String) (outer : FactorContext g) (k : Kind) :
    Gated fun limit => finishName ⟨d, limit⟩ x outer k := by
  unfold finishName
  split
  · exact gated_const _
  · exact gated_finishFactor k _ outer

/-- A step compares the limit with one level at most. -/
theorem gated_step (s : State g) (k : Kind) : Gated fun limit => step ⟨d, limit⟩ s k := by
  cases s with
  | block outer => exact gated_beginBlock outer k
  | statements earlier outer => exact gated_continueBlock earlier outer k
  | statement outer => exact gated_beginStatement outer k
  | expression outer => exact gated_beginExpression outer k
  | operand negate outer => exact gated_openLevel _ _
  | name x outer => exact gated_finishName x outer k
  | arguments f args outer => exact gated_continueCall f args outer k
  | value e outer => exact gated_finishFactor k e outer
  | _ => exact gated_const _

/-! ## Whole runs -/

variable {m n : Nat}

/-- A walk that the limit does not stop is the same under every greater limit. -/
theorem walk_mono (hn : m ≤ n) {s : State g} {ks : List Kind}
    (free : walk ⟨d, m⟩ s ks ≠ .refuse .tooDeep) : walk ⟨d, n⟩ s ks = walk ⟨d, m⟩ s ks := by
  induction ks generalizing s with
  | nil => rfl
  | cons k ks ih =>
    rw [walk] at free
    have same : step ⟨d, n⟩ s k = step ⟨d, m⟩ s k := by
      apply (gated_step s k).mono hn
      intro deep
      rw [deep] at free
      exact free rfl
    rw [walk, walk, same]
    split at free
    · exact ih free
    · rfl
    · rfl

/-- A step that the limit does not stop is the same under a greater limit. -/
lemma step_mono (hn : m ≤ n) {s : State g} {k : Kind} {move : Move g}
    (h : step ⟨d, m⟩ s k = move) (free : move ≠ .refuse .tooDeep) :
    step ⟨d, n⟩ s k = move := by
  rw [← h] at free ⊢
  exact (gated_step s k).mono hn free

/-- Where a parse stops for another reason than the limit, it stops under every greater limit, with
the same answer. -/
lemma Stop.mono (hn : m ≤ n) {before : List Token} {item : Item}
    {answer : Except SyntaxError Block} (h : Stop ⟨d, m⟩ before item answer)
    (free : ∀ p, answer ≠ .error (.nestingTooDeep p m)) : Stop ⟨d, n⟩ before item answer := by
  have taken : ∀ {s : State .program},
      walk ⟨d, m⟩ (State.initial .program) (before.map Token.kind) = .shift s →
      walk ⟨d, n⟩ (State.initial .program) (before.map Token.kind) = .shift s := by
    intro s hw
    rw [← hw]
    exact walk_mono hn (by rw [hw]; nofun)
  cases h with
  | error hw => exact .error (taken hw)
  | done hw hs => exact .done (taken hw) (step_mono hn hs nofun)
  | @refuse s t why hw hs =>
    cases why with
    | tooDeep => exact absurd rfl (free t.position)
    | unexpected _ => exact .refuse (taken hw) (step_mono hn hs nofun)

/-- A parse that is not stopped by the limit gives the same answer under every greater limit. -/
theorem parseItems_mono (hn : m ≤ n) {items : List Item} {answer : Except SyntaxError Block}
    (h : parseItems ⟨d, m⟩ items = answer) (free : ∀ p, answer ≠ .error (.nestingTooDeep p m)) :
    parseItems ⟨d, n⟩ items = answer := by
  obtain ⟨before, item, after, stream, stop, _⟩ := exists_stop ⟨d, m⟩ items
  rw [h] at stop
  exact (stop.mono hn free).parseItems stream

end Quill
