import Mathlib.Tactic.Common
import Quill.Grammar.Step

/-!
# Levels

How far one step can raise the depth of a state. A step opens at most one level, and it opens one
only below the limit, so from a state of depth `n` the next state has depth `n` at most, or `n + 1`
if `n` is less than the limit (`fits_step`). The same lemma says when the limit stops a step: never
below it.
-/

namespace Quill

variable {g : Goal} {settings : Settings} {n : Nat}

/-- The move opens no level beyond the depth `n` and is not stopped by the limit. -/
def Move.Within (n : Nat) : Move g → Prop
  | .shift next => next.depth ≤ n
  | .done _ => True
  | .refuse why => why ≠ .tooDeep

/-- The move opens at most one level beyond the depth `n`, and only below the limit. -/
def Move.Fits (settings : Settings) (n : Nat) : Move g → Prop
  | .shift next => next.depth ≤ n ∨ (next.depth = n + 1 ∧ n < settings.maxDepth)
  | .done _ => True
  | .refuse why => why = .tooDeep → settings.maxDepth ≤ n

/-- A move that opens no level fits every limit. -/
lemma Move.Within.fits {m : Move g} (h : m.Within n) : m.Fits settings n := by
  cases m with
  | shift next => exact .inl h
  | done _ => trivial
  | refuse why => exact fun hw => absurd hw h

/-- What fits at a depth fits at every greater one. -/
lemma Move.Fits.mono {m : Move g} {n' : Nat} (h : m.Fits settings n) (hn : n ≤ n') :
    m.Fits settings n' := by
  cases m with
  | shift next =>
    simp only [Fits] at h ⊢
    omega
  | done _ => trivial
  | refuse why => exact fun hw => Nat.le_trans (h hw) hn

/-- Opening a level fits where the move behind it stays one level further in. -/
lemma fits_openLevel {m : Move g} (h : m.Within (n + 1)) :
    (openLevel settings n m).Fits settings n := by
  unfold openLevel
  split
  · rename_i hn
    cases m with
    | shift next =>
      simp only [Move.Within, Move.Fits] at h ⊢
      omega
    | done _ => trivial
    | refuse why => exact fun hw => absurd hw h
  · rename_i hn
    exact fun _ => Nat.le_of_not_lt hn

/-- A factor that begins opens no level by itself. -/
lemma within_beginFactor (outer : FactorContext g) (k : Kind) :
    (beginFactor outer k).Within outer.depth := by
  unfold beginFactor
  split
  case h_6 => split <;> first | exact Nat.le_refl _ | nofun
  all_goals first | exact Nat.le_refl _ | nofun

/-- An expression that begins opens one level. -/
lemma fits_beginExpression (outer : ExprContext g) (k : Kind) :
    (beginExpression settings outer k).Fits settings outer.depth := by
  unfold beginExpression
  apply fits_openLevel
  split
  · exact Nat.le_refl _
  · exact within_beginFactor (.first (.first outer)) k

/-- A block that begins opens one level. -/
lemma fits_beginBlock (outer : BlockContext g) (k : Kind) :
    (beginBlock settings outer k).Fits settings outer.depth := by
  unfold beginBlock
  apply fits_openLevel
  split
  · exact Nat.le_refl _
  · nofun

/-- A statement that begins opens the level of its expression, if it begins with one. -/
lemma fits_beginStatement (outer : StmtContext g) (k : Kind) :
    (beginStatement settings outer k).Fits settings outer.depth := by
  unfold beginStatement
  split
  case h_8 => exact fits_beginExpression _ k
  all_goals exact .inl (Nat.le_refl _)

/-- Between the statements of a block, a level opens on top of the block's own. -/
lemma fits_continueBlock (earlier : List Stmt) (outer : BlockContext g) (k : Kind) :
    (continueBlock settings earlier outer k).Fits settings (outer.depth + 1) := by
  unfold continueBlock
  split
  · exact .inl (Nat.le_succ _)
  · split
    · exact fits_beginStatement _ k
    · nofun

/-- Between the arguments of a call, a level opens for the next argument. -/
lemma fits_continueCall (f : String) (args : List Expr) (outer : FactorContext g) (k : Kind) :
    (continueCall settings f args outer k).Fits settings outer.depth := by
  unfold continueCall
  split
  · exact .inl (Nat.le_refl _)
  · split
    · exact fits_beginExpression _ k
    · nofun

/-- Behind a statement, no level opens. -/
lemma within_finishStatement (s : Stmt) (outer : StmtContext g) (k : Kind) :
    (finishStatement s outer k).Within outer.depth := by
  unfold finishStatement
  split
  · trivial
  · split
    · exact Nat.le_refl _
    · nofun

/-- Behind a block, no level opens. -/
lemma within_finishBlock (b : Block) (outer : BlockContext g) (k : Kind) :
    (finishBlock b outer k).Within outer.depth := by
  unfold finishBlock
  split
  · trivial
  · split
    · trivial
    · nofun
  · exact within_finishStatement _ _ k
  · dsimp only
    split
    · exact Nat.le_refl _
    · exact Nat.le_refl _
    · exact within_finishStatement _ _ k
  · exact within_finishStatement _ _ k
  · exact within_finishStatement _ _ k

/-- Behind an expression, a level opens at most on top of the context's. -/
lemma fits_finishExpression (k : Kind) : ∀ (e : Expr) (outer : ExprContext g),
    (finishExpression settings e outer k).Fits settings outer.depth
  | _, .whole _ => trivial
  | _, .not outer => (fits_finishExpression k _ outer).mono (Nat.le_succ _)
  | _, .compare _ _ outer => (fits_finishExpression k _ outer).mono (Nat.le_succ _)
  | _, .group outer => by
    unfold finishExpression
    split
    · exact .inl (Nat.le_refl _)
    · nofun
  | _, .argument f args outer => fits_continueCall f _ outer k
  | _, .assign _ _ outer => (within_finishStatement _ outer k).fits
  | _, .giveBack outer => (within_finishStatement _ outer k).fits
  | _, .print outer => (within_finishStatement _ outer k).fits
  | _, .expression outer => (within_finishStatement _ outer k).fits
  | _, .branch _ _ => fits_beginBlock _ k
  | _, .loop _ => fits_beginBlock _ k

/-- Behind a term, a level opens at most on top of the expression's own, for a comparison. -/
lemma fits_continueSum (e : Expr) (outer : ExprContext g) (k : Kind) :
    (continueSum settings e outer k).Fits settings (outer.depth + 1) := by
  unfold continueSum
  split
  · exact .inl (Nat.le_refl _)
  · exact (fits_finishExpression k e outer).mono (Nat.le_succ _)

/-- Behind the operand of a sum, a level opens at most on top of the context's. -/
lemma fits_finishTerm (e : Expr) (outer : TermContext g) (k : Kind) :
    (finishTerm settings e outer k).Fits settings outer.depth := by
  unfold finishTerm
  split
  · split
    · exact .inl (Nat.le_refl _)
    · exact fits_continueSum _ _ k
  · exact fits_continueSum _ _ k

/-- Behind a factor, a level opens at most on top of the context's. -/
lemma fits_continueProduct (e : Expr) (outer : TermContext g) (k : Kind) :
    (continueProduct settings e outer k).Fits settings outer.depth := by
  unfold continueProduct
  split
  · exact .inl (Nat.le_refl _)
  · exact fits_finishTerm e outer k

/-- Behind the operand of a product or of a sign, a level opens at most on top of the context's. -/
lemma fits_finishFactor (k : Kind) : ∀ (e : Expr) (outer : FactorContext g),
    (finishFactor settings e outer k).Fits settings outer.depth
  | _, .first outer => fits_continueProduct _ outer k
  | _, .product _ _ outer => fits_continueProduct _ outer k
  | _, .signed _ outer => (fits_finishFactor k _ outer).mono (Nat.le_succ _)

/-- Behind a name, a level opens at most on top of the context's. -/
lemma fits_finishName (x : String) (outer : FactorContext g) (k : Kind) :
    (finishName settings x outer k).Fits settings outer.depth := by
  unfold finishName
  split
  · exact .inl (Nat.le_refl _)
  · exact fits_finishFactor k _ outer

/-- Between parameters, no level opens. -/
lemma within_continueParameters (f : String) (xs : List String) (outer : StmtContext g) (k : Kind) :
    (continueParameters f xs outer k).Within outer.depth := by
  unfold continueParameters
  split
  · exact Nat.le_refl _
  · split
    · exact Nat.le_refl _
    · nofun

/-- One step opens at most one level, and only below the limit. -/
theorem fits_step (s : State g) (k : Kind) : (step settings s k).Fits settings s.depth := by
  cases s with
  | block outer => exact fits_beginBlock outer k
  | statements earlier outer => exact fits_continueBlock earlier outer k
  | closed b outer => exact (within_finishBlock b outer k).fits
  | statement outer => exact fits_beginStatement outer k
  | variableName scope outer =>
    unfold step
    dsimp only
    split
    · exact .inl (Nat.le_refl _)
    · nofun
  | functionName outer =>
    unfold step
    dsimp only
    split
    · exact .inl (Nat.le_refl _)
    · nofun
  | signature f outer =>
    unfold step
    dsimp only
    split
    · exact .inl (Nat.le_refl _)
    · nofun
  | parameters f xs outer => exact (within_continueParameters f xs outer k).fits
  | expression outer => exact fits_beginExpression outer k
  | factor outer => exact (within_beginFactor outer k).fits
  | operand negate outer => exact fits_openLevel (within_beginFactor (.signed negate outer) k)
  | name x outer => exact fits_finishName x outer k
  | arguments f args outer => exact fits_continueCall f args outer k
  | value e outer => exact fits_finishFactor k e outer

/-- Only a state at the limit is stopped by it. -/
lemma le_depth_of_tooDeep {s : State g} {k : Kind} (h : step settings s k = .refuse .tooDeep) :
    settings.maxDepth ≤ s.depth := by
  have fits : (step settings s k).Fits settings s.depth := fits_step s k
  rw [h] at fits
  exact fits rfl

/-- Below the limit, no step is stopped by it. -/
lemma step_ne_tooDeep {s : State g} {k : Kind} (h : s.depth < settings.maxDepth) :
    step settings s k ≠ .refuse .tooDeep := by
  intro hs
  exact absurd (le_depth_of_tooDeep hs) (Nat.not_le_of_lt h)

/-- A step goes at most one level further in. -/
lemma depth_of_step {s next : State g} {k : Kind} (h : step settings s k = .shift next) :
    next.depth ≤ s.depth + 1 := by
  have fits : (step settings s k).Fits settings s.depth := fits_step s k
  rw [h] at fits
  simp only [Move.Fits] at fits
  omega

/-- A step stays within the limit if it begins there. -/
lemma depth_of_shift {s next : State g} {k : Kind} (h : step settings s k = .shift next)
    (hs : s.depth ≤ settings.maxDepth) : next.depth ≤ settings.maxDepth := by
  have fits : (step settings s k).Fits settings s.depth := fits_step s k
  rw [h] at fits
  simp only [Move.Fits] at fits
  omega

end Quill
