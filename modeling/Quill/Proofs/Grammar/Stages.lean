import Mathlib.Tactic.Common
import Quill.Grammar.Step

/-!
# Stages of a move

A move of the machine is the work of several rules that call one another before a token is taken: a
factor is finished, then the product that it ends, then the sum, then the expression, and so on
outward, and perhaps inward again to what stands there next. Here a move is taken apart into these
calls. A stage is the rule that is at work, and `Stage.turn` is one call: the next stage, or the
move that the rule makes. Calling to the end gives the move that `step` gives (`Stage.move_eq`).

No rule is called without end. Each stage has an amount of work that bounds the calls up to the next
token (`Stage.work_of_turn`), and a token adds a fixed amount to it (`Stage.work_of_shift`), however
deep the constructs nest. The heads of a loop all have the same work, so none of them leads to
another before a token is taken (`Stage.work_of_loop`).
-/

namespace Quill

variable {g : Goal} {settings : Settings} {k : Kind}

/-- The rule that is at work. A state looks at its next token. The others have finished something in
front of it: the factors of a product so far, a term, the terms of a sum so far, an expression, or a
statement. -/
inductive Stage (g : Goal) where
  | state (s : State g)
  | product (e : Expr) (outer : TermContext g)
  | term (e : Expr) (outer : TermContext g)
  | sum (e : Expr) (outer : ExprContext g)
  | result (e : Expr) (outer : ExprContext g)
  | finished (s : Stmt) (outer : StmtContext g)

namespace Stage

/-- The move that comes of a stage in front of a token. -/
def move (settings : Settings) (k : Kind) : Stage g → Move g
  | state s => step settings s k
  | product e outer => continueProduct settings e outer k
  | term e outer => finishTerm settings e outer k
  | sum e outer => continueSum settings e outer k
  | result e outer => finishExpression settings e outer k
  | finished s outer => finishStatement s outer k

/-- What a rule does in front of a token: it calls another, or it makes the move. -/
def turn (settings : Settings) (k : Kind) : Stage g → Stage g ⊕ Move g
  | state (.block outer) => .inr (beginBlock settings outer k)
  | state (.statements earlier outer) =>
    if k = .mark .rightBrace then
      .inr (.shift (.closed earlier outer))
    else if k.startsStatement then
      .inl (state (.statement (.item earlier outer)))
    else
      .inr (.refuse (.unexpected [.mark .rightBrace, .statement]))
  | state (.closed body (.whole asked)) => .inr (finishBlock body (.whole asked) k)
  | state (.closed body (.program asked)) => .inr (finishBlock body (.program asked) k)
  | state (.closed body (.function name params outer)) =>
    .inl (finished (.declare name params body) outer)
  | state (.closed body (.branch earlier condition outer)) =>
    let branches := earlier ++ [.arm condition body]
    match k.keyword? with
    | some .kwElif => .inr (.shift (.expression (.branch branches outer)))
    | some .kwElse => .inr (.shift (.block (.otherwise branches outer)))
    | _ => .inl (finished (.conditional branches none) outer)
  | state (.closed body (.otherwise branches outer)) =>
    .inl (finished (.conditional branches (some body)) outer)
  | state (.closed body (.loop condition outer)) => .inl (finished (.loop condition body) outer)
  | state (.statement outer) =>
    match k.keyword? with
    | some .kwGlobal => .inr (.shift (.variableName .outermost outer))
    | some .kwLocal => .inr (.shift (.variableName .here outer))
    | some .kwFn => .inr (.shift (.functionName outer))
    | some .kwReturn => .inr (.shift (.expression (.giveBack outer)))
    | some .kwIf => .inr (.shift (.expression (.branch [] outer)))
    | some .kwWhile => .inr (.shift (.expression (.loop outer)))
    | some .kwPrint => .inr (.shift (.expression (.print outer)))
    | _ => .inl (state (.expression (.expression outer)))
  | state (.variableName scope outer) => .inr (step settings (.variableName scope outer) k)
  | state (.functionName outer) => .inr (step settings (.functionName outer) k)
  | state (.signature name outer) => .inr (step settings (.signature name outer) k)
  | state (.parameters name params outer) => .inr (continueParameters name params outer k)
  | state (.expression outer) =>
    if outer.depth < settings.maxDepth then
      match k with
      | .operator .bang => .inr (.shift (.expression (.not outer)))
      | _ => .inl (state (.factor (.first (.first outer))))
    else
      .inr (.refuse .tooDeep)
  | state (.factor outer) => .inr (beginFactor outer k)
  | state (.operand negate outer) =>
    if outer.depth < settings.maxDepth then
      .inl (state (.factor (.signed negate outer)))
    else
      .inr (.refuse .tooDeep)
  | state (.name name outer) =>
    match k with
    | .mark .leftParen => .inr (.shift (.arguments name [] outer))
    | _ => .inl (state (.value (.ref name) outer))
  | state (.arguments callee args outer) =>
    if k = .mark .rightParen then
      .inr (.shift (.value (.call callee args) outer))
    else if k.startsExpression then
      .inl (state (.expression (.argument callee args outer)))
    else
      .inr (.refuse (.unexpected [.mark .rightParen, .expression]))
  | state (.value e (.first outer)) => .inl (product e outer)
  | state (.value e (.product left op outer)) => .inl (product (.binary op left e) outer)
  | state (.value e (.signed negate outer)) => .inl (state (.value (applySign negate e) outer))
  | product e outer =>
    match k.multiplicative? settings.division with
    | some op => .inr (.shift (.factor (.product e op outer)))
    | none => .inl (term e outer)
  | term e (.first outer) =>
    match k.comparison? with
    | some op => .inr (.shift (.expression (.compare e op outer)))
    | none => .inl (sum e outer)
  | term e (.sum left op outer) => .inl (sum (.binary op left e) outer)
  | sum e outer =>
    match k.additive? with
    | some op => .inr (.shift (.factor (.first (.sum e op outer))))
    | none => .inl (result e outer)
  | result e (.whole asked) => .inr (.done (asked ▸ e))
  | result e (.not outer) => .inl (result (.unary .not e) outer)
  | result e (.compare left op outer) => .inl (result (.binary op left e) outer)
  | result e (.group outer) => .inr (finishExpression settings e (.group outer) k)
  | result e (.argument callee args outer) => .inl (state (.arguments callee (args ++ [e]) outer))
  | result e (.assign scope name outer) => .inl (finished (.assign scope name e) outer)
  | result e (.giveBack outer) => .inl (finished (.giveBack e) outer)
  | result e (.print outer) => .inl (finished (.print e) outer)
  | result e (.expression outer) => .inl (finished (.expression e) outer)
  | result e (.branch earlier outer) => .inl (state (.block (.branch earlier e outer)))
  | result e (.loop outer) => .inl (state (.block (.loop e outer)))
  | finished s outer => .inr (finishStatement s outer k)

/-- A call leaves the move to the stage it calls. -/
theorem move_eq : ∀ a : Stage g, a.move settings k = (a.turn settings k).elim (move settings k) id
  | state (.block _) => rfl
  | state (.statements _ _) => by
    simp only [move, step, continueBlock, turn]
    split
    · rfl
    · split <;> rfl
  | state (.closed _ (.whole _)) => rfl
  | state (.closed _ (.program _)) => rfl
  | state (.closed _ (.function _ _ _)) => rfl
  | state (.closed _ (.branch _ _ _)) => by
    simp only [move, step, finishBlock, turn]
    cases k.keyword? with
    | none => rfl
    | some w => cases w <;> rfl
  | state (.closed _ (.otherwise _ _)) => rfl
  | state (.closed _ (.loop _ _)) => rfl
  | state (.statement _) => by
    simp only [move, step, beginStatement, turn]
    cases k.keyword? with
    | none => rfl
    | some w => cases w <;> rfl
  | state (.variableName _ _) => rfl
  | state (.functionName _) => rfl
  | state (.signature _ _) => rfl
  | state (.parameters _ _ _) => rfl
  | state (.expression _) => by
    simp only [move, step, beginExpression, openLevel, turn]
    split
    · cases k with
      | operator op => cases op <;> rfl
      | _ => rfl
    · rfl
  | state (.factor _) => rfl
  | state (.operand _ _) => by
    simp only [move, step, openLevel, turn]
    split <;> rfl
  | state (.name _ _) => by
    simp only [move, step, finishName, turn]
    cases k with
    | mark m => cases m <;> rfl
    | _ => rfl
  | state (.arguments _ _ _) => by
    simp only [move, step, continueCall, turn]
    split
    · rfl
    · split <;> rfl
  | state (.value _ (.first _)) => rfl
  | state (.value _ (.product _ _ _)) => rfl
  | state (.value _ (.signed _ _)) => rfl
  | product _ _ => by
    simp only [move, continueProduct, turn]
    cases k.multiplicative? settings.division <;> rfl
  | term _ (.first _) => by
    simp only [move, finishTerm, turn]
    cases k.comparison? <;> rfl
  | term _ (.sum _ _ _) => rfl
  | sum _ _ => by
    simp only [move, continueSum, turn]
    cases k.additive? <;> rfl
  | result _ (.whole _) => rfl
  | result _ (.not _) => rfl
  | result _ (.compare _ _ _) => rfl
  | result _ (.group _) => rfl
  | result _ (.argument _ _ _) => rfl
  | result _ (.assign _ _ _) => rfl
  | result _ (.giveBack _) => rfl
  | result _ (.print _) => rfl
  | result _ (.expression _) => rfl
  | result _ (.branch _ _) => rfl
  | result _ (.loop _) => rfl
  | finished _ _ => rfl

/-- In front of the end of the input no rule takes a token. -/
lemma stays_move (settings : Settings) : ∀ a : Stage g, (a.move settings .endOfInput).Stays
  | state s => step_endOfInput settings s
  | product e outer => stays_finishTerm settings e outer
  | term e outer => stays_finishTerm settings e outer
  | sum e outer => stays_finishExpression settings e outer
  | result e outer => stays_finishExpression settings e outer
  | finished s outer => stays_finishStatement s outer

/-- The end of the input is never taken. -/
lemma kind_ne_endOfInput_of_shift {a : Stage g} {next : State g}
    (h : a.turn settings k = .inr (.shift next)) : k ≠ .endOfInput := by
  rintro rfl
  apply stays_move settings a next
  rw [move_eq, h]
  rfl

end Stage

/-! ## The work at a stage -/

mutual

/-- How many constructs are open around an expression, however many levels they count. -/
def ExprContext.frames : ExprContext g → Nat
  | .whole _ => 0
  | .not outer => outer.frames + 1
  | .compare _ _ outer => outer.frames + 1
  | .group outer => outer.frames + 1
  | .argument _ _ outer => outer.frames + 1
  | .assign _ _ outer => outer.frames + 1
  | .giveBack outer => outer.frames + 1
  | .print outer => outer.frames + 1
  | .expression outer => outer.frames + 1
  | .branch _ outer => outer.frames + 1
  | .loop outer => outer.frames + 1

/-- How many are open around a term. The first term opens none of its own. -/
def TermContext.frames : TermContext g → Nat
  | .first outer => outer.frames
  | .sum _ _ outer => outer.frames + 1

/-- How many are open around a factor. The first factor opens none of its own. -/
def FactorContext.frames : FactorContext g → Nat
  | .first outer => outer.frames
  | .product _ _ outer => outer.frames + 1
  | .signed _ outer => outer.frames + 1

/-- How many are open around a statement. -/
def StmtContext.frames : StmtContext g → Nat
  | .whole _ => 0
  | .item _ outer => outer.frames + 1

/-- How many are open around a block. -/
def BlockContext.frames : BlockContext g → Nat
  | .whole _ => 0
  | .program _ => 0
  | .function _ _ outer => outer.frames + 1
  | .branch _ _ outer => outer.frames + 1
  | .otherwise _ outer => outer.frames + 1
  | .loop _ outer => outer.frames + 1

end

namespace Stage

/-- A bound on the calls up to the next token. Every open construct may be finished, and each is
left with less work than it is finished with; where something new begins instead, that takes less
still. -/
def work : Stage g → Nat
  | state (.block outer) => outer.frames
  | state (.statements _ outer) => outer.frames + 5
  | state (.closed _ outer) => outer.frames + 4
  | state (.statement outer) => outer.frames + 3
  | state (.variableName _ outer) => outer.frames
  | state (.functionName outer) => outer.frames
  | state (.signature _ outer) => outer.frames
  | state (.parameters _ _ outer) => outer.frames
  | state (.expression outer) => outer.frames + 1
  | state (.factor outer) => outer.frames
  | state (.operand _ outer) => outer.frames + 2
  | state (.name _ outer) => outer.frames + 9
  | state (.arguments _ _ outer) => outer.frames + 3
  | state (.value _ outer) => outer.frames + 8
  | product _ outer => outer.frames + 7
  | term _ outer => outer.frames + 6
  | sum _ outer => outer.frames + 5
  | result _ outer => outer.frames + 4
  | finished _ outer => outer.frames + 4

/-- What a move makes of the work `n`: a token that is taken adds nine at most, and four are left
where the parser is done. -/
def Leaves (n : Nat) : Move g → Prop
  | .shift next => (state next).work ≤ n + 9
  | .done _ => 4 ≤ n
  | .refuse _ => True

/-- What becomes of the work `n` in one turn: a call leaves less of it. -/
def Bounded (n : Nat) : Stage g ⊕ Move g → Prop
  | .inl b => b.work < n
  | .inr m => Leaves n m

/-- The work that is left where a block begins is bounded by the frames of its context. -/
lemma leaves_beginBlock (outer : BlockContext g) :
    Leaves outer.frames (beginBlock settings outer k) := by
  unfold beginBlock openLevel
  split
  · split
    · simp only [Leaves, work]
      omega
    · trivial
  · trivial

/-- Behind the block of a program no work is left. -/
lemma leaves_finishBlock_program (body : Block) (asked : g = .program) :
    Leaves 4 (finishBlock body (.program asked) k) := by
  simp only [finishBlock]
  split
  · exact Nat.le_refl _
  · trivial

/-- The work that is left behind the name of a variable is bounded by the frames of the context. -/
lemma leaves_variableName (scope : Scope) (outer : StmtContext g) :
    Leaves outer.frames (step settings (.variableName scope outer) k) := by
  simp only [step]
  split
  · simp only [Leaves, work, ExprContext.frames]
    omega
  · trivial

/-- The work that is left behind the name of a function is bounded by the frames of the context. -/
lemma leaves_functionName (outer : StmtContext g) :
    Leaves outer.frames (step settings (.functionName outer) k) := by
  simp only [step]
  split
  · exact Nat.le_add_right _ _
  · trivial

/-- The work that is left in front of the parameters is bounded by the frames of the context. -/
lemma leaves_signature (name : String) (outer : StmtContext g) :
    Leaves outer.frames (step settings (.signature name outer) k) := by
  simp only [step]
  split
  · exact Nat.le_add_right _ _
  · trivial

/-- The work that is left behind a parameter is bounded by the frames of the context. -/
lemma leaves_continueParameters (name : String) (params : List String) (outer : StmtContext g) :
    Leaves outer.frames (continueParameters name params outer k) := by
  unfold continueParameters
  split
  · simp only [Leaves, work, BlockContext.frames]
    omega
  · split
    · exact Nat.le_add_right _ _
    · trivial

/-- The work that is left where a factor begins is bounded by the frames of its context. -/
lemma leaves_beginFactor (outer : FactorContext g) : Leaves outer.frames (beginFactor outer k) := by
  unfold beginFactor
  split
  case h_6 => split <;> simp only [Leaves, work] <;> omega
  all_goals simp only [Leaves, work, ExprContext.frames]
  all_goals omega

/-- The work that is left behind a group is bounded by the frames of its context and five more. -/
lemma leaves_finishExpression_group (e : Expr) (outer : FactorContext g) :
    Leaves (outer.frames + 5) (finishExpression settings e (.group outer) k) := by
  simp only [finishExpression]
  split
  · simp only [Leaves, work]
    omega
  · trivial

/-- The work that is left behind a statement is bounded by the frames of its context and four
more. -/
lemma leaves_finishStatement (s : Stmt) (outer : StmtContext g) :
    Leaves (outer.frames + 4) (finishStatement s outer k) := by
  unfold finishStatement
  split
  · exact Nat.le_add_left _ _
  · split
    · simp only [Leaves, work, StmtContext.frames]
      omega
    · trivial

/-- In one turn a stage calls another one with less work, or its move keeps to the bound of a
token. -/
lemma bounded_turn (settings : Settings) (k : Kind) (a : Stage g) :
    Bounded a.work (a.turn settings k) := by
  fun_cases turn settings k a
  -- The rules that do not call others.
  case case1 outer => exact leaves_beginBlock outer
  case case5 => exact Nat.le_refl _
  case case6 body asked => exact leaves_finishBlock_program body asked
  case case21 scope outer => exact leaves_variableName scope outer
  case case22 outer => exact leaves_functionName outer
  case case23 name outer => exact leaves_signature name outer
  case case24 name params outer => exact leaves_continueParameters name params outer
  case case28 outer => exact leaves_beginFactor outer
  case case49 e outer => exact leaves_finishExpression_group e outer
  case case57 s outer => exact leaves_finishStatement s outer
  all_goals simp only [Bounded, Leaves, work, ExprContext.frames, TermContext.frames,
    FactorContext.frames, StmtContext.frames, BlockContext.frames]
  all_goals omega

/-- A call leaves less work. -/
theorem work_of_turn {a b : Stage g} (h : a.turn settings k = .inl b) : b.work < a.work := by
  have bounded := bounded_turn settings k a
  rw [h] at bounded
  exact bounded

/-- A token adds nine at most to the work. -/
theorem work_of_shift {a : Stage g} {next : State g} (h : a.turn settings k = .inr (.shift next)) :
    (state next).work ≤ a.work + 9 := by
  have bounded := bounded_turn settings k a
  rw [h] at bounded
  exact bounded

/-- A stage that ends the run had work for that. -/
lemma work_of_done {a : Stage g} {r : g.Result} (h : a.turn settings k = .inr (.done r)) :
    4 ≤ a.work := by
  have bounded := bounded_turn settings k a
  rw [h] at bounded
  exact bounded

/-- A run begins with three pieces of work at most. -/
lemma work_initial (g : Goal) : (state (.initial g)).work ≤ 3 := by
  cases g <;> decide

end Stage

/-! ## Constructs and loops -/

/-- A construct that the parser looks for, told apart by what is open around it. -/
inductive Construct (g : Goal) where
  | expression (outer : ExprContext g)
  | statement (outer : StmtContext g)
  | block (outer : BlockContext g)

/-- A loop of the parser, told apart by what is open around it: over the statements of a block, the
parameters of a function, the branches of a conditional, the arguments of a call, the terms of a
sum, and the factors of a product. -/
inductive Loop (g : Goal) where
  | statements (outer : BlockContext g)
  | parameters (name : String) (outer : StmtContext g)
  | branches (outer : StmtContext g)
  | arguments (callee : String) (outer : FactorContext g)
  | terms (outer : ExprContext g)
  | factors (outer : TermContext g)

/-- The work at the head of a loop. -/
def Loop.work : Loop g → Nat
  | statements outer => outer.frames + 5
  | parameters _ outer => outer.frames
  | branches outer => outer.frames + 5
  | arguments _ outer => outer.frames + 3
  | terms outer => outer.frames + 5
  | factors outer => outer.frames + 7

namespace Stage

/-- The construct that a stage begins to look for. -/
def asks? : Stage g → Option (Construct g)
  | state (.expression outer) => some (.expression outer)
  | state (.statement outer) => some (.statement outer)
  | state (.block outer) => some (.block outer)
  | _ => none

/-- The construct that a stage has in hand. -/
def gives? : Stage g → Option (Construct g)
  | result _ outer => some (.expression outer)
  | finished _ outer => some (.statement outer)
  | state (.closed _ outer) => some (.block outer)
  | _ => none

/-- The loop at whose head a stage is, where it goes round once more or is left. -/
def loop? : Stage g → Option (Loop g)
  | state (.statements _ outer) => some (.statements outer)
  | state (.parameters name _ outer) => some (.parameters name outer)
  | state (.closed _ (.branch _ _ outer)) => some (.branches outer)
  | state (.arguments callee _ outer) => some (.arguments callee outer)
  | sum _ outer => some (.terms outer)
  | product _ outer => some (.factors outer)
  | _ => none

/-- However often a loop has gone round, its head has the same work. -/
lemma work_of_loop {a : Stage g} {l : Loop g} (h : a.loop? = some l) : a.work = l.work := by
  unfold loop? at h
  split at h <;> cases h <;> rfl

/-- A construct that is in hand leaves more work than it is looked for with. -/
lemma work_lt_of_gives {a b : Stage g} {x : Construct g} (asked : a.asks? = some x)
    (given : b.gives? = some x) : a.work < b.work := by
  unfold asks? at asked
  unfold gives? at given
  split at asked <;> cases asked <;> split at given <;> cases given
  all_goals
    simp only [work]
    omega

end Stage

end Quill
