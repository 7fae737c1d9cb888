import Quill.Proofs.Stream.Stopping
import Quill.Proofs.Tree.Operators

/-!
# The two modes of division

Which operator a slash stands for is asked in one place, and the operator then only lies in the
tree. So the two modes make the same moves: a state of the one mode, with every division made a
subtraction, is the state of the other (`step_relabel`), and from there on both take and refuse the
same tokens.
-/

namespace Quill

variable {g : Goal}

/-- The tree that the goal asks for, with every division made a subtraction. -/
def Goal.relabel : (g : Goal) → g.Result → g.Result
  | .expression => Expr.relabel
  | .statement => Stmt.relabel
  | .block => Block.relabel
  | .program => Block.relabel

mutual

/-- The context with every division made a subtraction. -/
def ExprContext.relabel : ExprContext g → ExprContext g
  | .whole asked => .whole asked
  | .not outer => .not outer.relabel
  | .compare left op outer => .compare left.relabel op.relabel outer.relabel
  | .group outer => .group outer.relabel
  | .argument callee args outer => .argument callee (Expr.relabelAll args) outer.relabel
  | .assign scope name outer => .assign scope name outer.relabel
  | .giveBack outer => .giveBack outer.relabel
  | .print outer => .print outer.relabel
  | .expression outer => .expression outer.relabel
  | .branch earlier outer => .branch (Branch.relabelAll earlier) outer.relabel
  | .loop outer => .loop outer.relabel

/-- The context with every division made a subtraction. -/
def TermContext.relabel : TermContext g → TermContext g
  | .first outer => .first outer.relabel
  | .sum left op outer => .sum left.relabel op.relabel outer.relabel

/-- The context with every division made a subtraction. -/
def FactorContext.relabel : FactorContext g → FactorContext g
  | .first outer => .first outer.relabel
  | .product left op outer => .product left.relabel op.relabel outer.relabel
  | .signed negate outer => .signed negate outer.relabel

/-- The context with every division made a subtraction. -/
def StmtContext.relabel : StmtContext g → StmtContext g
  | .whole asked => .whole asked
  | .item earlier outer => .item (Block.relabel earlier) outer.relabel

/-- The context with every division made a subtraction. -/
def BlockContext.relabel : BlockContext g → BlockContext g
  | .whole asked => .whole asked
  | .program asked => .program asked
  | .function name params outer => .function name params outer.relabel
  | .branch earlier condition outer =>
    .branch (Branch.relabelAll earlier) condition.relabel outer.relabel
  | .otherwise branches outer => .otherwise (Branch.relabelAll branches) outer.relabel
  | .loop condition outer => .loop condition.relabel outer.relabel

end

/-- The state with every division made a subtraction. -/
def State.relabel : State g → State g
  | .block outer => .block outer.relabel
  | .statements earlier outer => .statements (Block.relabel earlier) outer.relabel
  | .closed body outer => .closed body.relabel outer.relabel
  | .statement outer => .statement outer.relabel
  | .variableName scope outer => .variableName scope outer.relabel
  | .functionName outer => .functionName outer.relabel
  | .signature f outer => .signature f outer.relabel
  | .parameters f params outer => .parameters f params outer.relabel
  | .expression outer => .expression outer.relabel
  | .factor outer => .factor outer.relabel
  | .operand negate outer => .operand negate outer.relabel
  | .name x outer => .name x outer.relabel
  | .arguments callee args outer => .arguments callee (Expr.relabelAll args) outer.relabel
  | .value e outer => .value e.relabel outer.relabel

/-- The move with every division made a subtraction. A refusal stays what it is. -/
def Move.relabel : Move g → Move g
  | .shift next => .shift next.relabel
  | .done result => .done (g.relabel result)
  | .refuse why => .refuse why

/-! ## What is not changed -/

mutual

/-- Relabelling leaves the depth of an expression context alone. -/
theorem ExprContext.depth_relabel : ∀ outer : ExprContext g, outer.relabel.depth = outer.depth
  | .whole _ => rfl
  | .not outer => congrArg (· + 1) outer.depth_relabel
  | .compare _ _ outer => congrArg (· + 1) outer.depth_relabel
  | .group outer => outer.depth_relabel
  | .argument _ _ outer => outer.depth_relabel
  | .assign _ _ outer => outer.depth_relabel
  | .giveBack outer => outer.depth_relabel
  | .print outer => outer.depth_relabel
  | .expression outer => outer.depth_relabel
  | .branch _ outer => outer.depth_relabel
  | .loop outer => outer.depth_relabel

/-- Relabelling leaves the depth of a term context alone. -/
theorem TermContext.depth_relabel : ∀ outer : TermContext g, outer.relabel.depth = outer.depth
  | .first outer => congrArg (· + 1) outer.depth_relabel
  | .sum _ _ outer => congrArg (· + 1) outer.depth_relabel

/-- Relabelling leaves the depth of a factor context alone. -/
theorem FactorContext.depth_relabel :
    ∀ outer : FactorContext g, outer.relabel.depth = outer.depth
  | .first outer => outer.depth_relabel
  | .product _ _ outer => outer.depth_relabel
  | .signed _ outer => congrArg (· + 1) outer.depth_relabel

/-- Relabelling leaves the depth of a statement context alone. -/
theorem StmtContext.depth_relabel : ∀ outer : StmtContext g, outer.relabel.depth = outer.depth
  | .whole _ => rfl
  | .item _ outer => congrArg (· + 1) outer.depth_relabel

/-- Relabelling leaves the depth of a block context alone. -/
theorem BlockContext.depth_relabel : ∀ outer : BlockContext g, outer.relabel.depth = outer.depth
  | .whole _ => rfl
  | .program _ => rfl
  | .function _ _ outer => outer.depth_relabel
  | .branch _ _ outer => outer.depth_relabel
  | .otherwise _ outer => outer.depth_relabel
  | .loop _ outer => outer.depth_relabel

end

/-- No comparison is a division. -/
lemma comparison_relabel {k : Kind} {op : BinaryOp} (h : k.comparison? = some op) :
    op.relabel = op := by
  unfold Kind.comparison? at h
  split at h <;> cases h <;> rfl

/-- Neither addition nor subtraction is a division. -/
lemma additive_relabel {k : Kind} {op : BinaryOp} (h : k.additive? = some op) :
    op.relabel = op := by
  unfold Kind.additive? at h
  split at h <;> cases h <;> rfl

/-- The modes differ in the operator of a slash alone. -/
lemma multiplicative_relabel (k : Kind) :
    k.multiplicative? .legacySubtraction = (k.multiplicative? .distinct).map .relabel := by
  unfold Kind.multiplicative?
  split <;> rfl

/-- A sign is applied to the relabelled expression as to the expression. -/
lemma applySign_relabel (negate : Bool) (e : Expr) :
    applySign negate e.relabel = (applySign negate e).relabel := by
  cases negate <;> rfl

/-! ## Each function of the step -/

variable {m : Nat}

/-- A level opens in the one mode exactly if it opens in the other. -/
lemma openLevel_relabel (n : Nat) (move : Move g) :
    openLevel ⟨.legacySubtraction, m⟩ n move.relabel =
      (openLevel ⟨.distinct, m⟩ n move).relabel := by
  unfold openLevel
  dsimp only
  split
  · rfl
  · rfl

/-- A factor begins alike in both modes. -/
lemma beginFactor_relabel (outer : FactorContext g) (k : Kind) :
    beginFactor outer.relabel k = (beginFactor outer k).relabel := by
  unfold beginFactor
  split
  case h_6 =>
    split <;> rfl
  all_goals rfl

/-- An expression begins alike in both modes. -/
lemma beginExpression_relabel (outer : ExprContext g) (k : Kind) :
    beginExpression ⟨.legacySubtraction, m⟩ outer.relabel k =
      (beginExpression ⟨.distinct, m⟩ outer k).relabel := by
  unfold beginExpression
  rw [outer.depth_relabel, ← openLevel_relabel]
  congr 1
  split
  · rfl
  · exact beginFactor_relabel (.first (.first outer)) k

/-- A block begins alike in both modes. -/
lemma beginBlock_relabel (outer : BlockContext g) (k : Kind) :
    beginBlock ⟨.legacySubtraction, m⟩ outer.relabel k =
      (beginBlock ⟨.distinct, m⟩ outer k).relabel := by
  unfold beginBlock
  rw [outer.depth_relabel, ← openLevel_relabel]
  congr 1
  split <;> rfl

/-- A statement begins alike in both modes. -/
lemma beginStatement_relabel (outer : StmtContext g) (k : Kind) :
    beginStatement ⟨.legacySubtraction, m⟩ outer.relabel k =
      (beginStatement ⟨.distinct, m⟩ outer k).relabel := by
  unfold beginStatement
  split
  case h_8 => exact beginExpression_relabel (.expression outer) k
  all_goals rfl

/-- A block goes on alike in both modes, over the relabelled statements. -/
lemma continueBlock_relabel (earlier : List Stmt) (outer : BlockContext g) (k : Kind) :
    continueBlock ⟨.legacySubtraction, m⟩ (Block.relabel earlier) outer.relabel k =
      (continueBlock ⟨.distinct, m⟩ earlier outer k).relabel := by
  unfold continueBlock
  split
  · rfl
  · split
    · exact beginStatement_relabel (.item earlier outer) k
    · rfl

/-- The arguments of a call go on alike in both modes, over the relabelled ones. -/
lemma continueCall_relabel (callee : String) (args : List Expr) (outer : FactorContext g)
    (k : Kind) :
    continueCall ⟨.legacySubtraction, m⟩ callee (Expr.relabelAll args) outer.relabel k =
      (continueCall ⟨.distinct, m⟩ callee args outer k).relabel := by
  unfold continueCall
  split
  · rfl
  · split
    · exact beginExpression_relabel (.argument callee args outer) k
    · rfl

/-- A relabelled statement finishes into the relabelled context as the statement does. -/
lemma finishStatement_relabel (s : Stmt) (outer : StmtContext g) (k : Kind) :
    finishStatement s.relabel outer.relabel k = (finishStatement s outer k).relabel := by
  cases outer with
  | whole asked =>
    cases asked
    rfl
  | item earlier outer =>
    unfold finishStatement
    dsimp only [StmtContext.relabel]
    split
    · exact congrArg (fun b => Move.shift (.statements b outer.relabel))
        (Block.relabel_append earlier [s]).symm
    · rfl

/-- A relabelled block finishes into the relabelled context as the block does. -/
lemma finishBlock_relabel (body : Block) (outer : BlockContext g) (k : Kind) :
    finishBlock body.relabel outer.relabel k = (finishBlock body outer k).relabel := by
  cases outer with
  | whole asked =>
    cases asked
    rfl
  | program asked =>
    cases asked
    unfold finishBlock
    dsimp only [BlockContext.relabel]
    split <;> rfl
  | function name params outer => exact finishStatement_relabel (.declare name params body) outer k
  | branch earlier condition outer =>
    have branches : Branch.relabelAll earlier ++ [.arm condition.relabel body.relabel] =
        Branch.relabelAll (earlier ++ [.arm condition body]) :=
      (Branch.relabelAll_append earlier [.arm condition body]).symm
    unfold finishBlock
    dsimp only [BlockContext.relabel]
    rw [branches]
    split
    · rfl
    · rfl
    · exact finishStatement_relabel (.conditional (earlier ++ [.arm condition body]) none) outer k
  | otherwise branches outer =>
    exact finishStatement_relabel (.conditional branches (some body)) outer k
  | loop condition outer => exact finishStatement_relabel (.loop condition body) outer k

/-- A relabelled expression finishes in the one mode as the expression does in the other. -/
lemma finishExpression_relabel (k : Kind) : ∀ (e : Expr) (outer : ExprContext g),
    finishExpression ⟨.legacySubtraction, m⟩ e.relabel outer.relabel k =
      (finishExpression ⟨.distinct, m⟩ e outer k).relabel
  | _, .whole asked => by
    cases asked
    rfl
  | e, .not outer => finishExpression_relabel k (.unary .not e) outer
  | e, .compare left op outer => finishExpression_relabel k (.binary op left e) outer
  | _, .group outer => by
    unfold finishExpression
    dsimp only [ExprContext.relabel]
    split <;> rfl
  | e, .argument callee args outer => by
    have all : Expr.relabelAll args ++ [e.relabel] = Expr.relabelAll (args ++ [e]) :=
      (Expr.relabelAll_append args [e]).symm
    rw [ExprContext.relabel, finishExpression, finishExpression, all, continueCall_relabel]
  | e, .assign scope name outer => finishStatement_relabel (.assign scope name e) outer k
  | e, .giveBack outer => finishStatement_relabel (.giveBack e) outer k
  | e, .print outer => finishStatement_relabel (.print e) outer k
  | e, .expression outer => finishStatement_relabel (.expression e) outer k
  | e, .branch earlier outer => beginBlock_relabel (.branch earlier e outer) k
  | e, .loop outer => beginBlock_relabel (.loop e outer) k

/-- A sum goes on alike in both modes, over the relabelled terms. -/
lemma continueSum_relabel (e : Expr) (outer : ExprContext g) (k : Kind) :
    continueSum ⟨.legacySubtraction, m⟩ e.relabel outer.relabel k =
      (continueSum ⟨.distinct, m⟩ e outer k).relabel := by
  unfold continueSum
  split
  · rename_i op h
    have plain : (Move.shift (.factor (.first (.sum e op outer))) : Move g).relabel =
        .shift (.factor (.first (.sum e.relabel op.relabel outer.relabel))) := rfl
    rw [plain, additive_relabel h]
  · exact finishExpression_relabel k e outer

/-- A relabelled term finishes in the one mode as the term does in the other. -/
lemma finishTerm_relabel (e : Expr) (outer : TermContext g) (k : Kind) :
    finishTerm ⟨.legacySubtraction, m⟩ e.relabel outer.relabel k =
      (finishTerm ⟨.distinct, m⟩ e outer k).relabel := by
  cases outer with
  | first outer =>
    unfold finishTerm
    dsimp only [TermContext.relabel]
    split
    · rename_i op h
      have plain : (Move.shift (.expression (.compare e op outer)) : Move g).relabel =
          .shift (.expression (.compare e.relabel op.relabel outer.relabel)) := rfl
      rw [plain, comparison_relabel h]
    · exact continueSum_relabel e outer k
  | sum left op outer => exact continueSum_relabel (.binary op left e) outer k

/-- Here a slash is read, and its operator is relabelled from then on. -/
lemma continueProduct_relabel (e : Expr) (outer : TermContext g) (k : Kind) :
    continueProduct ⟨.legacySubtraction, m⟩ e.relabel outer.relabel k =
      (continueProduct ⟨.distinct, m⟩ e outer k).relabel := by
  unfold continueProduct
  dsimp only
  rw [multiplicative_relabel]
  cases k.multiplicative? .distinct with
  | some op => rfl
  | none => exact finishTerm_relabel e outer k

/-- A relabelled factor finishes in the one mode as the factor does in the other. -/
lemma finishFactor_relabel (k : Kind) : ∀ (e : Expr) (outer : FactorContext g),
    finishFactor ⟨.legacySubtraction, m⟩ e.relabel outer.relabel k =
      (finishFactor ⟨.distinct, m⟩ e outer k).relabel
  | e, .first outer => continueProduct_relabel e outer k
  | e, .product left op outer => continueProduct_relabel (.binary op left e) outer k
  | e, .signed negate outer => by
    rw [FactorContext.relabel, finishFactor, finishFactor, applySign_relabel,
      finishFactor_relabel k _ outer]

/-- A name finishes alike in both modes. -/
lemma finishName_relabel (name : String) (outer : FactorContext g) (k : Kind) :
    finishName ⟨.legacySubtraction, m⟩ name outer.relabel k =
      (finishName ⟨.distinct, m⟩ name outer k).relabel := by
  unfold finishName
  split
  · rfl
  · exact finishFactor_relabel k (.ref name) outer

/-- The parameters of a declaration go on alike in both modes. -/
lemma continueParameters_relabel (name : String) (params : List String) (outer : StmtContext g)
    (k : Kind) :
    continueParameters name params outer.relabel k =
      (continueParameters name params outer k).relabel := by
  unfold continueParameters
  split
  · rfl
  · split <;> rfl

/-- A step of the relabelled state is the relabelled step. -/
theorem step_relabel (s : State g) (k : Kind) :
    step ⟨.legacySubtraction, m⟩ s.relabel k = (step ⟨.distinct, m⟩ s k).relabel := by
  cases s with
  | block outer => exact beginBlock_relabel outer k
  | statements earlier outer => exact continueBlock_relabel earlier outer k
  | closed body outer => exact finishBlock_relabel body outer k
  | statement outer => exact beginStatement_relabel outer k
  | variableName scope outer =>
    unfold step
    dsimp only [State.relabel]
    split <;> rfl
  | functionName outer =>
    unfold step
    dsimp only [State.relabel]
    split <;> rfl
  | signature name outer =>
    unfold step
    dsimp only [State.relabel]
    split <;> rfl
  | parameters name params outer => exact continueParameters_relabel name params outer k
  | expression outer => exact beginExpression_relabel outer k
  | factor outer => exact beginFactor_relabel outer k
  | operand negate outer =>
    rw [State.relabel, step, step, outer.depth_relabel, ← openLevel_relabel,
      ← beginFactor_relabel]
    rfl
  | name name outer => exact finishName_relabel name outer k
  | arguments callee args outer => exact continueCall_relabel callee args outer k
  | value e outer => exact finishFactor_relabel k e outer

/-! ## Whole runs -/

/-- A walk from the relabelled state is the relabelled walk. -/
theorem walk_relabel (s : State g) (ks : List Kind) :
    walk ⟨.legacySubtraction, m⟩ s.relabel ks = (walk ⟨.distinct, m⟩ s ks).relabel := by
  induction ks generalizing s with
  | nil => rfl
  | cons k ks ih =>
    rw [walk, walk, step_relabel]
    cases step ⟨.distinct, m⟩ s k with
    | shift next => exact ih next
    | done result => rfl
    | refuse why => rfl

/-- Where a parse stops in the one mode, it stops in the other, with the relabelled tree or the same
error. -/
lemma Stop.relabel {before : List Token} {item : Item} {answer : Except SyntaxError Block}
    (h : Stop ⟨.distinct, m⟩ before item answer) :
    Stop ⟨.legacySubtraction, m⟩ before item (answer.map Block.relabel) := by
  have taken : ∀ {s : State .program},
      walk ⟨.distinct, m⟩ (State.initial .program) (before.map Token.kind) = .shift s →
      walk ⟨.legacySubtraction, m⟩ (State.initial .program) (before.map Token.kind) =
        .shift s.relabel := by
    intro s hw
    have walked := walk_relabel (m := m) (State.initial .program) (before.map Token.kind)
    rwa [hw] at walked
  cases h with
  | error hw => exact .error (taken hw)
  | @refuse s t why hw hs => exact .refuse (taken hw) (by rw [step_relabel, hs]; rfl)
  | @done s t b hw hs => exact .done (taken hw) (by rw [step_relabel, hs]; rfl)

/-- The mode in which a slash subtracts gives the tree of the other mode with every division made a
subtraction, node by node, so nothing in it divides; and it fails where the other mode fails, with
the same error. -/
theorem parse_modes_agree (limit : Nat) (items : List Item) :
    parseItems ⟨.legacySubtraction, limit⟩ items =
      (parseItems ⟨.distinct, limit⟩ items).map Block.relabel ∧
    (∀ error, parseItems ⟨.legacySubtraction, limit⟩ items = .error error ↔
      parseItems ⟨.distinct, limit⟩ items = .error error) ∧
    ∀ b, parseItems ⟨.legacySubtraction, limit⟩ items = .ok b →
      ∀ e ∈ Stmt.exprsOfAll b, .div ∉ e.operators := by
  obtain ⟨before, item, after, stream, stop, _⟩ := exists_stop ⟨.distinct, limit⟩ items
  have agree : parseItems ⟨.legacySubtraction, limit⟩ items =
      (parseItems ⟨.distinct, limit⟩ items).map Block.relabel := stop.relabel.parseItems stream
  rw [agree]
  refine ⟨rfl, fun error => ?_, fun b parsed => ?_⟩
  · cases parseItems ⟨.distinct, limit⟩ items with
    | ok b => exact ⟨nofun, nofun⟩
    | error e => exact Iff.rfl
  · cases hp : parseItems ⟨.distinct, limit⟩ items with
    | ok c =>
      rw [hp] at parsed
      obtain rfl := Except.ok.inj parsed
      exact c.div_notMem_relabel
    | error e =>
      rw [hp] at parsed
      cases parsed

end Quill
