import Quill.Grammar.Context
import Quill.Grammar.Expectation

/-!
# One move of the parser

The grammar as a machine that looks at one token at a time. A state says what has just been read and
what is open around it. Given the next token's kind, `step` takes the token and goes on in another
state, or finishes without taking it, or refuses it.

The grammar: a comparison takes a single term on its left and a whole expression on its right, sums
and products go left to right, `!` takes the whole expression behind it, a sign takes one factor, a
name before a parenthesis is a call, and arguments stand side by side without a separator.

A token is taken only after it has been looked at, so every refusal is of a token that no rule
allows, and the token at the end of the input is never taken (`step_endOfInput`).
-/

namespace Quill

/-- What has been read, and what is open around it. -/
inductive State (g : Goal) where
  | block (outer : BlockContext g)
  | statements (earlier : List Stmt) (outer : BlockContext g)
  | closed (body : Block) (outer : BlockContext g)
  | statement (outer : StmtContext g)
  | variableName (scope : Scope) (outer : StmtContext g)
  | functionName (outer : StmtContext g)
  | signature (name : String) (outer : StmtContext g)
  | parameters (name : String) (params : List String) (outer : StmtContext g)
  | expression (outer : ExprContext g)
  | factor (outer : FactorContext g)
  | operand (negate : Bool) (outer : FactorContext g)
  | name (name : String) (outer : FactorContext g)
  | arguments (callee : String) (args : List Expr) (outer : FactorContext g)
  | value (e : Expr) (outer : FactorContext g)

/-- What the parser does about a token. -/
inductive Move (g : Goal) where
  | shift (next : State g)
  | done (result : g.Result)
  | refuse (why : Refusal)

variable {g : Goal}

/-- The levels that are open in a state. -/
def State.depth : State g → Nat
  | block outer => outer.depth
  | statements _ outer => outer.depth + 1
  | closed _ outer => outer.depth
  | statement outer => outer.depth
  | variableName _ outer => outer.depth
  | functionName outer => outer.depth
  | signature _ outer => outer.depth
  | parameters _ _ outer => outer.depth
  | expression outer => outer.depth
  | factor outer => outer.depth
  | operand _ outer => outer.depth
  | name _ outer => outer.depth
  | arguments _ _ outer => outer.depth
  | value _ outer => outer.depth

/-- The state in which the parser looks for its goal. -/
def State.initial : (g : Goal) → State g
  | .expression => .expression (.whole rfl)
  | .statement => .statement (.whole rfl)
  | .block => .block (.whole rfl)
  | .program => .block (.program rfl)

/-- Opens one more level where `depth` are open, unless that is the limit. -/
def openLevel (settings : Settings) (depth : Nat) (move : Move g) : Move g :=
  if depth < settings.maxDepth then move else .refuse .tooDeep

/-- A factor begins with the token. -/
def beginFactor (outer : FactorContext g) : Kind → Move g
  | .number x => .shift (.value (.number x) outer)
  | .string s => .shift (.value (.string s) outer)
  | .operator .plus => .shift (.operand false outer)
  | .operator .minus => .shift (.operand true outer)
  | .mark .leftParen => .shift (.expression (.group outer))
  | .word w =>
    match Keyword.ofText? w with
    | none => .shift (.name w outer)
    | some .kwTrue => .shift (.value (.bool true) outer)
    | some .kwFalse => .shift (.value (.bool false) outer)
    | some .kwNone => .shift (.value .none outer)
    | some _ => .refuse (.unexpected [.expression])
  | _ => .refuse (.unexpected [.expression])

/-- An expression begins with the token. -/
def beginExpression (settings : Settings) (outer : ExprContext g) (k : Kind) : Move g :=
  openLevel settings outer.depth <|
    match k with
    | .operator .bang => .shift (.expression (.not outer))
    | _ => beginFactor (.first (.first outer)) k

/-- A block begins with the token. -/
def beginBlock (settings : Settings) (outer : BlockContext g) (k : Kind) : Move g :=
  openLevel settings outer.depth <|
    match k with
    | .mark .leftBrace => .shift (.statements [] outer)
    | _ => .refuse (.unexpected [.mark .leftBrace])

/-- A statement begins with the token. A reserved word selects its form, and anything else begins an
expression. -/
def beginStatement (settings : Settings) (outer : StmtContext g) (k : Kind) : Move g :=
  match k.keyword? with
  | some .kwGlobal => .shift (.variableName .outermost outer)
  | some .kwLocal => .shift (.variableName .here outer)
  | some .kwFn => .shift (.functionName outer)
  | some .kwReturn => .shift (.expression (.giveBack outer))
  | some .kwIf => .shift (.expression (.branch [] outer))
  | some .kwWhile => .shift (.expression (.loop outer))
  | some .kwPrint => .shift (.expression (.print outer))
  | _ => beginExpression settings (.expression outer) k

/-- Inside a block, a statement or the closing brace follows. -/
def continueBlock (settings : Settings) (earlier : List Stmt) (outer : BlockContext g) (k : Kind) :
    Move g :=
  if k = .mark .rightBrace then
    .shift (.closed earlier outer)
  else if k.startsStatement then
    beginStatement settings (.item earlier outer) k
  else
    .refuse (.unexpected [.mark .rightBrace, .statement])

/-- Inside the parentheses of a call, an argument or the closing parenthesis follows. -/
def continueCall (settings : Settings) (callee : String) (args : List Expr)
    (outer : FactorContext g) (k : Kind) : Move g :=
  if k = .mark .rightParen then
    .shift (.value (.call callee args) outer)
  else if k.startsExpression then
    beginExpression settings (.argument callee args outer) k
  else
    .refuse (.unexpected [.mark .rightParen, .expression])

/-- A statement is finished before the token. -/
def finishStatement (s : Stmt) (outer : StmtContext g) (k : Kind) : Move g :=
  match outer with
  | .whole asked => .done (asked ▸ s)
  | .item earlier outer =>
    match k with
    | .mark .semicolon => .shift (.statements (earlier ++ [s]) outer)
    | _ => .refuse (.unexpected [.mark .semicolon])

/-- A block was closed before the token. -/
def finishBlock (body : Block) (outer : BlockContext g) (k : Kind) : Move g :=
  match outer with
  | .whole asked => .done (asked ▸ body)
  | .program asked =>
    match k with
    | .endOfInput => .done (asked ▸ body)
    | _ => .refuse (.unexpected [.endOfInput])
  | .function name params outer => finishStatement (.declare name params body) outer k
  | .branch earlier condition outer =>
    let branches := earlier ++ [.arm condition body]
    match k.keyword? with
    | some .kwElif => .shift (.expression (.branch branches outer))
    | some .kwElse => .shift (.block (.otherwise branches outer))
    | _ => finishStatement (.conditional branches none) outer k
  | .otherwise branches outer => finishStatement (.conditional branches (some body)) outer k
  | .loop condition outer => finishStatement (.loop condition body) outer k

/-- An expression is finished before the token. -/
def finishExpression (settings : Settings) (e : Expr) (outer : ExprContext g) (k : Kind) : Move g :=
  match outer with
  | .whole asked => .done (asked ▸ e)
  | .not outer => finishExpression settings (.unary .not e) outer k
  | .compare left op outer => finishExpression settings (.binary op left e) outer k
  | .group outer =>
    match k with
    | .mark .rightParen => .shift (.value e outer)
    | _ => .refuse (.unexpected [.mark .rightParen])
  | .argument callee args outer => continueCall settings callee (args ++ [e]) outer k
  | .assign scope name outer => finishStatement (.assign scope name e) outer k
  | .giveBack outer => finishStatement (.giveBack e) outer k
  | .print outer => finishStatement (.print e) outer k
  | .expression outer => finishStatement (.expression e) outer k
  | .branch earlier outer => beginBlock settings (.branch earlier e outer) k
  | .loop outer => beginBlock settings (.loop e outer) k
termination_by structural outer

/-- A sum is finished before the token, or goes on with it. -/
def continueSum (settings : Settings) (e : Expr) (outer : ExprContext g) (k : Kind) : Move g :=
  match k.additive? with
  | some op => .shift (.factor (.first (.sum e op outer)))
  | none => finishExpression settings e outer k

/-- A term is finished before the token. Only the first term of an expression may be compared. -/
def finishTerm (settings : Settings) (e : Expr) (outer : TermContext g) (k : Kind) : Move g :=
  match outer with
  | .first outer =>
    match k.comparison? with
    | some op => .shift (.expression (.compare e op outer))
    | none => continueSum settings e outer k
  | .sum left op outer => continueSum settings (.binary op left e) outer k

/-- A product is finished before the token, or goes on with it. -/
def continueProduct (settings : Settings) (e : Expr) (outer : TermContext g) (k : Kind) : Move g :=
  match k.multiplicative? settings.division with
  | some op => .shift (.factor (.product e op outer))
  | none => finishTerm settings e outer k

/-- The factor with the signs in front of it. A plus leaves no trace. -/
def applySign (negate : Bool) (e : Expr) : Expr :=
  if negate then .unary .negate e else e

/-- A factor is finished before the token. -/
def finishFactor (settings : Settings) (e : Expr) (outer : FactorContext g) (k : Kind) : Move g :=
  match outer with
  | .first outer => continueProduct settings e outer k
  | .product left op outer => continueProduct settings (.binary op left e) outer k
  | .signed negate outer => finishFactor settings (applySign negate e) outer k
termination_by structural outer

/-- A name was read before the token, and a parenthesis makes it a call. -/
def finishName (settings : Settings) (name : String) (outer : FactorContext g) (k : Kind) : Move g :=
  match k with
  | .mark .leftParen => .shift (.arguments name [] outer)
  | _ => finishFactor settings (.ref name) outer k

/-- The parameters of a function up to the token. -/
def continueParameters (name : String) (params : List String) (outer : StmtContext g) (k : Kind) :
    Move g :=
  if k = .mark .rightParen then
    .shift (.block (.function name params outer))
  else
    match k.name? with
    | some param => .shift (.parameters name (params ++ [param]) outer)
    | none => .refuse (.unexpected [.parameterName, .mark .rightParen])

/-- What the parser does about a token of kind `k`. -/
def step (settings : Settings) (s : State g) (k : Kind) : Move g :=
  match s with
  | .block outer => beginBlock settings outer k
  | .statements earlier outer => continueBlock settings earlier outer k
  | .closed body outer => finishBlock body outer k
  | .statement outer => beginStatement settings outer k
  | .variableName scope outer =>
    match k.name? with
    | some name => .shift (.expression (.assign scope name outer))
    | none => .refuse (.unexpected [.variableName])
  | .functionName outer =>
    match k.name? with
    | some name => .shift (.signature name outer)
    | none => .refuse (.unexpected [.functionName])
  | .signature name outer =>
    match k with
    | .mark .leftParen => .shift (.parameters name [] outer)
    | _ => .refuse (.unexpected [.mark .leftParen])
  | .parameters name params outer => continueParameters name params outer k
  | .expression outer => beginExpression settings outer k
  | .factor outer => beginFactor outer k
  | .operand negate outer =>
    openLevel settings outer.depth (beginFactor (.signed negate outer) k)
  | .name name outer => finishName settings name outer k
  | .arguments callee args outer => continueCall settings callee args outer k
  | .value e outer => finishFactor settings e outer k

/-- A move that takes no token. -/
def Move.Stays (m : Move g) : Prop :=
  ∀ s, m ≠ .shift s

/-- The end of a run takes no token. -/
theorem Move.stays_done (r : g.Result) : (Move.done r).Stays := nofun

/-- A refusal takes no token. -/
theorem Move.stays_refuse (why : Refusal) : (Move.refuse why : Move g).Stays := nofun

/-- The check of a level takes no token of its own. -/
theorem stays_openLevel {settings : Settings} {depth : Nat} {m : Move g} (h : m.Stays) :
    (openLevel settings depth m).Stays := by
  unfold openLevel
  split
  · exact h
  · exact Move.stays_refuse _

/-- At the end of the input no factor begins, so the token stays. -/
theorem stays_beginFactor (outer : FactorContext g) : (beginFactor outer .endOfInput).Stays :=
  Move.stays_refuse _

/-- At the end of the input no expression begins, so the token stays. -/
theorem stays_beginExpression (settings : Settings) (outer : ExprContext g) :
    (beginExpression settings outer .endOfInput).Stays :=
  stays_openLevel (stays_beginFactor _)

/-- At the end of the input no block begins, so the token stays. -/
theorem stays_beginBlock (settings : Settings) (outer : BlockContext g) :
    (beginBlock settings outer .endOfInput).Stays :=
  stays_openLevel (Move.stays_refuse _)

/-- Behind a statement, the end of the input is not taken. -/
theorem stays_finishStatement (s : Stmt) (outer : StmtContext g) :
    (finishStatement s outer .endOfInput).Stays := by
  cases outer with
  | whole _ => exact Move.stays_done _
  | item _ _ => exact Move.stays_refuse _

/-- Behind a block, the end of the input is not taken. -/
theorem stays_finishBlock (body : Block) (outer : BlockContext g) :
    (finishBlock body outer .endOfInput).Stays := by
  cases outer with
  | whole _ => exact Move.stays_done _
  | program _ => exact Move.stays_done _
  | function _ _ _ => exact stays_finishStatement _ _
  | branch _ _ _ => exact stays_finishStatement _ _
  | otherwise _ _ => exact stays_finishStatement _ _
  | loop _ _ => exact stays_finishStatement _ _

/-- Behind an expression, the end of the input is not taken. -/
theorem stays_finishExpression (settings : Settings) (e : Expr) (outer : ExprContext g) :
    (finishExpression settings e outer .endOfInput).Stays := by
  match outer with
  | .whole _ => exact Move.stays_done _
  | .not outer => exact stays_finishExpression settings _ outer
  | .compare _ _ outer => exact stays_finishExpression settings _ outer
  | .group _ => exact Move.stays_refuse _
  | .argument _ _ _ => exact Move.stays_refuse _
  | .assign _ _ _ => exact stays_finishStatement _ _
  | .giveBack _ => exact stays_finishStatement _ _
  | .print _ => exact stays_finishStatement _ _
  | .expression _ => exact stays_finishStatement _ _
  | .branch _ _ => exact stays_beginBlock _ _
  | .loop _ => exact stays_beginBlock _ _
termination_by structural outer

/-- Behind a term, the end of the input is not taken. -/
theorem stays_finishTerm (settings : Settings) (e : Expr) (outer : TermContext g) :
    (finishTerm settings e outer .endOfInput).Stays := by
  cases outer with
  | first _ => exact stays_finishExpression _ _ _
  | sum _ _ _ => exact stays_finishExpression _ _ _

/-- Behind a factor, the end of the input is not taken. -/
theorem stays_finishFactor (settings : Settings) (e : Expr) (outer : FactorContext g) :
    (finishFactor settings e outer .endOfInput).Stays := by
  match outer with
  | .first _ => exact stays_finishTerm _ _ _
  | .product _ _ _ => exact stays_finishTerm _ _ _
  | .signed _ outer => exact stays_finishFactor settings _ outer
termination_by structural outer

/-- The token at the end of the input is never taken. -/
theorem step_endOfInput (settings : Settings) (s : State g) :
    (step settings s .endOfInput).Stays := by
  cases s with
  | block _ => exact stays_beginBlock _ _
  | statements _ _ => exact Move.stays_refuse _
  | closed _ _ => exact stays_finishBlock _ _
  | statement _ => exact stays_beginExpression _ _
  | variableName _ _ => exact Move.stays_refuse _
  | functionName _ => exact Move.stays_refuse _
  | signature _ _ => exact Move.stays_refuse _
  | parameters _ _ _ => exact Move.stays_refuse _
  | expression _ => exact stays_beginExpression _ _
  | factor outer => exact stays_beginFactor outer
  | operand negate outer => exact stays_openLevel (stays_beginFactor (.signed negate outer))
  | name _ _ => exact stays_finishFactor _ _ _
  | arguments _ _ _ => exact Move.stays_refuse _
  | value _ _ => exact stays_finishFactor _ _ _

end Quill
