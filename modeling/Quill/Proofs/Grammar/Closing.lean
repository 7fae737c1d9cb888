import Quill.Grammar.Step
import Quill.Proofs.Grammar.Derivation

/-!
# What closes a context

The machine keeps what is open around the place it has reached. Here stands what the remaining kinds
have to be for everything open to close: `outer.Closes d e ks r` says that after the construct `e`
the kinds `ks` complete the context `outer`, and that the tree asked for is then `r`. The same is
said of a state, which may have to read a construct first, and of a move.

Everything is said by derivations of the grammar, so `State.Closes` relates a state to the grammar
without running it.
-/

namespace Quill

variable {g : Goal}

mutual

/-- After the expression `e`, the kinds complete what is open. -/
def ExprContext.Closes (d : Division) : ExprContext g → Expr → List Kind → g.Result → Prop
  | .whole asked, e, _, r => r = asked ▸ e
  | .not outer, e, ks, r => outer.Closes d (.unary .not e) ks r
  | .compare l op outer, e, ks, r => outer.Closes d (.binary op l e) ks r
  | .group outer, e, ks, r => ∃ rest, ks = .mark .rightParen :: rest ∧ outer.Closes d e rest r
  | .argument f args outer, e, ks, r =>
    ∃ es rest, DerivesArgs d ks (.mark .rightParen :: rest) es ∧
      outer.Closes d (.call f (args ++ e :: es)) rest r
  | .assign scope x outer, e, ks, r => outer.Closes d (.assign scope x e) ks r
  | .giveBack outer, e, ks, r => outer.Closes d (.giveBack e) ks r
  | .print outer, e, ks, r => outer.Closes d (.print e) ks r
  | .expression outer, e, ks, r => outer.Closes d (.expression e) ks r
  | .branch earlier outer, c, ks, r =>
    ∃ b bs o ks₁ ks₂ rest, DerivesBlock d ks ks₁ b ∧ DerivesElifs d ks₁ ks₂ bs ∧
      DerivesElse d ks₂ rest o ∧ outer.Closes d (.conditional (earlier ++ .arm c b :: bs) o) rest r
  | .loop outer, c, ks, r =>
    ∃ b rest, DerivesBlock d ks rest b ∧ outer.Closes d (.loop c b) rest r

/-- After the term `t`, the kinds complete what is open. -/
def TermContext.Closes (d : Division) : TermContext g → Expr → List Kind → g.Result → Prop
  | .first outer, t, ks, r =>
    (∃ o op e ks' rest, ks = .operator o :: ks' ∧ Compares o op ∧ DerivesExpr d ks' rest e ∧
      outer.Closes d (.binary op t e) rest r) ∨
    (NoneAhead Compares ks ∧ ∃ e rest, DerivesSum d t ks rest e ∧ outer.Closes d e rest r)
  | .sum l op outer, t, ks, r =>
    ∃ e rest, DerivesSum d (.binary op l t) ks rest e ∧ outer.Closes d e rest r

/-- After the factor `f`, the kinds complete what is open. -/
def FactorContext.Closes (d : Division) : FactorContext g → Expr → List Kind → g.Result → Prop
  | .first outer, f, ks, r =>
    ∃ t rest, DerivesProduct d f ks rest t ∧ outer.Closes d t rest r
  | .product l op outer, f, ks, r =>
    ∃ t rest, DerivesProduct d (.binary op l f) ks rest t ∧ outer.Closes d t rest r
  | .signed negate outer, f, ks, r => outer.Closes d (applySign negate f) ks r

/-- After the statement `s`, the kinds complete what is open. -/
def StmtContext.Closes (d : Division) : StmtContext g → Stmt → List Kind → g.Result → Prop
  | .whole asked, s, _, r => r = asked ▸ s
  | .item earlier outer, s, ks, r =>
    ∃ ss ks' rest, ks = .mark .semicolon :: ks' ∧
      DerivesStmts d ks' (.mark .rightBrace :: rest) ss ∧
      outer.Closes d (earlier ++ s :: ss) rest r

/-- After the block `b`, the kinds complete what is open. -/
def BlockContext.Closes (d : Division) : BlockContext g → Block → List Kind → g.Result → Prop
  | .whole asked, b, _, r => r = asked ▸ b
  | .program asked, b, ks, r => (∃ rest, ks = .endOfInput :: rest) ∧ r = asked ▸ b
  | .function f xs outer, b, ks, r => outer.Closes d (.declare f xs b) ks r
  | .branch earlier c outer, b, ks, r =>
    ∃ bs o mid rest, DerivesElifs d ks mid bs ∧ DerivesElse d mid rest o ∧
      outer.Closes d (.conditional (earlier ++ .arm c b :: bs) o) rest r
  | .otherwise bs outer, b, ks, r => outer.Closes d (.conditional bs (some b)) ks r
  | .loop c outer, b, ks, r => outer.Closes d (.loop c b) ks r

end

/-- The kinds complete the construct that the state is in and everything open around it. -/
def State.Closes (d : Division) : State g → List Kind → g.Result → Prop
  | .block outer, ks, r => ∃ b rest, DerivesBlock d ks rest b ∧ outer.Closes d b rest r
  | .statements earlier outer, ks, r =>
    ∃ ss rest, DerivesStmts d ks (.mark .rightBrace :: rest) ss ∧
      outer.Closes d (earlier ++ ss) rest r
  | .closed b outer, ks, r => outer.Closes d b ks r
  | .statement outer, ks, r => ∃ s rest, DerivesStmt d ks rest s ∧ outer.Closes d s rest r
  | .variableName scope outer, ks, r =>
    ∃ x ks' e rest, ks = .word x :: ks' ∧ IsName x ∧ DerivesExpr d ks' rest e ∧
      outer.Closes d (.assign scope x e) rest r
  | .functionName outer, ks, r =>
    ∃ f ks' xs mid b rest, ks = .word f :: .mark .leftParen :: ks' ∧ IsName f ∧
      DerivesParams ks' (.mark .rightParen :: mid) xs ∧ DerivesBlock d mid rest b ∧
      outer.Closes d (.declare f xs b) rest r
  | .signature f outer, ks, r =>
    ∃ ks' xs mid b rest, ks = .mark .leftParen :: ks' ∧
      DerivesParams ks' (.mark .rightParen :: mid) xs ∧ DerivesBlock d mid rest b ∧
      outer.Closes d (.declare f xs b) rest r
  | .parameters f earlier outer, ks, r =>
    ∃ xs mid b rest, DerivesParams ks (.mark .rightParen :: mid) xs ∧
      DerivesBlock d mid rest b ∧ outer.Closes d (.declare f (earlier ++ xs) b) rest r
  | .expression outer, ks, r => ∃ e rest, DerivesExpr d ks rest e ∧ outer.Closes d e rest r
  | .factor outer, ks, r => ∃ f rest, DerivesFactor d ks rest f ∧ outer.Closes d f rest r
  | .operand negate outer, ks, r =>
    ∃ f rest, DerivesFactor d ks rest f ∧ outer.Closes d (applySign negate f) rest r
  | .name x outer, ks, r =>
    (∃ ks' es rest, ks = .mark .leftParen :: ks' ∧
      DerivesArgs d ks' (.mark .rightParen :: rest) es ∧ outer.Closes d (.call x es) rest r) ∨
    (ks.head? ≠ some (.mark .leftParen) ∧ outer.Closes d (.ref x) ks r)
  | .arguments f earlier outer, ks, r =>
    ∃ es rest, DerivesArgs d ks (.mark .rightParen :: rest) es ∧
      outer.Closes d (.call f (earlier ++ es)) rest r
  | .value e outer, ks, r => outer.Closes d e ks r

/-- The kinds behind the token that was looked at complete everything after the move. -/
def Move.Closes (d : Division) : Move g → List Kind → g.Result → Prop
  | .shift next, ks, r => next.Closes d ks r
  | .done result, _, r => r = result
  | .refuse _, _, _ => False

end Quill
