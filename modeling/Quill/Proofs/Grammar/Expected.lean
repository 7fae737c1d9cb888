import Quill.Proofs.Grammar.Completion
import Quill.Proofs.Grammar.Tables

/-!
# What was expected

A refusal lists what the grammar would have taken instead. `Expectation.Fits` says by derivations
what an entry of the list stands for, and every entry is right: some token that it stands for can
come next, and the state can then still be completed (`step_advises`).

There is one lemma for each function that the step is made of. A function that finishes a construct
speaks for the context outside, so what it says holds with an inert token, and then it holds for the
context inside as well.
-/

namespace Quill

variable {g : Goal} {settings : Settings} {d : Division} {k : Kind}

/-- The token is the entry, or begins the construct that the entry names. -/
def Expectation.Fits (d : Division) : Expectation → Kind → Prop
  | mark m, k => k = .mark m
  | expression, k => ∃ ks rest e, DerivesExpr d (k :: ks) rest e
  | statement, k => ∃ ks rest s, DerivesStmt d (k :: ks) rest s
  | variableName, k => ∃ x, k = .word x ∧ IsName x
  | functionName, k => ∃ x, k = .word x ∧ IsName x
  | parameterName, k => ∃ x, k = .word x ∧ IsName x
  | endOfInput, k => k = .endOfInput

/-- A string fits where an expression is expected. -/
lemma Expectation.fits_expression : Expectation.expression.Fits d (.string "") :=
  ⟨[.endOfInput], _, _, derivesExpr_string .endOfInput ""⟩

/-- A string fits where a statement is expected. -/
lemma Expectation.fits_statement : Expectation.statement.Fits d (.string "") :=
  ⟨[.endOfInput], _, _, .expression (derivesExpr_string .endOfInput "")⟩

/-- For every entry of a refusal there are a token that fits it and kinds behind the token for which
`good` holds. -/
def Move.Advises (d : Division) (good : Kind → List Kind → Prop) : Move g → Prop
  | .refuse (.unexpected expected) => ∀ x ∈ expected, ∃ k ks, x.Fits d k ∧ good k ks
  | .refuse .tooDeep => True
  | .shift _ => True
  | .done _ => True

section

variable {good good' : Kind → List Kind → Prop} {m : Move g}

/-- Advice that is good in one way is good in every way that follows. -/
lemma Move.Advises.mono (h : m.Advises d good) (weaker : ∀ k ks, good k ks → good' k ks) :
    m.Advises d good' := by
  match m with
  | .refuse (.unexpected expected) =>
    intro x hx
    obtain ⟨k, ks, hk, hks⟩ := h x hx
    exact ⟨k, ks, hk, weaker k ks hks⟩
  | .refuse .tooDeep => trivial
  | .shift _ => trivial
  | .done _ => trivial

/-- A refusal with one entry is sound if a token fits it that can come next. -/
lemma advises_one {x : Expectation} {k : Kind} (hk : x.Fits d k) (h : ∃ ks, good k ks) :
    (Move.refuse (.unexpected [x]) : Move g).Advises d good := by
  intro y hy
  obtain rfl := List.mem_singleton.1 hy
  obtain ⟨ks, hks⟩ := h
  exact ⟨k, ks, hk, hks⟩

/-- A refusal with two entries is sound if for each of them a token fits it that can come next. -/
lemma advises_two {x y : Expectation} {k l : Kind} (hk : x.Fits d k) (h : ∃ ks, good k ks)
    (hl : y.Fits d l) (h' : ∃ ks, good l ks) :
    (Move.refuse (.unexpected [x, y]) : Move g).Advises d good := by
  intro z hz
  cases hz with
  | head =>
    obtain ⟨ks, hks⟩ := h
    exact ⟨k, ks, hk, hks⟩
  | tail _ hz => exact advises_one (g := g) hl h' z hz

/-- A list is sound no matter whether a level has to open first. -/
lemma advises_openLevel {depth : Nat} (h : m.Advises d good) :
    (openLevel settings depth m).Advises d good := by
  unfold openLevel
  split
  · exact h
  · trivial

/-! ## Beginning a construct -/

/-- Where a string literal is good, so is the advice of a factor's beginning. -/
lemma advises_beginFactor {outer : FactorContext g} (h : ∃ ks, good (.string "") ks) :
    (beginFactor outer k).Advises d good := by
  unfold beginFactor
  split
  · trivial
  · trivial
  · trivial
  · trivial
  · trivial
  · split
    · trivial
    · trivial
    · trivial
    · trivial
    · exact advises_one Expectation.fits_expression h
  · exact advises_one Expectation.fits_expression h

/-- Where an expression begins, the list is sound if a string can come next. -/
lemma advises_beginExpression {outer : ExprContext g} (h : ∃ ks, good (.string "") ks) :
    (beginExpression settings outer k).Advises d good := by
  apply advises_openLevel
  split
  · trivial
  · exact advises_beginFactor h

/-- Where a block begins, the list is sound if its brace can come next. -/
lemma advises_beginBlock {outer : BlockContext g} (h : ∃ ks, good (.mark .leftBrace) ks) :
    (beginBlock settings outer k).Advises d good := by
  apply advises_openLevel
  split
  · trivial
  · exact advises_one rfl h

/-- Where a statement begins, the list is sound if a string can come next. -/
lemma advises_beginStatement {outer : StmtContext g} (h : ∃ ks, good (.string "") ks) :
    (beginStatement settings outer k).Advises d good := by
  unfold beginStatement
  split
  · trivial
  · trivial
  · trivial
  · trivial
  · trivial
  · trivial
  · trivial
  · exact advises_beginExpression h

/-- Inside a block, a brace or a statement can come next. -/
lemma advises_continueBlock {earlier : List Stmt} {outer : BlockContext g}
    (close : ∃ ks, good (.mark .rightBrace) ks) (h : ∃ ks, good (.string "") ks) :
    (continueBlock settings earlier outer k).Advises d good := by
  unfold continueBlock
  split
  · trivial
  · split
    · exact advises_beginStatement h
    · exact advises_two rfl close Expectation.fits_statement h

/-- Between arguments, the list is sound if a closing parenthesis and a string can come next. -/
lemma advises_continueCall {f : String} {args : List Expr} {outer : FactorContext g}
    (close : ∃ ks, good (.mark .rightParen) ks) (h : ∃ ks, good (.string "") ks) :
    (continueCall settings f args outer k).Advises d good := by
  unfold continueCall
  split
  · trivial
  · split
    · exact advises_beginExpression h
    · exact advises_two rfl close Expectation.fits_expression h

/-- Between parameters, the list is sound if a closing parenthesis and a name can come next. -/
lemma advises_continueParameters {f : String} {xs : List String} {outer : StmtContext g}
    (close : ∃ ks, good (.mark .rightParen) ks) (h : ∃ ks, good (.word "x") ks) :
    (continueParameters f xs outer k).Advises d good := by
  unfold continueParameters
  split
  · trivial
  · split
    · trivial
    · exact advises_two ⟨_, rfl, isName_x⟩ h rfl close

end

/-! ## Finishing a construct -/

/-- An inert token, with kinds behind it that close the context. -/
def InertClose {α : Type} (closes : List Kind → α → Prop) (k : Kind) (ks : List Kind) : Prop :=
  Inert k ∧ ∃ r, closes (k :: ks) r

/-- What closes a context closes every context that as much closes. -/
lemma InertClose.mono {α : Type} {closes closes' : List Kind → α → Prop} {k : Kind}
    {ks : List Kind} (h : InertClose closes k ks)
    (weaker : ∀ r, Inert k → closes (k :: ks) r → closes' (k :: ks) r) :
    InertClose closes' k ks :=
  ⟨h.1, h.2.imp fun r => weaker r h.1⟩

/-- A statement can be finished by a semicolon. -/
lemma advises_finishStatement {s : Stmt} {outer : StmtContext g} :
    (finishStatement s outer k).Advises d (InertClose (outer.Closes d s)) := by
  unfold finishStatement
  split
  · trivial
  · split
    · trivial
    · rename_i earlier outer _ _
      obtain ⟨k', ks, _, h⟩ := outer.canClose d
      obtain ⟨r, hr⟩ := h (earlier ++ s :: [])
      exact advises_one rfl ⟨_, .semicolon, r, _, _, _, rfl, .nil, hr⟩

/-- Behind a block, the list is sound: each entry fits an inert token that can close the context. -/
lemma advises_finishBlock {b : Block} {outer : BlockContext g} :
    (finishBlock b outer k).Advises d (InertClose (outer.Closes d b)) := by
  cases outer with
  | whole _ => trivial
  | program _ =>
    unfold finishBlock
    dsimp only
    split
    · trivial
    · exact advises_one rfl ⟨[], .endOfInput, _, ⟨_, rfl⟩, rfl⟩
  | function _ _ _ => exact advises_finishStatement
  | branch earlier c outer =>
    unfold finishBlock
    dsimp only
    split
    · trivial
    · trivial
    · exact advises_finishStatement.mono fun _ _ h => h.mono fun _ hk hr =>
        ⟨_, _, _, _, .nil (hk.head_ne_keyword _), .none (hk.head_ne_keyword _), hr⟩
  | otherwise _ _ => exact advises_finishStatement
  | loop _ _ => exact advises_finishStatement

/-- An expression can be finished as what is open around it can. -/
lemma advises_finishExpression : ∀ {e : Expr} (outer : ExprContext g),
    (finishExpression settings e outer k).Advises d (InertClose (outer.Closes d e))
  | _, .whole _ => trivial
  | _, .not outer => advises_finishExpression outer
  | _, .compare _ _ outer => advises_finishExpression outer
  | e, .group outer => by
    unfold finishExpression
    split
    · trivial
    · obtain ⟨k', ks, _, h⟩ := outer.canClose d
      obtain ⟨r, hr⟩ := h e
      exact advises_one rfl ⟨_, .rightParen, r, _, rfl, hr⟩
  | e, .argument f args outer => by
    rw [finishExpression]
    obtain ⟨k', ks, _, h⟩ := outer.canClose d
    apply advises_continueCall
    · obtain ⟨r, hr⟩ := h (.call f (args ++ e :: []))
      exact ⟨_, .rightParen, r, _, _, .nil, hr⟩
    · obtain ⟨r, hr⟩ := h (.call f (args ++ e :: [.string ""]))
      exact ⟨_, .string "", r, _, _, .cons (derivesExpr_string .rightParen "") .nil, hr⟩
  | _, .assign _ _ _ => advises_finishStatement
  | _, .giveBack _ => advises_finishStatement
  | _, .print _ => advises_finishStatement
  | _, .expression _ => advises_finishStatement
  | c, .branch earlier outer => by
    rw [finishExpression]
    apply advises_beginBlock
    obtain ⟨k', ks, hk, h⟩ := outer.canClose d
    obtain ⟨r, hr⟩ := h (.conditional (earlier ++ .arm c [] :: []) .none)
    exact ⟨_, .leftBrace, r, _, _, _, _, _, _, derivesBlock_braces _,
      .nil (hk.head_ne_keyword _), .none (hk.head_ne_keyword _), hr⟩
  | c, .loop outer => by
    rw [finishExpression]
    apply advises_beginBlock
    obtain ⟨k', ks, _, h⟩ := outer.canClose d
    obtain ⟨r, hr⟩ := h (.loop c [])
    exact ⟨_, .leftBrace, r, _, _, derivesBlock_braces _, hr⟩

/-- Behind a term, each entry of the list fits an inert token that can close the context. -/
lemma advises_continueSum {e : Expr} {outer : ExprContext g} :
    (continueSum settings e outer k).Advises d
      (InertClose fun ks r => ∃ e' rest, DerivesSum d e ks rest e' ∧ outer.Closes d e' rest r) := by
  unfold continueSum
  split
  · trivial
  · exact (advises_finishExpression outer).mono fun _ _ h => h.mono fun _ hk hr =>
      ⟨_, _, .done (hk.noneAhead _), hr⟩

/-- Behind the operand of a sum, each entry of the list fits an inert token that can close the
context. -/
lemma advises_finishTerm {e : Expr} {outer : TermContext g} :
    (finishTerm settings e outer k).Advises d (InertClose (outer.Closes d e)) := by
  cases outer with
  | first outer =>
    unfold finishTerm
    dsimp only
    split
    · trivial
    · exact advises_continueSum.mono fun _ _ h => h.mono fun _ hk hr => .inr ⟨hk.noneAhead _, hr⟩
  | sum _ _ _ => exact advises_continueSum

/-- Behind a factor, each entry of the list fits an inert token that can close the context. -/
lemma advises_continueProduct {e : Expr} {outer : TermContext g} :
    (continueProduct settings e outer k).Advises d
      (InertClose fun ks r =>
        ∃ t rest, DerivesProduct d e ks rest t ∧ outer.Closes d t rest r) := by
  unfold continueProduct
  split
  · trivial
  · exact advises_finishTerm.mono fun _ _ h => h.mono fun _ hk hr =>
      ⟨_, _, .done (hk.noneAhead _), hr⟩

/-- Behind the operand of a product or of a sign, each entry of the list fits an inert token that
can close the context. -/
lemma advises_finishFactor : ∀ {e : Expr} (outer : FactorContext g),
    (finishFactor settings e outer k).Advises d (InertClose (outer.Closes d e))
  | _, .first _ => advises_continueProduct
  | _, .product _ _ _ => advises_continueProduct
  | _, .signed _ outer => advises_finishFactor outer

/-! ## The step -/

/-- Whatever a refusal lists can come next. -/
theorem step_advises (s : State g) :
    (step settings s k).Advises d fun k ks => ∃ r, s.Closes d (k :: ks) r := by
  cases s with
  | block outer => exact advises_beginBlock outer.takes_leftBrace
  | statements earlier outer =>
    exact advises_continueBlock (outer.takes_rightBrace earlier) (outer.takes_string earlier)
  | closed b outer => exact advises_finishBlock.mono fun _ _ h => h.2
  | statement outer => exact advises_beginStatement outer.takes_string
  | variableName scope outer =>
    unfold step
    dsimp only
    split
    · trivial
    · exact advises_one ⟨_, rfl, isName_x⟩ (outer.takes_variableName scope)
  | functionName outer =>
    unfold step
    dsimp only
    split
    · trivial
    · exact advises_one ⟨_, rfl, isName_x⟩ outer.takes_functionName
  | signature f outer =>
    unfold step
    dsimp only
    split
    · trivial
    · exact advises_one rfl (outer.takes_leftParen f)
  | parameters f xs outer =>
    exact advises_continueParameters (outer.takes_rightParen f xs) (outer.takes_parameter f xs)
  | expression outer => exact advises_beginExpression outer.takes_string
  | factor outer => exact advises_beginFactor outer.takes_string
  | operand negate outer =>
    exact advises_openLevel
      (advises_beginFactor (FactorContext.signed negate outer).takes_string)
  | name x outer =>
    unfold step finishName
    dsimp only
    split
    · trivial
    · exact (advises_finishFactor outer).mono fun _ _ h =>
        h.2.imp fun _ hr => .inr ⟨h.1.head_ne_leftParen, hr⟩
  | arguments f args outer =>
    exact advises_continueCall (outer.takes_rightParen f args) (outer.takes_argument f args)
  | value e outer => exact (advises_finishFactor outer).mono fun _ _ h => h.2

end Quill
