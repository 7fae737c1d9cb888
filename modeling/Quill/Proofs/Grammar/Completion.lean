import Mathlib.Tactic.Common
import Quill.Proofs.Grammar.Closing

/-!
# Completing what is open

Whatever is open, some kinds close it. They are found from the inside outward: brackets are closed,
a body that is still missing is an empty block, and a statement gets its semicolon. The first kind
is always one that continues nothing in front of it (`Inert`), so a context can be closed after any
tree and no rule that looks one token ahead is disturbed.
-/

namespace Quill

variable {g : Goal} {d : Division}

/-- The token continues no construct in front of it: it is no operator, no word, and opens no
parenthesis. -/
structure Inert (k : Kind) : Prop where
  operator : ∀ o, k ≠ .operator o
  word : ∀ w, k ≠ .word w
  leftParen : k ≠ .mark .leftParen

namespace Inert

variable {k : Kind} {ks : List Kind}

/-- A closing parenthesis continues nothing. -/
lemma rightParen : Inert (.mark .rightParen) := ⟨nofun, nofun, nofun⟩

/-- An opening brace continues nothing. -/
lemma leftBrace : Inert (.mark .leftBrace) := ⟨nofun, nofun, nofun⟩

/-- A semicolon continues nothing. -/
lemma semicolon : Inert (.mark .semicolon) := ⟨nofun, nofun, nofun⟩

/-- The end of the input continues nothing. -/
lemma endOfInput : Inert .endOfInput := ⟨nofun, nofun, nofun⟩

/-- A string continues nothing. -/
lemma string (s : String) : Inert (.string s) := ⟨nofun, nofun, nofun⟩

/-- An inert token is no operator of any sort. -/
lemma noneAhead (h : Inert k) (joins : Operator → BinaryOp → Prop) : NoneAhead joins (k :: ks) :=
  fun o _ _ hk => h.operator o (Option.some.inj hk)

/-- An inert token is no keyword. -/
lemma head_ne_keyword (h : Inert k) (w : Keyword) : (k :: ks).head? ≠ some w.kind :=
  fun hk => h.word w.text (Option.some.inj hk)

/-- An inert token does not begin arguments. -/
lemma head_ne_leftParen (h : Inert k) : (k :: ks).head? ≠ some (.mark .leftParen) :=
  fun hk => h.leftParen (Option.some.inj hk)

end Inert

/-! ## The least texts of each construct -/

/-- In front of no operator, a factor by itself is a whole expression. -/
lemma DerivesFactor.expr_of_noneAhead {ks rest : List Kind} {e : Expr}
    (quiet : ∀ joins, NoneAhead joins rest) (h : DerivesFactor d ks rest e) :
    DerivesExpr d ks rest e :=
  .sum (.product h (.done (quiet _))) (quiet _) (.done (quiet _))

/-- In front of an inert token, a factor by itself is a whole expression. -/
lemma DerivesFactor.expr {ks ks' : List Kind} {k : Kind} {e : Expr} (hk : Inert k)
    (h : DerivesFactor d ks (k :: ks') e) : DerivesExpr d ks (k :: ks') e :=
  h.expr_of_noneAhead hk.noneAhead

/-- A string in front of an inert token is an expression. -/
lemma derivesExpr_string {ks : List Kind} {k : Kind} (hk : Inert k) (s : String) :
    DerivesExpr d (.string s :: k :: ks) (k :: ks) (.string s) :=
  DerivesFactor.string.expr hk

/-- Two braces are a block without statements. -/
lemma derivesBlock_braces (ks : List Kind) :
    DerivesBlock d (.mark .leftBrace :: .mark .rightBrace :: ks) ks [] :=
  .braces .nil

/-- The letter `x` is a name. -/
lemma isName_x : IsName "x" := by
  intro w
  cases w <;> decide

/-! ## Contexts -/

/-- After any construct, the same kinds close what is open, and the first of them is inert. -/
def CanClose {α β : Type} (closes : α → List Kind → β → Prop) : Prop :=
  ∃ k ks, Inert k ∧ ∀ x, ∃ r, closes x (k :: ks) r

section

variable {α α' β : Type} {inner : α → List Kind → β → Prop} {outer : α' → List Kind → β → Prop}
  {f : α → α'}

/-- What closes the outer context closes the inner one, when nothing has to come in between. -/
lemma CanClose.within (h : CanClose outer)
    (ends : ∀ {x k ks r}, Inert k → outer (f x) (k :: ks) r → inner x (k :: ks) r) :
    CanClose inner := by
  obtain ⟨k, ks, hk, closes⟩ := h
  exact ⟨k, ks, hk, fun x => (closes (f x)).imp fun _ => ends hk⟩

/-- What closes the outer context closes the inner one behind the kinds `k₀ :: front`. -/
lemma CanClose.behind {k₀ : Kind} (hk₀ : Inert k₀) (front : List Kind) (h : CanClose outer)
    (ends : ∀ {x k ks r}, Inert k → outer (f x) (k :: ks) r →
      inner x (k₀ :: (front ++ k :: ks)) r) :
    CanClose inner := by
  obtain ⟨k, ks, hk, closes⟩ := h
  exact ⟨k₀, front ++ k :: ks, hk₀, fun x => (closes (f x)).imp fun _ => ends hk⟩

end

mutual

/-- Every context can be closed, whatever was read in it. -/
theorem ExprContext.canClose (d : Division) : ∀ outer : ExprContext g, CanClose (outer.Closes d)
  | .whole _ => ⟨_, [], .endOfInput, fun _ => ⟨_, rfl⟩⟩
  | .not outer => (outer.canClose d).within fun _ hr => hr
  | .compare _ _ outer => (outer.canClose d).within fun _ hr => hr
  | .group outer => (outer.canClose d).behind .rightParen [] fun _ hr => ⟨_, rfl, hr⟩
  | .argument _ _ outer =>
    (outer.canClose d).behind .rightParen [] fun _ hr => ⟨_, _, .nil, hr⟩
  | .assign _ _ outer => (outer.canClose d).within fun _ hr => hr
  | .giveBack outer => (outer.canClose d).within fun _ hr => hr
  | .print outer => (outer.canClose d).within fun _ hr => hr
  | .expression outer => (outer.canClose d).within fun _ hr => hr
  | .branch _ outer =>
    -- The body is empty, and an inert token is no `elif` and no `else`.
    (outer.canClose d).behind .leftBrace [.mark .rightBrace] fun hk hr =>
      ⟨_, _, _, _, _, _, derivesBlock_braces _, .nil (hk.head_ne_keyword _),
        .none (hk.head_ne_keyword _), hr⟩
  | .loop outer =>
    (outer.canClose d).behind .leftBrace [.mark .rightBrace] fun _ hr =>
      ⟨_, _, derivesBlock_braces _, hr⟩

/-- Whatever term it gets, a term context can be closed in the same way. -/
theorem TermContext.canClose (d : Division) : ∀ outer : TermContext g, CanClose (outer.Closes d)
  | .first outer =>
    (outer.canClose d).within fun hk hr => .inr ⟨hk.noneAhead _, _, _, .done (hk.noneAhead _), hr⟩
  | .sum _ _ outer => (outer.canClose d).within fun hk hr => ⟨_, _, .done (hk.noneAhead _), hr⟩

/-- Whatever factor it gets, a factor context can be closed in the same way. -/
theorem FactorContext.canClose (d : Division) :
    ∀ outer : FactorContext g, CanClose (outer.Closes d)
  | .first outer => (outer.canClose d).within fun hk hr => ⟨_, _, .done (hk.noneAhead _), hr⟩
  | .product _ _ outer => (outer.canClose d).within fun hk hr => ⟨_, _, .done (hk.noneAhead _), hr⟩
  | .signed _ outer => (outer.canClose d).within fun _ hr => hr

/-- Whatever statement it gets, a statement context can be closed in the same way. -/
theorem StmtContext.canClose (d : Division) : ∀ outer : StmtContext g, CanClose (outer.Closes d)
  | .whole _ => ⟨_, [], .endOfInput, fun _ => ⟨_, rfl⟩⟩
  | .item _ outer =>
    (outer.canClose d).behind .semicolon [.mark .rightBrace] fun _ hr => ⟨_, _, _, rfl, .nil, hr⟩

/-- Whatever block it gets, a block context can be closed in the same way. -/
theorem BlockContext.canClose (d : Division) : ∀ outer : BlockContext g, CanClose (outer.Closes d)
  | .whole _ => ⟨_, [], .endOfInput, fun _ => ⟨_, rfl⟩⟩
  | .program _ => ⟨_, [], .endOfInput, fun _ => ⟨_, ⟨_, rfl⟩, rfl⟩⟩
  | .function _ _ outer => (outer.canClose d).within fun _ hr => hr
  | .branch _ _ outer =>
    (outer.canClose d).within fun hk hr =>
      ⟨_, _, _, _, .nil (hk.head_ne_keyword _), .none (hk.head_ne_keyword _), hr⟩
  | .otherwise _ outer => (outer.canClose d).within fun _ hr => hr
  | .loop _ outer => (outer.canClose d).within fun _ hr => hr

end

/-!
## States

Tokens that can come next in each state. Between them they are everything that a refusal lists, with
a string literal for an expression or a statement.
-/

/-- Where an expression begins, a string can come next. -/
lemma ExprContext.takes_string (outer : ExprContext g) :
    ∃ ks r, (State.expression outer).Closes d (.string "" :: ks) r := by
  obtain ⟨k, ks, hk, h⟩ := outer.canClose d
  obtain ⟨r, hr⟩ := h (.string "")
  exact ⟨k :: ks, r, _, _, derivesExpr_string hk "", hr⟩

/-- Where a factor begins, a string can come next. -/
lemma FactorContext.takes_string (outer : FactorContext g) :
    ∃ ks r, (State.factor outer).Closes d (.string "" :: ks) r := by
  obtain ⟨k, ks, _, h⟩ := outer.canClose d
  obtain ⟨r, hr⟩ := h (.string "")
  exact ⟨k :: ks, r, _, _, .string, hr⟩

/-- Where a statement begins, a string can come next. -/
lemma StmtContext.takes_string (outer : StmtContext g) :
    ∃ ks r, (State.statement outer).Closes d (.string "" :: ks) r := by
  obtain ⟨k, ks, hk, h⟩ := outer.canClose d
  obtain ⟨r, hr⟩ := h (.expression (.string ""))
  exact ⟨k :: ks, r, _, _, .expression (derivesExpr_string hk ""), hr⟩

/-- Where a block begins, an opening brace can come next. -/
lemma BlockContext.takes_leftBrace (outer : BlockContext g) :
    ∃ ks r, (State.block outer).Closes d (.mark .leftBrace :: ks) r := by
  obtain ⟨k, ks, _, h⟩ := outer.canClose d
  obtain ⟨r, hr⟩ := h []
  exact ⟨.mark .rightBrace :: k :: ks, r, _, _, derivesBlock_braces _, hr⟩

/-- Between statements, a closing brace can come next. -/
lemma BlockContext.takes_rightBrace (earlier : List Stmt) (outer : BlockContext g) :
    ∃ ks r, (State.statements earlier outer).Closes d (.mark .rightBrace :: ks) r := by
  obtain ⟨k, ks, _, h⟩ := outer.canClose d
  obtain ⟨r, hr⟩ := h (earlier ++ [])
  exact ⟨k :: ks, r, _, _, .nil, hr⟩

/-- Between statements, a string can come next, with a semicolon behind it. -/
lemma BlockContext.takes_string (earlier : List Stmt) (outer : BlockContext g) :
    ∃ ks r, (State.statements earlier outer).Closes d (.string "" :: ks) r := by
  obtain ⟨k, ks, _, h⟩ := outer.canClose d
  obtain ⟨r, hr⟩ := h (earlier ++ [.expression (.string "")])
  exact ⟨.mark .semicolon :: .mark .rightBrace :: k :: ks, r, _, _,
    .cons (.expression (derivesExpr_string .semicolon "")) .nil, hr⟩

/-- Between arguments, a closing parenthesis can come next. -/
lemma FactorContext.takes_rightParen (f : String) (args : List Expr) (outer : FactorContext g) :
    ∃ ks r, (State.arguments f args outer).Closes d (.mark .rightParen :: ks) r := by
  obtain ⟨k, ks, _, h⟩ := outer.canClose d
  obtain ⟨r, hr⟩ := h (.call f (args ++ []))
  exact ⟨k :: ks, r, _, _, .nil, hr⟩

/-- Between arguments, a string can come next. -/
lemma FactorContext.takes_argument (f : String) (args : List Expr) (outer : FactorContext g) :
    ∃ ks r, (State.arguments f args outer).Closes d (.string "" :: ks) r := by
  obtain ⟨k, ks, _, h⟩ := outer.canClose d
  obtain ⟨r, hr⟩ := h (.call f (args ++ [.string ""]))
  exact ⟨.mark .rightParen :: k :: ks, r, _, _, .cons (derivesExpr_string .rightParen "") .nil, hr⟩

/-- Between parameters, a closing parenthesis can come next. -/
lemma StmtContext.takes_rightParen (f : String) (xs : List String) (outer : StmtContext g) :
    ∃ ks r, (State.parameters f xs outer).Closes d (.mark .rightParen :: ks) r := by
  obtain ⟨k, ks, _, h⟩ := outer.canClose d
  obtain ⟨r, hr⟩ := h (.declare f (xs ++ []) [])
  exact ⟨.mark .leftBrace :: .mark .rightBrace :: k :: ks, r, _, _, _, _, .nil,
    derivesBlock_braces _, hr⟩

/-- Between parameters, one more name can come next. -/
lemma StmtContext.takes_parameter (f : String) (xs : List String) (outer : StmtContext g) :
    ∃ ks r, (State.parameters f xs outer).Closes d (.word "x" :: ks) r := by
  obtain ⟨k, ks, _, h⟩ := outer.canClose d
  obtain ⟨r, hr⟩ := h (.declare f (xs ++ ["x"]) [])
  exact ⟨.mark .rightParen :: .mark .leftBrace :: .mark .rightBrace :: k :: ks, r, _, _, _, _,
    .cons isName_x .nil, derivesBlock_braces _, hr⟩

/-- Behind the name of a function, an opening parenthesis can come next. -/
lemma StmtContext.takes_leftParen (f : String) (outer : StmtContext g) :
    ∃ ks r, (State.signature f outer).Closes d (.mark .leftParen :: ks) r := by
  obtain ⟨ks, r, xs, mid, b, rest, hxs, hb, hr⟩ := outer.takes_rightParen f [] (d := d)
  exact ⟨_, r, _, xs, mid, b, rest, rfl, hxs, hb, hr⟩

/-- Where the name of a function is due, a name can come next. -/
lemma StmtContext.takes_functionName (outer : StmtContext g) :
    ∃ ks r, (State.functionName outer).Closes d (.word "x" :: ks) r := by
  obtain ⟨ks, r, xs, mid, b, rest, hxs, hb, hr⟩ := outer.takes_rightParen "x" [] (d := d)
  exact ⟨_, r, _, _, xs, mid, b, rest, rfl, isName_x, hxs, hb, hr⟩

/-- Where the name of a variable is due, a name can come next. -/
lemma StmtContext.takes_variableName (scope : Scope) (outer : StmtContext g) :
    ∃ ks r, (State.variableName scope outer).Closes d (.word "x" :: ks) r := by
  obtain ⟨ks, r, e, rest, he, hr⟩ := (ExprContext.assign scope "x" outer).takes_string (d := d)
  exact ⟨_, r, _, _, e, rest, rfl, isName_x, he, hr⟩

/-- Whatever state the machine is in, some kinds complete it. -/
theorem State.completes (d : Division) : ∀ s : State g, ∃ ks r, s.Closes d ks r
  | .block outer => let ⟨_, h⟩ := outer.takes_leftBrace; ⟨_, h⟩
  | .statements earlier outer => let ⟨_, h⟩ := outer.takes_rightBrace earlier; ⟨_, h⟩
  | .closed b outer => let ⟨_, _, _, h⟩ := outer.canClose d; ⟨_, h b⟩
  | .statement outer => let ⟨_, h⟩ := outer.takes_string; ⟨_, h⟩
  | .variableName scope outer => let ⟨_, h⟩ := outer.takes_variableName scope; ⟨_, h⟩
  | .functionName outer => let ⟨_, h⟩ := outer.takes_functionName; ⟨_, h⟩
  | .signature f outer => let ⟨_, h⟩ := outer.takes_leftParen f; ⟨_, h⟩
  | .parameters f xs outer => let ⟨_, h⟩ := outer.takes_rightParen f xs; ⟨_, h⟩
  | .expression outer => let ⟨_, h⟩ := outer.takes_string; ⟨_, h⟩
  | .factor outer => let ⟨_, h⟩ := outer.takes_string; ⟨_, h⟩
  | .operand negate outer =>
    let ⟨_, h⟩ := (FactorContext.signed negate outer).takes_string; ⟨_, h⟩
  | .name x outer =>
    let ⟨_, _, hk, h⟩ := outer.canClose d
    ⟨_, (h (.ref x)).imp fun _ hr => .inr ⟨hk.head_ne_leftParen, hr⟩⟩
  | .arguments f args outer => let ⟨_, h⟩ := outer.takes_rightParen f args; ⟨_, h⟩
  | .value e outer => let ⟨_, _, _, h⟩ := outer.canClose d; ⟨_, h e⟩

end Quill
