import Quill.Proofs.Grammar.ViablePrefix

/-!
# What an error leaves out

A list names what the rule that is at work still needs. Everything in it could stand in place of the
offending token. The converse holds but for the tokens that go on with what is finished in front of
the error: an operator behind an operand, a parenthesis behind a name, and `elif` or `else` behind an
arm of a conditional. No rule needs those, so behind a finished construct they are left out
(`State.LeavesOut`), and every other alternative is in the list (`step_lists`).

So a list is complete exactly where neither `*` nor `elif` can come next
(`expected_complete_iff`).
-/

namespace Quill

variable {g : Goal} {settings : Settings} {d : Division} {k : Kind}

/-! ## First tokens -/

/-- Every token that can begin an expression begins one. -/
lemma fits_expression_of_starts (h : k.startsExpression = true) :
    Expectation.expression.Fits d k := by
  cases k with
  | number x => exact ⟨[.endOfInput], _, _, DerivesFactor.number.expr .endOfInput⟩
  | string s => exact ⟨[.endOfInput], _, _, derivesExpr_string .endOfInput s⟩
  | word w =>
    cases hw : Keyword.ofText? w with
    | none =>
      have name := Keyword.ofText?_eq_none_iff.1 hw
      exact ⟨[.endOfInput], _, _, (DerivesFactor.ref name (by simp)).expr .endOfInput⟩
    | some keyword =>
      obtain rfl := Keyword.ofText?_eq_some_iff.1 hw
      cases keyword with
      | kwTrue => exact ⟨[.endOfInput], _, _, DerivesFactor.kwTrue.expr .endOfInput⟩
      | kwFalse => exact ⟨[.endOfInput], _, _, DerivesFactor.kwFalse.expr .endOfInput⟩
      | kwNone => exact ⟨[.endOfInput], _, _, DerivesFactor.kwNone.expr .endOfInput⟩
      | _ => simp [Kind.startsExpression] at h
  | operator o =>
    cases o with
    | plus => exact ⟨[.string "", .endOfInput], _, _, (DerivesFactor.string.plus).expr .endOfInput⟩
    | minus => exact ⟨[.string "", .endOfInput], _, _, (DerivesFactor.string.minus).expr .endOfInput⟩
    | bang => exact ⟨[.string "", .endOfInput], _, _, .not (derivesExpr_string .endOfInput "")⟩
    | _ => simp [Kind.startsExpression] at h
  | mark m =>
    cases m with
    | leftParen =>
      exact ⟨[.string "", .mark .rightParen, .endOfInput], _, _,
        (DerivesFactor.group (derivesExpr_string .rightParen "")).expr .endOfInput⟩
    | _ => simp [Kind.startsExpression] at h
  | endOfInput => simp [Kind.startsExpression] at h

/-- A token that begins a factor fits where an expression is expected. -/
lemma fits_expression_of_factor {ks rest : List Kind} {f : Expr}
    (h : DerivesFactor d (k :: ks) rest f) : Expectation.expression.Fits d k := by
  obtain ⟨_, _, same, starts, _⟩ := h.head
  cases same
  exact fits_expression_of_starts starts

/-! ## Lists -/

/-- Not the state of a statement that was asked for by itself. -/
def State.InBlock : State g → Prop
  | .statement _ => False
  | _ => True

/-- A refusal lists an entry for every token that is `good`, and no statement is looked for by
itself. -/
def Move.Lists (d : Division) (good : Kind → Prop) : Move g → Prop
  | .shift next => next.InBlock
  | .done _ => True
  | .refuse .tooDeep => True
  | .refuse (.unexpected expected) => ∀ k, good k → ∃ x ∈ expected, x.Fits d k

section

variable {good good' : Kind → Prop} {m : Move g}

/-- What lists all tokens of one sort lists those of a narrower one. -/
lemma Move.Lists.mono (h : m.Lists d good) (narrower : ∀ k, good' k → good k) :
    m.Lists d good' := by
  match m with
  | .shift _ => exact h
  | .done _ => trivial
  | .refuse .tooDeep => trivial
  | .refuse (.unexpected _) => exact fun k hk => h k (narrower k hk)

/-- A refusal with one entry lists the tokens that fit it. -/
lemma lists_one (x : Expectation) : (Move.refuse (.unexpected [x]) : Move g).Lists d (x.Fits d) :=
  fun _ hk => ⟨x, List.mem_cons_self, hk⟩

/-- A refusal with two entries lists the tokens that fit either of them. -/
lemma lists_two (x y : Expectation) :
    (Move.refuse (.unexpected [x, y]) : Move g).Lists d fun k => x.Fits d k ∨ y.Fits d k := by
  rintro k (hk | hk)
  · exact ⟨x, List.mem_cons_self, hk⟩
  · exact ⟨y, List.mem_cons_of_mem _ List.mem_cons_self, hk⟩

/-- A list is complete no matter whether a level has to open first. -/
lemma lists_openLevel {depth : Nat} (h : m.Lists d good) :
    (openLevel settings depth m).Lists d good := by
  unfold openLevel
  split
  · exact h
  · trivial

/-! ## Beginning a construct -/

/-- Where a factor begins, the list stands for every token that begins an expression. -/
lemma lists_beginFactor {outer : FactorContext g} :
    (beginFactor outer k).Lists d (Expectation.expression.Fits d) := by
  unfold beginFactor
  split
  case h_6 =>
    split
    case h_5 => exact lists_one _
    all_goals trivial
  case h_7 => exact lists_one _
  all_goals trivial

/-- Where an expression begins, the list stands for every token that begins one. -/
lemma lists_beginExpression {outer : ExprContext g} :
    (beginExpression settings outer k).Lists d (Expectation.expression.Fits d) := by
  apply lists_openLevel
  split
  · trivial
  · exact lists_beginFactor

/-- Where a block begins, the list stands for its brace. -/
lemma lists_beginBlock {outer : BlockContext g} :
    (beginBlock settings outer k).Lists d (Expectation.mark .leftBrace |>.Fits d) := by
  apply lists_openLevel
  split
  · trivial
  · exact lists_one _

/-- A token that can begin an expression is not refused there. -/
lemma lists_beginExpression_of_starts {outer : ExprContext g} (h : k.startsExpression = true) :
    (beginExpression settings outer k).Lists d good := by
  apply lists_openLevel
  cases k with
  | number x => trivial
  | string s => trivial
  | word w =>
    change (beginFactor _ (.word w)).Lists d good
    unfold beginFactor
    dsimp only
    split
    case h_5 keyword _ _ _ hw =>
      obtain rfl | rfl | rfl := keyword?_of_startsExpression h hw <;> contradiction
    all_goals trivial
  | operator o =>
    cases o with
    | plus => trivial
    | minus => trivial
    | bang => trivial
    | _ => simp [Kind.startsExpression] at h
  | mark m =>
    cases m with
    | leftParen => trivial
    | _ => simp [Kind.startsExpression] at h
  | endOfInput => simp [Kind.startsExpression] at h

/-- A token that can begin a statement is not refused there. -/
lemma lists_beginStatement_of_starts {outer : StmtContext g} (h : k.startsStatement = true) :
    (beginStatement settings outer k).Lists d good := by
  unfold beginStatement
  split
  case h_8 =>
    apply lists_beginExpression_of_starts
    rw [Kind.startsStatement, Bool.or_eq_true] at h
    obtain h | h := h
    · exact h
    · split at h
      all_goals contradiction
  all_goals trivial

/-- Between the statements of a block, the list stands for the closing brace and for all that begins
a statement. -/
lemma lists_continueBlock {earlier : List Stmt} {outer : BlockContext g} :
    (continueBlock settings earlier outer k).Lists d fun k =>
      (Expectation.mark .rightBrace).Fits d k ∨ Expectation.statement.Fits d k := by
  unfold continueBlock
  split
  · trivial
  · split
    · rename_i starts
      exact lists_beginStatement_of_starts starts
    · exact lists_two _ _

/-- Between the arguments of a call, the list stands for the closing parenthesis and for all that
begins an expression. -/
lemma lists_continueCall {f : String} {args : List Expr} {outer : FactorContext g} :
    (continueCall settings f args outer k).Lists d fun k =>
      (Expectation.mark .rightParen).Fits d k ∨ Expectation.expression.Fits d k := by
  unfold continueCall
  split
  · trivial
  · split
    · rename_i starts
      exact lists_beginExpression_of_starts starts
    · exact lists_two _ _

/-- Between parameters, the list stands for the closing parenthesis and for every name that a
parameter may have. -/
lemma lists_continueParameters {f : String} {xs : List String} {outer : StmtContext g} :
    (continueParameters f xs outer k).Lists d fun k =>
      Expectation.parameterName.Fits d k ∨ (Expectation.mark .rightParen).Fits d k := by
  unfold continueParameters
  split
  · trivial
  · split
    · trivial
    · exact lists_two _ _

end

/-! ## Finishing a construct -/

/-- The token can come next, with kinds behind it that close the context. -/
def CanFollow {α : Type} (closes : List Kind → α → Prop) (k : Kind) : Prop :=
  ∃ ks r, closes (k :: ks) r

/-- Behind a statement, the list stands for all that can follow. -/
lemma lists_finishStatement {s : Stmt} {outer : StmtContext g} :
    (finishStatement s outer k).Lists d (CanFollow (outer.Closes d s)) := by
  unfold finishStatement
  split
  · trivial
  · split
    · trivial
    · refine (lists_one _).mono ?_
      rintro k ⟨ks, r, ss, rest, mid, semicolon, _⟩
      cases semicolon
      exact rfl

/-- The words that give a finished arm another one behind it. -/
def Kind.AddsArm (k : Kind) : Prop :=
  k = Keyword.kwElif.kind ∨ k = Keyword.kwElse.kind

/-- The tokens that go on with a conditional whose last finished part is an arm. -/
def BlockContext.LeavesOut : BlockContext g → Kind → Prop
  | .branch _ _ _, k => k.AddsArm
  | _, _ => False

/-- Behind a block, the list stands for all that can follow but the keywords that add an arm. -/
lemma lists_finishBlock {b : Block} {outer : BlockContext g} :
    (finishBlock b outer k).Lists d fun k =>
      CanFollow (outer.Closes d b) k ∧ ¬ outer.LeavesOut k := by
  cases outer with
  | whole _ => trivial
  | program _ =>
    unfold finishBlock
    dsimp only
    split
    · trivial
    · refine (lists_one _).mono ?_
      rintro k ⟨⟨ks, r, ⟨rest, ends⟩, _⟩, _⟩
      cases ends
      exact rfl
  | function _ _ _ => exact lists_finishStatement.mono fun _ h => h.1
  | branch earlier c outer =>
    unfold finishBlock
    dsimp only
    split
    · trivial
    · trivial
    · refine lists_finishStatement.mono ?_
      -- Without another arm, what closes the conditional closes what is around it.
      rintro k ⟨⟨ks, r, bs, o, mid, rest, arms, otherwise, hr⟩, last⟩
      cases arms with
      | cons _ _ _ => exact absurd (.inl rfl) last
      | nil _ =>
        cases otherwise with
        | some _ => exact absurd (.inr rfl) last
        | none _ => exact ⟨ks, r, hr⟩
  | otherwise _ _ => exact lists_finishStatement.mono fun _ h => h.1
  | loop _ _ => exact lists_finishStatement.mono fun _ h => h.1

/-- An expression is finished by all that finishes what is open around it. -/
lemma lists_finishExpression : ∀ {e : Expr} (outer : ExprContext g),
    (finishExpression settings e outer k).Lists d (CanFollow (outer.Closes d e))
  -- The induction is on what is open around the expression, from the inside out.
  | _, .whole _ => trivial
  | _, .not outer => lists_finishExpression outer
  | _, .compare _ _ outer => lists_finishExpression outer
  | e, .group outer => by
    unfold finishExpression
    split
    · trivial
    · refine (lists_one _).mono ?_
      rintro k ⟨ks, r, rest, close, _⟩
      cases close
      exact rfl
  | e, .argument f args outer => by
    rw [finishExpression]
    refine lists_continueCall.mono ?_
    rintro k ⟨ks, r, es, rest, more, _⟩
    cases more with
    | nil => exact .inl rfl
    | cons he _ => exact .inr ⟨_, _, _, he⟩
  | _, .assign _ _ _ => lists_finishStatement
  | _, .giveBack _ => lists_finishStatement
  | _, .print _ => lists_finishStatement
  | _, .expression _ => lists_finishStatement
  | c, .branch earlier outer => by
    rw [finishExpression]
    refine lists_beginBlock.mono ?_
    rintro k ⟨ks, r, b, bs, o, ks₁, ks₂, rest, ⟨_⟩, _⟩
    exact rfl
  | c, .loop outer => by
    rw [finishExpression]
    refine lists_beginBlock.mono ?_
    rintro k ⟨ks, r, b, rest, ⟨_⟩, _⟩
    exact rfl

/-- The token is no operator. -/
def Kind.Joinless (k : Kind) : Prop :=
  ∀ o, k ≠ .operator o

/-- What is listed behind a finished operand: all that can follow and is no operator. -/
def EndsOperand {α : Type} (closes : List Kind → α → Prop) (k : Kind) : Prop :=
  CanFollow closes k ∧ k.Joinless

/-- What ends an operand in a context ends it in every context that as much closes. -/
lemma EndsOperand.mono {α : Type} {closes closes' : List Kind → α → Prop} (h : EndsOperand closes k)
    (weaker : ∀ ks r, k.Joinless → closes (k :: ks) r → closes' (k :: ks) r) :
    EndsOperand closes' k := by
  obtain ⟨⟨ks, r, hr⟩, quiet⟩ := h
  exact ⟨⟨ks, r, weaker ks r quiet hr⟩, quiet⟩

/-- Behind a term, the list stands for all that can follow and is no operator. -/
lemma lists_continueSum {e : Expr} {outer : ExprContext g} :
    (continueSum settings e outer k).Lists d
      (EndsOperand fun ks r => ∃ e' rest, DerivesSum d e ks rest e' ∧ outer.Closes d e' rest r) := by
  unfold continueSum
  split
  · trivial
  · refine (lists_finishExpression outer).mono ?_
    rintro k ⟨⟨ks, r, e', rest, sum, hr⟩, quiet⟩
    -- A sum goes on with an operator or not at all, and an operator is not listed.
    cases sum with
    | more _ _ _ => exact absurd rfl (quiet _)
    | done _ => exact ⟨ks, r, hr⟩

/-- Behind the operand of a sum, the list stands for all that can follow and is no operator. -/
lemma lists_finishTerm {e : Expr} {outer : TermContext g} :
    (finishTerm settings e outer k).Lists d (EndsOperand (outer.Closes d e)) := by
  cases outer with
  | first outer =>
    unfold finishTerm
    dsimp only
    split
    · trivial
    · refine lists_continueSum.mono fun k h => h.mono ?_
      rintro ks r quiet (⟨o, op, e', ks', rest, compares, _⟩ | ⟨_, hr⟩)
      · cases compares
        exact absurd rfl (quiet o)
      · exact hr
  | sum _ _ _ => exact lists_continueSum

/-- Behind a factor, the list stands for all that can follow and is no operator. -/
lemma lists_continueProduct {e : Expr} {outer : TermContext g} :
    (continueProduct settings e outer k).Lists d
      (EndsOperand fun ks r =>
        ∃ t rest, DerivesProduct d e ks rest t ∧ outer.Closes d t rest r) := by
  unfold continueProduct
  split
  · trivial
  · refine lists_finishTerm.mono fun k h => h.mono ?_
    rintro ks r quiet ⟨t, rest, product, hr⟩
    cases product with
    | more _ _ _ => exact absurd rfl (quiet _)
    | done _ => exact hr

/-- Behind the operand of a product or of a sign, the list stands for all that can follow and is no
operator. -/
lemma lists_finishFactor : ∀ {e : Expr} (outer : FactorContext g),
    (finishFactor settings e outer k).Lists d (EndsOperand (outer.Closes d e))
  | _, .first _ => lists_continueProduct
  | _, .product _ _ _ => lists_continueProduct
  | _, .signed _ outer => lists_finishFactor outer

/-! ## The step -/

/-- The tokens that can go on with what is finished in front of an error, and that its list leaves
out. -/
def State.LeavesOut : State g → Kind → Prop
  | .value _ _, k => ∃ o, k = .operator o
  | .name _ _, k => (∃ o, k = .operator o) ∨ k = .mark .leftParen
  | .closed _ outer, k => outer.LeavesOut k
  | _, _ => False

/-- A refusal lists all that can come next and does not go on with what is finished. -/
theorem step_lists {s : State g} (h : s.InBlock) :
    (step settings s k).Lists d fun k => CanFollow (s.Closes d) k ∧ ¬ s.LeavesOut k := by
  cases s with
  | block outer =>
    refine lists_beginBlock.mono ?_
    rintro k ⟨⟨ks, r, b, rest, ⟨_⟩, _⟩, _⟩
    exact rfl
  | statements earlier outer =>
    refine lists_continueBlock.mono ?_
    rintro k ⟨⟨ks, r, ss, rest, more, _⟩, _⟩
    cases more with
    | nil => exact .inl rfl
    | cons hs _ => exact .inr ⟨_, _, _, hs⟩
  | closed b outer => exact lists_finishBlock
  | statement outer => exact h.elim
  | variableName scope outer =>
    unfold step
    dsimp only
    split
    · trivial
    · refine (lists_one _).mono ?_
      rintro k ⟨⟨ks, r, x, ks', e, rest, name, hx, _⟩, _⟩
      cases name
      exact ⟨x, rfl, hx⟩
  | functionName outer =>
    unfold step
    dsimp only
    split
    · trivial
    · refine (lists_one _).mono ?_
      rintro k ⟨⟨ks, r, f, ks', xs, mid, b, rest, name, hf, _⟩, _⟩
      cases name
      exact ⟨f, rfl, hf⟩
  | signature f outer =>
    unfold step
    dsimp only
    split
    · trivial
    · refine (lists_one _).mono ?_
      rintro k ⟨⟨ks, r, ks', xs, mid, b, rest, opens, _⟩, _⟩
      cases opens
      exact rfl
  | parameters f xs outer =>
    refine lists_continueParameters.mono ?_
    rintro k ⟨⟨ks, r, ys, mid, b, rest, more, _⟩, _⟩
    cases more with
    | nil => exact .inr rfl
    | cons hx _ => exact .inl ⟨_, rfl, hx⟩
  | expression outer =>
    refine lists_beginExpression.mono ?_
    rintro k ⟨⟨ks, r, e, rest, he, _⟩, _⟩
    exact ⟨ks, rest, e, he⟩
  | factor outer =>
    refine lists_beginFactor.mono ?_
    rintro k ⟨⟨ks, r, f, rest, hf, _⟩, _⟩
    exact fits_expression_of_factor hf
  | operand negate outer =>
    refine (lists_openLevel lists_beginFactor).mono ?_
    rintro k ⟨⟨ks, r, f, rest, hf, _⟩, _⟩
    exact fits_expression_of_factor hf
  | name x outer =>
    unfold step finishName
    dsimp only
    split
    · trivial
    · refine (lists_finishFactor outer).mono ?_
      rintro k ⟨⟨ks, r, ⟨ks', es, rest, call, _⟩ | ⟨_, hr⟩⟩, others⟩
      · cases call
        exact absurd (.inr rfl) others
      · exact ⟨⟨ks, r, hr⟩, fun o ho => others (.inl ⟨o, ho⟩)⟩
  | arguments f args outer =>
    refine lists_continueCall.mono ?_
    rintro k ⟨⟨ks, r, es, rest, more, _⟩, _⟩
    cases more with
    | nil => exact .inl rfl
    | cons he _ => exact .inr ⟨_, _, _, he⟩
  | value e outer =>
    exact (lists_finishFactor outer).mono fun _ h => ⟨h.1, fun o ho => h.2 ⟨o, ho⟩⟩

/-- A run that does not ask for a statement by itself never comes to ask for one. -/
lemma inBlock_of_walk {s next : State g} {ks : List Kind} (h : s.InBlock)
    (hw : walk settings s ks = .shift next) : next.InBlock := by
  induction ks generalizing s with
  | nil =>
    cases hw
    exact h
  | cons k ks ih =>
    have lists : (step settings s k).Lists settings.division _ := step_lists h
    rw [walk] at hw
    split at hw
    · rename_i hs
      rw [hs] at lists
      exact ih lists hw
    · cases hw
    · cases hw

/-! ## Where a list is complete -/

/-- Behind an operand, `*` can come next. -/
lemma FactorContext.takes_star : ∀ (outer : FactorContext g) (e : Expr),
    CanFollow (outer.Closes d e) (.operator .star)
  | .first outer, e => by
    obtain ⟨k, ks, hk, h⟩ := outer.canClose d
    obtain ⟨r, hr⟩ := h (.binary .mul e (.string ""))
    exact ⟨.string "" :: k :: ks, r, _, _, .more .star .string (.done (hk.noneAhead _)), hr⟩
  | .product l op outer, e => by
    obtain ⟨k, ks, hk, h⟩ := outer.canClose d
    obtain ⟨r, hr⟩ := h (.binary .mul (.binary op l e) (.string ""))
    exact ⟨.string "" :: k :: ks, r, _, _, .more .star .string (.done (hk.noneAhead _)), hr⟩
  | .signed _ outer, _ => takes_star outer _

/-- Behind an arm, `elif` can come next. -/
lemma BlockContext.takes_elif {outer : BlockContext g} (h : outer.LeavesOut k) (b : Block) :
    CanFollow (outer.Closes d b) Keyword.kwElif.kind := by
  cases outer with
  | branch earlier c outer =>
    obtain ⟨k', ks, hk, closes⟩ := outer.canClose d
    obtain ⟨r, hr⟩ := closes (.conditional (earlier ++ .arm c b :: [.arm (.string "") []]) .none)
    exact ⟨.string "" :: .mark .leftBrace :: .mark .rightBrace :: k' :: ks, r, _, _, _, _,
      .cons (derivesExpr_string .leftBrace "") (derivesBlock_braces _)
        (.nil (hk.head_ne_keyword _)), .none (hk.head_ne_keyword _), hr⟩
  | _ => exact h.elim

/-- Where a list leaves something out, it is `*` or `elif` among others. -/
lemma State.takes_star_or_elif {s : State g} (h : s.LeavesOut k) :
    CanFollow (s.Closes d) (.operator .star) ∨ CanFollow (s.Closes d) Keyword.kwElif.kind := by
  cases s with
  | closed b outer => exact .inr (outer.takes_elif h b)
  | name x outer =>
    obtain ⟨ks, r, hr⟩ := outer.takes_star (d := d) (.ref x)
    exact .inl ⟨ks, r, .inr ⟨by simp, hr⟩⟩
  | value e outer => exact .inl (outer.takes_star e)
  | _ => exact h.elim

/-- No entry of a list stands for `*` or for `elif`. -/
lemma Expectation.Fits.ne_star_elif {x : Expectation} (h : x.Fits d k) :
    k ≠ .operator .star ∧ k ≠ Keyword.kwElif.kind := by
  cases x with
  | mark m =>
    obtain rfl := h
    exact ⟨nofun, nofun⟩
  | expression =>
    obtain ⟨_, _, _, derives⟩ := h
    obtain ⟨_, _, same, starts⟩ := derives.head
    cases same
    constructor <;> rintro rfl <;> cases starts
  | statement =>
    obtain ⟨_, _, _, derives⟩ := h
    obtain ⟨_, _, same, starts⟩ := derives.head
    cases same
    constructor <;> rintro rfl <;> cases starts
  | endOfInput =>
    obtain rfl := h
    exact ⟨nofun, nofun⟩
  | _ =>
    obtain ⟨x, rfl, name⟩ := h
    exact ⟨nofun, fun reserved => name .kwElif (Kind.word.inj reserved)⟩

/-- Some token of the kind goes on, behind the tokens, to a stream that is accepted. -/
def CanStand (d : Division) (before : List Token) (k : Kind) : Prop :=
  ∃ t : Token, t.kind = k ∧ Viable d (before ++ [t])

/-- The tokens that can stand behind those that a walk takes follow the state it reaches. -/
lemma canStand_iff {before : List Token} {s : State .program}
    (hw : walk settings (State.initial .program) (before.map Token.kind) = .shift s) :
    CanStand settings.division before k ↔ CanFollow (s.Closes settings.division) k := by
  constructor
  · rintro ⟨t, rfl, viable⟩
    exact (viable_append_iff hw).1 viable
  · intro h
    exact ⟨⟨k, "", .start⟩, rfl, (viable_append_iff hw).2 h⟩

/-- What is listed for a refused token covers all that can stand in its place, but for what goes on
with the finished construct in front of it. -/
lemma fits_of_refuse {before : List Token} {offending : Token} {s : State .program}
    {expected : List Expectation}
    (hw : walk settings (State.initial .program) (before.map Token.kind) = .shift s)
    (hs : step settings s offending.kind = .refuse (.unexpected expected))
    (h : CanStand settings.division before k) (listed : ¬ s.LeavesOut k) :
    ∃ x ∈ expected, x.Fits settings.division k := by
  have start : (State.initial .program).InBlock := trivial
  have lists : (step settings s offending.kind).Lists settings.division _ :=
    step_lists (inBlock_of_walk start hw)
  rw [hs] at lists
  exact lists k ⟨(canStand_iff hw).1 h, listed⟩

/-- A list covers every token that could stand in place of the offending one exactly where neither
`*` nor `elif` could. Elsewhere it leaves out nothing but operators, a parenthesis behind a name,
and `elif` and `else`. -/
theorem expected_complete_iff (settings : Settings) (items : List Item) (e : ParseError)
    (failed : parseItems settings items = .error (.parse e)) :
    ∃ before offending after expected,
      withEnd items = before.map .ok ++ .ok offending :: after ∧
      FirstWrong settings.division e before offending expected ∧
      ((∀ k, CanStand settings.division before k → ∃ x ∈ expected, x.Fits settings.division k) ↔
        ¬ CanStand settings.division before (.operator .star) ∧
          ¬ CanStand settings.division before Keyword.kwElif.kind) ∧
      ∀ k, CanStand settings.division before k →
        (∃ x ∈ expected, x.Fits settings.division k) ∨ (∃ o, k = .operator o) ∨
          k = .mark .leftParen ∨ k = Keyword.kwElif.kind ∨ k = Keyword.kwElse.kind := by
  obtain ⟨before, item, after, stream, stop, -⟩ := exists_stop settings items
  rw [failed] at stop
  generalize answer : (Except.error (.parse e) : Except SyntaxError Block) = result at stop
  cases stop with
  | error _ => cases answer
  | done _ _ => cases answer
  | @refuse s offending why hw hs =>
    cases why with
    | tooDeep => cases answer
    | unexpected expected =>
      cases answer
      refine ⟨before, offending, after, expected, stream, firstWrong_of_refuse hw hs,
        ⟨?_, ?_⟩, ?_⟩
      · intro complete
        constructor
        · intro star
          obtain ⟨x, _, fits⟩ := complete _ star
          exact fits.ne_star_elif.1 rfl
        · intro arm
          obtain ⟨x, _, fits⟩ := complete _ arm
          exact fits.ne_star_elif.2 rfl
      · rintro ⟨noStar, noElif⟩ k h
        refine fits_of_refuse hw hs h fun left => ?_
        obtain star | arm := State.takes_star_or_elif (d := settings.division) left
        · exact noStar ((canStand_iff hw).2 star)
        · exact noElif ((canStand_iff hw).2 arm)
      · intro k h
        by_cases left : s.LeavesOut k
        · refine .inr ?_
          cases s with
          | closed b outer =>
            cases outer with
            | branch _ _ _ => exact .inr (.inr left)
            | _ => exact left.elim
          | name x outer => exact left.imp_right .inl
          | value e outer => exact .inl left
          | _ => exact left.elim
        · exact .inl (fits_of_refuse hw hs h left)

/-! ## A statement without its semicolon -/

/-- The front of what begins a program begins a program. -/
lemma Viable.of_append {ts us : List Token} (h : Viable d (ts ++ us)) : Viable d ts := by
  obtain ⟨more, accepted⟩ := h
  refine ⟨us.map .ok ++ more, ?_⟩
  rw [← List.append_assoc, ← List.map_append]
  exact accepted

section

variable {e e' : ParseError} {before before' : List Token} {offending offending' : Token}
  {expected expected' : List Expectation} {after after' : List Item}

/-- A wrong token is not among the tokens in front of another one, which are viable. -/
lemma FirstWrong.length_le (h : FirstWrong d e before offending expected)
    (h' : FirstWrong d e' before' offending' expected')
    (same : before.map .ok ++ .ok offending :: after =
      before'.map .ok ++ .ok offending' :: after') : before'.length ≤ before.length := by
  by_contra longer
  have front : (before ++ [offending]).map (.ok : Token → Item) <+: before'.map .ok := by
    refine List.prefix_of_prefix_length_le ⟨after, ?_⟩ ⟨_, same.symm⟩ (by simp; omega)
    rw [List.map_append, List.append_assoc]
    rfl
  obtain ⟨ts, ⟨more, rfl⟩, eq⟩ := List.prefix_map_iff.1 front
  obtain rfl := (List.map_inj_right fun _ _ => Except.ok.inj).1 eq
  exact h.not_viable h'.viable.of_append

/-- A stream has one first wrong token. -/
lemma FirstWrong.before_eq (h : FirstWrong d e before offending expected)
    (h' : FirstWrong d e' before' offending' expected')
    (same : before.map .ok ++ .ok offending :: after =
      before'.map .ok ++ .ok offending' :: after') : before = before' := by
  have length : before.length = before'.length :=
    Nat.le_antisymm (h'.length_le h same.symm) (h.length_le h' same)
  have maps := List.append_inj_left same (by simpa using length)
  exact (List.map_inj_right fun _ _ => Except.ok.inj).1 maps

end

/-- The tokens of `{ print None }`, but for the brace that closes it. -/
def unfinishedPrint : List Token :=
  [⟨.mark .leftBrace, "\x7b", .start⟩, ⟨Keyword.kwPrint.kind, "print", ⟨2, 1, 3⟩⟩,
    ⟨Keyword.kwNone.kind, "None", ⟨8, 1, 9⟩⟩]

/-- The brace that comes too early. -/
def earlyBrace : Token := ⟨.mark .rightBrace, "\x7d", ⟨13, 1, 14⟩⟩

/-- The error at that brace lists the semicolon alone. -/
def missingSemicolon : ParseError := ⟨⟨13, 1, 14⟩, ["`;`"], "`\x7d`"⟩

/-- The unfinished print statement is refused where its semicolon is missing. -/
lemma parse_unfinishedPrint :
    parseItems {} ((unfinishedPrint ++ [earlyBrace]).map .ok) = .error (.parse missingSemicolon) := by
  rw [parseItems_eq, unfinishedPrint, earlyBrace]
  simp only [List.cons_append, List.nil_append, List.map_cons]
  rw [readItems_of_shift rfl, readItems_of_shift rfl, readItems_of_shift rfl,
    readItems_of_refuse rfl]
  rfl

/-- Behind `{ print None` the list is complete exactly if `*` and `elif` cannot come next. -/
theorem expected_complete_in_print :
    parseItems {} ((unfinishedPrint ++ [earlyBrace]).map .ok) =
      .error (.parse missingSemicolon) ∧
    ∃ before offending after expected,
      withEnd ((unfinishedPrint ++ [earlyBrace]).map .ok) =
        before.map .ok ++ .ok offending :: after ∧
      FirstWrong .distinct missingSemicolon before offending expected ∧
      ((∀ k, CanStand .distinct before k → ∃ x ∈ expected, x.Fits .distinct k) ↔
        ¬ CanStand .distinct before (.operator .star) ∧
          ¬ CanStand .distinct before Keyword.kwElif.kind) :=
  have ⟨before, offending, after, expected, stream, wrong, complete, _⟩ :=
    expected_complete_iff {} _ _ parse_unfinishedPrint
  ⟨parse_unfinishedPrint, before, offending, after, expected, stream, wrong, complete⟩

/-- Not every error lists all that could stand in place of the offending token: an operator could
stand behind `{ print None`. -/
theorem operator_not_listed :
    ¬ ∀ settings items e, parseItems settings items = .error (.parse e) →
      ∃ before offending after expected,
        withEnd items = before.map .ok ++ .ok offending :: after ∧
        FirstWrong settings.division e before offending expected ∧
        ∀ k, CanStand settings.division before k →
          ∃ x ∈ expected, x.Fits settings.division k := by
  intro always
  obtain ⟨before, offending, after, expected, stream, wrong, complete⟩ :=
    always {} _ _ parse_unfinishedPrint
  let outer : FactorContext .program :=
    .first (.first (.print (.item [] (.program rfl))))
  have hw : walk {} (State.initial .program) (unfinishedPrint.map Token.kind) =
      .shift (.value .none outer) := rfl
  have refused : step {} (.value .none outer) earlyBrace.kind =
      .refuse (.unexpected [.mark .semicolon]) := rfl
  have split : withEnd ((unfinishedPrint ++ [earlyBrace]).map .ok) =
      unfinishedPrint.map .ok ++ .ok earlyBrace :: [.ok (.endAt ⟨14, 1, 15⟩)] := rfl
  obtain rfl := wrong.before_eq (firstWrong_of_refuse hw refused) (stream.symm.trans split)
  obtain ⟨x, _, fits⟩ := complete _ ((canStand_iff hw).2 (outer.takes_star .none))
  exact fits.ne_star_elif.1 rfl

end Quill
