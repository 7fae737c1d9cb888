import Quill.Proofs.Grammar.Simulation
import Quill.Proofs.Nesting.Gate
import Quill.Proofs.Nesting.Levelled

/-!
# Reading levelled kinds

What the machine does on the kinds of a derivation, under all limits at once. `Reads d r moves ks`
says that `moves` takes the first of the kinds, goes on with the others and gives `r` at the last,
and that at each token the limit is compared with the level that the token carries.

The lemmas follow the derivation. Each one goes from the move behind a construct to the move in
front of it: where the machine reads on from `rest` when the construct is finished, it reads the
construct and `rest`.
-/

namespace Quill

variable {g : Goal} {d : Division} {r : g.Result}

/-- The moves take the kinds and give the tree, each token behind its level. -/
inductive Reads (d : Division) (r : g.Result) : (Nat → Kind → Move g) → List Levelled → Prop where
  | shift {moves next k l ks} :
    (∀ limit, moves limit k = gate limit l (.shift next)) →
    Reads d r (fun limit => step ⟨d, limit⟩ next) ks →
    Reads d r moves ((k, l) :: ks)
  | done {moves k l} :
    (∀ limit, moves limit k = gate limit l (.done r)) →
    Reads d r moves [(k, l)]

/-- A token that begins no construct is taken under every limit. -/
lemma Reads.shift_zero {moves : Nat → Kind → Move g} {next : State g} {k : Kind}
    {ks : List Levelled} (h : ∀ limit, moves limit k = .shift next)
    (reads : Reads d r (fun limit => step ⟨d, limit⟩ next) ks) : Reads d r moves ((k, 0) :: ks) :=
  .shift (fun limit => (h limit).trans (gate_zero limit _).symm) reads

/-- Only the move for the first of the kinds counts. -/
lemma Reads.of_head {moves moves' : Nat → Kind → Move g} {ks : List Levelled}
    (reads : Reads d r moves ks)
    (h : ∀ k, (kindsOf ks).head? = some k → ∀ limit, moves' limit k = moves limit k) :
    Reads d r moves' ks := by
  cases reads with
  | shift hm reads => exact .shift (fun limit => (h _ rfl limit).trans (hm limit)) reads
  | done hm => exact .done fun limit => (h _ rfl limit).trans (hm limit)

/-! ## What the machine does at the first token behind a construct -/

/-- No operator of the grammar comes next, so the table finds none. -/
lemma table_eq_none {joins : Operator → BinaryOp → Prop} {table : Kind → Option BinaryOp}
    (exact : ∀ {k op}, table k = some op ↔ ∃ o, k = .operator o ∧ joins o op)
    {ks : List Kind} (none : NoneAhead joins ks) {k : Kind} (hk : ks.head? = some k) :
    table k = .none := by
  cases ks with
  | nil => cases hk
  | cons _ _ =>
    cases hk
    exact (noneAhead_cons_iff exact).1 none

section Behind

variable {o : Operator} {op : BinaryOp} {ks : List Levelled}

/-- Behind a term, a comparison is taken and goes on with the expression behind it. -/
lemma reads_finishTerm_compare {t : Expr} {outer : ExprContext g} (ho : Compares o op)
    (reads : Reads d r (fun limit => step ⟨d, limit⟩ (.expression (.compare t op outer))) ks) :
    Reads d r (fun limit => finishTerm ⟨d, limit⟩ t (.first outer)) ((.operator o, 0) :: ks) := by
  refine .shift_zero (fun limit => ?_) reads
  rw [finishTerm, Kind.comparison?_eq_some_iff.2 ⟨o, rfl, ho⟩]

/-- Behind a term that is not compared, the sum goes on. -/
lemma reads_finishTerm_first {t : Expr} {outer : ExprContext g}
    (none : NoneAhead Compares (kindsOf ks))
    (reads : Reads d r (fun limit => continueSum ⟨d, limit⟩ t outer) ks) :
    Reads d r (fun limit => finishTerm ⟨d, limit⟩ t (.first outer)) ks := by
  refine reads.of_head fun k hk limit => ?_
  rw [finishTerm, table_eq_none Kind.comparison?_eq_some_iff none hk]

/-- Behind a term, an operator that adds is taken and goes on with the term behind it. -/
lemma reads_continueSum_more {e : Expr} {outer : ExprContext g} (ho : Adds o op)
    (reads : Reads d r (fun limit => step ⟨d, limit⟩ (.factor (.first (.sum e op outer)))) ks) :
    Reads d r (fun limit => continueSum ⟨d, limit⟩ e outer) ((.operator o, 0) :: ks) := by
  refine .shift_zero (fun limit => ?_) reads
  rw [continueSum, Kind.additive?_eq_some_iff.2 ⟨o, rfl, ho⟩]

/-- Behind the last term, the expression is finished. -/
lemma reads_continueSum_done {e : Expr} {outer : ExprContext g}
    (none : NoneAhead Adds (kindsOf ks))
    (reads : Reads d r (fun limit => finishExpression ⟨d, limit⟩ e outer) ks) :
    Reads d r (fun limit => continueSum ⟨d, limit⟩ e outer) ks := by
  refine reads.of_head fun k hk limit => ?_
  rw [continueSum, table_eq_none Kind.additive?_eq_some_iff none hk]

/-- Behind a factor, an operator that multiplies is taken and goes on with the factor behind it. -/
lemma reads_continueProduct_more {e : Expr} {outer : TermContext g} (ho : Multiplies d o op)
    (reads : Reads d r (fun limit => step ⟨d, limit⟩ (.factor (.product e op outer))) ks) :
    Reads d r (fun limit => continueProduct ⟨d, limit⟩ e outer) ((.operator o, 0) :: ks) := by
  refine .shift_zero (fun limit => ?_) reads
  rw [continueProduct, Kind.multiplicative?_eq_some_iff.2 ⟨o, rfl, ho⟩]

/-- Behind the last factor, the term is finished. -/
lemma reads_continueProduct_done {e : Expr} {outer : TermContext g}
    (none : NoneAhead (Multiplies d) (kindsOf ks))
    (reads : Reads d r (fun limit => finishTerm ⟨d, limit⟩ e outer) ks) :
    Reads d r (fun limit => continueProduct ⟨d, limit⟩ e outer) ks := by
  refine reads.of_head fun k hk limit => ?_
  rw [continueProduct, table_eq_none Kind.multiplicative?_eq_some_iff none hk]

/-- A name without a parenthesis behind it is a variable. -/
lemma reads_finishName_ref {x : String} {outer : FactorContext g}
    (paren : (kindsOf ks).head? ≠ some (.mark .leftParen))
    (reads : Reads d r (fun limit => finishFactor ⟨d, limit⟩ (.ref x) outer) ks) :
    Reads d r (fun limit => finishName ⟨d, limit⟩ x outer) ks := by
  refine reads.of_head fun k hk limit => ?_
  unfold finishName
  split
  · exact absurd hk paren
  · rfl

/-- Behind the last arm of a conditional, the statement is finished. -/
lemma reads_finishBlock_none {earlier : List Branch} {c : Expr} {b : Block} {outer : StmtContext g}
    (helif : (kindsOf ks).head? ≠ some Keyword.kwElif.kind)
    (helse : (kindsOf ks).head? ≠ some Keyword.kwElse.kind)
    (reads : Reads d r
      (fun _ => finishStatement (.conditional (earlier ++ [.arm c b]) none) outer) ks) :
    Reads d r (fun _ => finishBlock b (.branch earlier c outer)) ks := by
  refine reads.of_head fun k hk _ => ?_
  unfold finishBlock
  dsimp only
  split
  · rename_i hw
    exact absurd (hk.trans (congrArg some (Kind.keyword?_eq_some_iff.1 hw))) helif
  · rename_i hw
    exact absurd (hk.trans (congrArg some (Kind.keyword?_eq_some_iff.1 hw))) helse
  · rfl

end Behind

/-! ## What the machine does at the first token of a construct -/

section First

variable {n l : Nat} {ks mid : List Levelled}

/-- An expression that begins with a term begins with the term's first factor. -/
lemma reads_beginExpression_term {outer : ExprContext g} {t : Expr}
    (ht : LevelsTerm d n l ks mid t)
    (reads : Reads d r
      (fun limit k => gate limit (outer.depth + 1) (beginFactor (.first (.first outer)) k)) ks) :
    Reads d r (fun limit => beginExpression ⟨d, limit⟩ outer) ks := by
  obtain ⟨k, _, hks, _, hbang⟩ := ht.derives.head
  refine reads.of_head fun k' hk limit => ?_
  rw [hks] at hk
  cases hk
  unfold beginExpression
  split
  · exact absurd rfl hbang
  · rfl

/-- A factor that carries no level is read as it is. -/
lemma reads_beginFactor {outer : FactorContext g}
    (reads : Reads d r (fun limit k => gate limit 0 (beginFactor outer k)) ks) :
    Reads d r (fun _ => beginFactor outer) ks :=
  reads.of_head fun _ _ limit => (gate_zero limit _).symm

/-- A name is taken where a factor begins. -/
lemma reads_beginFactor_name {x : String} {outer : FactorContext g} (hx : IsName x)
    (reads : Reads d r (fun limit => step ⟨d, limit⟩ (.name x outer)) ks) :
    Reads d r (fun limit k => gate limit l (beginFactor outer k)) ((.word x, l) :: ks) := by
  refine .shift (fun limit => ?_) reads
  simp only [beginFactor, Keyword.ofText?_eq_none_iff.2 hx]

/-- An argument begins with a token that does not close the call. -/
lemma reads_continueCall_argument {f : String} {args : List Expr} {outer : FactorContext g}
    {e : Expr} (he : LevelsExpr d n ks mid e)
    (reads : Reads d r (fun limit => beginExpression ⟨d, limit⟩ (.argument f args outer)) ks) :
    Reads d r (fun limit => continueCall ⟨d, limit⟩ f args outer) ks := by
  obtain ⟨k, _, hks, starts⟩ := he.derives.head
  refine reads.of_head fun k' hk limit => ?_
  rw [hks] at hk
  cases hk
  have inside : k ≠ .mark .rightParen := by
    rintro rfl
    simp [Kind.startsExpression] at starts
  rw [continueCall, if_neg inside, if_pos starts]

/-- A name is taken where a parameter may stand. -/
lemma reads_continueParameters_name {f x : String} {xs : List String} {outer : StmtContext g}
    (hx : IsName x)
    (reads : Reads d r (fun limit => step ⟨d, limit⟩ (.parameters f (xs ++ [x]) outer)) ks) :
    Reads d r (fun _ => continueParameters f xs outer) ((.word x, 0) :: ks) := by
  refine .shift_zero (fun _ => ?_) reads
  rw [continueParameters, if_neg nofun, Kind.name?_eq_some_iff.2 ⟨rfl, hx⟩]

/-- A name is taken where a variable is assigned. -/
lemma reads_variableName {scope : Scope} {x : String} {outer : StmtContext g} (hx : IsName x)
    (reads : Reads d r (fun limit => step ⟨d, limit⟩ (.expression (.assign scope x outer))) ks) :
    Reads d r (fun limit => step ⟨d, limit⟩ (.variableName scope outer)) ((.word x, 0) :: ks) := by
  refine .shift_zero (fun limit => ?_) reads
  rw [step, Kind.name?_eq_some_iff.2 ⟨rfl, hx⟩]

/-- A name is taken where a function is declared. -/
lemma reads_functionName {f : String} {outer : StmtContext g} (hf : IsName f)
    (reads : Reads d r (fun limit => step ⟨d, limit⟩ (.signature f outer)) ks) :
    Reads d r (fun limit => step ⟨d, limit⟩ (.functionName outer)) ((.word f, 0) :: ks) := by
  refine .shift_zero (fun limit => ?_) reads
  rw [step, Kind.name?_eq_some_iff.2 ⟨rfl, hf⟩]

/-- No word that selects a form of statement begins an expression. -/
lemma reads_beginStatement_expression {outer : StmtContext g} {e : Expr}
    (he : LevelsExpr d n ks mid e)
    (reads : Reads d r (fun limit => beginExpression ⟨d, limit⟩ (.expression outer)) ks) :
    Reads d r (fun limit => beginStatement ⟨d, limit⟩ outer) ks := by
  obtain ⟨k, _, hks, starts⟩ := he.derives.head
  refine reads.of_head fun k' hk limit => ?_
  rw [hks] at hk
  cases hk
  unfold beginStatement
  split
  case h_8 => rfl
  all_goals
    rename_i hw
    have := keyword?_of_startsExpression starts hw
    simp at this

/-- A statement begins with a token that does not close the block. -/
lemma reads_continueBlock_statement {earlier : List Stmt} {outer : BlockContext g} {s : Stmt}
    (hs : LevelsStmt d n ks mid s)
    (reads : Reads d r (fun limit => beginStatement ⟨d, limit⟩ (.item earlier outer)) ks) :
    Reads d r (fun limit => continueBlock ⟨d, limit⟩ earlier outer) ks := by
  obtain ⟨k, _, hks, starts⟩ := hs.derives.head
  refine reads.of_head fun k' hk limit => ?_
  rw [hks] at hk
  cases hk
  have inside : k ≠ .mark .rightBrace := by
    rintro rfl
    simp [Kind.startsStatement, Kind.startsExpression, Kind.keyword?, Kind.word?] at starts
  rw [continueBlock, if_neg inside, if_pos starts]

end First

/-! ## Expressions -/

mutual

/-- From the move behind an expression to the move in front of it. -/
theorem LevelsExpr.reads {ks rest : List Levelled} {e : Expr} :
    ∀ (outer : ExprContext g) {n}, outer.depth = n → LevelsExpr d n ks rest e →
      Reads d r (fun limit => finishExpression ⟨d, limit⟩ e outer) rest →
      Reads d r (fun limit => beginExpression ⟨d, limit⟩ outer) ks
  | outer, _, rfl, .not he, h => .shift (fun _ => rfl) (he.reads (.not outer) rfl h)
  | outer, _, rfl, .compare ht ho he, h =>
    reads_beginExpression_term ht (ht.reads (.first outer) rfl
      (reads_finishTerm_compare ho (he.reads (.compare _ _ outer) rfl h)))
  | outer, _, rfl, .sum ht hc he, h =>
    reads_beginExpression_term ht (ht.reads (.first outer) rfl
      (reads_finishTerm_first hc (he.reads outer rfl h)))

/-- From the move behind a sum to the move behind its first terms. -/
theorem LevelsSum.reads {ks rest : List Levelled} {l e : Expr} :
    ∀ (outer : ExprContext g) {n}, outer.depth + 1 = n → LevelsSum d n l ks rest e →
      Reads d r (fun limit => finishExpression ⟨d, limit⟩ e outer) rest →
      Reads d r (fun limit => continueSum ⟨d, limit⟩ l outer) ks
  | _, _, _, .done ha, h => reads_continueSum_done ha h
  | outer, _, rfl, .more ho ht he, h =>
    reads_continueSum_more ho
      (reads_beginFactor (ht.reads (.sum _ _ outer) rfl (he.reads outer rfl h)))

/-- From the move behind a term to the move in front of it. -/
theorem LevelsTerm.reads {l : Nat} {ks rest : List Levelled} {e : Expr} :
    ∀ (outer : TermContext g) {n}, outer.depth = n → LevelsTerm d n l ks rest e →
      Reads d r (fun limit => finishTerm ⟨d, limit⟩ e outer) rest →
      Reads d r (fun limit k => gate limit l (beginFactor (.first outer) k)) ks
  | outer, _, rfl, .product hf ht, h => hf.reads (.first outer) rfl (ht.reads outer rfl h)

/-- From the move behind a product to the move behind its first factors. -/
theorem LevelsProduct.reads {ks rest : List Levelled} {l e : Expr} :
    ∀ (outer : TermContext g) {n}, outer.depth = n → LevelsProduct d n l ks rest e →
      Reads d r (fun limit => finishTerm ⟨d, limit⟩ e outer) rest →
      Reads d r (fun limit => continueProduct ⟨d, limit⟩ l outer) ks
  | _, _, _, .done hm, h => reads_continueProduct_done hm h
  | outer, _, rfl, .more ho hf ht, h =>
    reads_continueProduct_more ho
      (reads_beginFactor (hf.reads (.product _ _ outer) rfl (ht.reads outer rfl h)))

/-- From the move behind a factor to the move in front of it. -/
theorem LevelsFactor.reads {l : Nat} {ks rest : List Levelled} {e : Expr} :
    ∀ (outer : FactorContext g) {n}, outer.depth = n → LevelsFactor d n l ks rest e →
      Reads d r (fun limit => finishFactor ⟨d, limit⟩ e outer) rest →
      Reads d r (fun limit k => gate limit l (beginFactor outer k)) ks
  | outer, _, rfl, .plus hf, h => .shift (fun _ => rfl) (hf.reads (.signed false outer) rfl h)
  | outer, _, rfl, .minus hf, h => .shift (fun _ => rfl) (hf.reads (.signed true outer) rfl h)
  | _, _, _, .number, h => .shift (fun _ => rfl) h
  | _, _, _, .string, h => .shift (fun _ => rfl) h
  | _, _, _, .kwTrue, h => .shift (fun _ => rfl) h
  | _, _, _, .kwFalse, h => .shift (fun _ => rfl) h
  | _, _, _, .kwNone, h => .shift (fun _ => rfl) h
  | _, _, _, .ref hx hk, h => reads_beginFactor_name hx (reads_finishName_ref hk h)
  | outer, _, rfl, .call hf hes, h =>
    reads_beginFactor_name hf (.shift_zero (fun _ => rfl)
      (hes.reads outer rfl _ [] (.shift_zero (fun _ => rfl) h)))
  | outer, _, rfl, .group he, h =>
    .shift (fun _ => rfl) (he.reads (.group outer) rfl (.shift_zero (fun _ => rfl) h))

/-- From the move behind the arguments of a call to the move behind the first of them. -/
theorem LevelsArgs.reads {ks rest : List Levelled} {es : List Expr} :
    ∀ (outer : FactorContext g) {n}, outer.depth = n → LevelsArgs d n ks rest es → ∀ f args,
      Reads d r (fun limit => continueCall ⟨d, limit⟩ f (args ++ es) outer) rest →
      Reads d r (fun limit => continueCall ⟨d, limit⟩ f args outer) ks
  | _, _, _, .nil, _, _, h => by rwa [List.append_nil] at h
  | outer, _, rfl, .cons he hes, f, args, h => by
    rw [List.append_cons] at h
    exact reads_continueCall_argument he
      (he.reads (.argument f args outer) rfl (hes.reads outer rfl f _ h))

end

/-! ## Statements -/

/-- From the move behind the parameters of a declaration to the move behind the first of them. -/
lemma LevelsParams.reads {f : String} {outer : StmtContext g} {ks rest : List Levelled}
    {xs : List String} (hxs : LevelsParams ks rest xs) (ys : List String)
    (h : Reads d r (fun _ => continueParameters f (ys ++ xs) outer) rest) :
    Reads d r (fun _ => continueParameters f ys outer) ks := by
  induction hxs generalizing ys with
  | nil => rwa [List.append_nil] at h
  | cons hx _ ih =>
    rw [List.append_cons] at h
    exact reads_continueParameters_name hx (ih _ h)

mutual

/-- From the move behind a statement to the move in front of it. -/
theorem LevelsStmt.reads {ks rest : List Levelled} {s : Stmt} :
    ∀ (outer : StmtContext g) {n}, outer.depth = n → LevelsStmt d n ks rest s →
      Reads d r (fun _ => finishStatement s outer) rest →
      Reads d r (fun limit => beginStatement ⟨d, limit⟩ outer) ks
  | outer, _, rfl, .assignGlobal hx he, h =>
    .shift_zero (fun _ => rfl) (reads_variableName hx (he.reads (.assign _ _ outer) rfl h))
  | outer, _, rfl, .assignLocal hx he, h =>
    .shift_zero (fun _ => rfl) (reads_variableName hx (he.reads (.assign _ _ outer) rfl h))
  | outer, _, rfl, .declare hf hxs hb, h =>
    .shift_zero (fun _ => rfl) (reads_functionName hf (.shift_zero (fun _ => rfl)
      (hxs.reads [] (.shift_zero (fun _ => rfl) (hb.reads (.function _ _ outer) rfl h)))))
  | outer, _, rfl, .giveBack he, h => .shift_zero (fun _ => rfl) (he.reads (.giveBack outer) rfl h)
  | outer, _, rfl, .conditional hc hb hbs ho, h =>
    .shift_zero (fun _ => rfl) (hc.reads (.branch [] outer) rfl
      (hb.reads (.branch [] _ outer) rfl (hbs.reads outer rfl [] _ _
        fun helif _ _ _ all => ho.reads outer rfl helif _ _ _ (all ▸ h))))
  | outer, _, rfl, .loop hc hb, h =>
    .shift_zero (fun _ => rfl) (hc.reads (.loop outer) rfl (hb.reads (.loop _ outer) rfl h))
  | outer, _, rfl, .print he, h => .shift_zero (fun _ => rfl) (he.reads (.print outer) rfl h)
  | outer, _, rfl, .expression he, h =>
    reads_beginStatement_expression he (he.reads (.expression outer) rfl h)

/-- The arms behind an arm of a conditional. No other arm follows the last of them. -/
theorem LevelsElifs.reads {ks rest : List Levelled} {bs : List Branch} :
    ∀ (outer : StmtContext g) {n}, outer.depth = n → LevelsElifs d n ks rest bs → ∀ earlier c b,
      ((kindsOf rest).head? ≠ some Keyword.kwElif.kind → ∀ front c' b',
        front ++ [.arm c' b'] = earlier ++ .arm c b :: bs →
        Reads d r (fun _ => finishBlock b' (.branch front c' outer)) rest) →
      Reads d r (fun _ => finishBlock b (.branch earlier c outer)) ks
  | _, _, _, .nil hk, earlier, c, b, h => h hk earlier c b rfl
  | outer, _, rfl, .cons hc hb hbs, earlier, c, b, h => by
    rw [List.append_cons] at h
    exact .shift_zero (fun _ => rfl) (hc.reads (.branch _ outer) rfl
      (hb.reads (.branch _ _ outer) rfl (hbs.reads outer rfl _ _ _ h)))

/-- From the move behind a conditional to the move in front of its last arm. -/
theorem LevelsElse.reads {ks rest : List Levelled} {o : Option Block} :
    ∀ (outer : StmtContext g) {n}, outer.depth = n → LevelsElse d n ks rest o →
      (kindsOf ks).head? ≠ some Keyword.kwElif.kind → ∀ earlier c b,
      Reads d r (fun _ => finishStatement (.conditional (earlier ++ [.arm c b]) o) outer) rest →
      Reads d r (fun _ => finishBlock b (.branch earlier c outer)) ks
  | _, _, _, .none hk, helif, _, _, _, h => reads_finishBlock_none helif hk h
  | outer, _, rfl, .some hb, _, _, _, _, h =>
    .shift_zero (fun _ => rfl) (hb.reads (.otherwise _ outer) rfl h)

/-- From the move behind the statements of a block to the move behind the first of them. -/
theorem LevelsStmts.reads {ks rest : List Levelled} {ss : Block} :
    ∀ (outer : BlockContext g) {n}, outer.depth + 1 = n → LevelsStmts d n ks rest ss → ∀ earlier,
      Reads d r (fun limit => continueBlock ⟨d, limit⟩ (earlier ++ ss) outer) rest →
      Reads d r (fun limit => continueBlock ⟨d, limit⟩ earlier outer) ks
  | _, _, _, .nil, _, h => by rwa [List.append_nil] at h
  | outer, _, rfl, .cons hs hss, earlier, h => by
    rw [List.append_cons] at h
    exact reads_continueBlock_statement hs (hs.reads (.item earlier outer) rfl
      (.shift_zero (fun _ => rfl) (hss.reads outer rfl _ h)))

/-- From the move behind a block to the move in front of it. -/
theorem LevelsBlock.reads {ks rest : List Levelled} {b : Block} :
    ∀ (outer : BlockContext g) {n}, outer.depth = n → LevelsBlock d n ks rest b →
      Reads d r (fun _ => finishBlock b outer) rest →
      Reads d r (fun limit => beginBlock ⟨d, limit⟩ outer) ks
  | outer, _, rfl, .braces hss, h =>
    .shift (fun _ => rfl) (hss.reads outer rfl [] (.shift_zero (fun _ => rfl) h))

end

/-- A program with its levels is read from the initial state, under every limit. -/
theorem LevelsProgram.reads {ks : List Kind} {levels : List Nat} {b : Block}
    (h : LevelsProgram d ks levels b) :
    Reads d b (fun limit => step ⟨d, limit⟩ (State.initial .program))
      (ks.zip levels ++ [(.endOfInput, 0)]) :=
  h.2.reads (.program rfl) rfl (.done fun limit => (gate_zero limit _).symm)

end Quill
