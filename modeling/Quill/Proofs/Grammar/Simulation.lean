import Quill.Proofs.Grammar.Closing
import Quill.Proofs.Grammar.Tables

/-!
# The machine follows the grammar

A move that is not stopped by the nesting limit keeps exactly what the grammar says: the kinds
behind a token complete everything after the move if and only if the token and those kinds complete
the state before it (`closes_step`). There is one such equivalence for each function the step is
made of, and none of them looks at more than the next token.
-/

namespace Quill

variable {g : Goal} {settings : Settings} {k : Kind} {ks : List Kind} {r : g.Result}

/-- Where the limit does not stop it, opening a level changes nothing. -/
lemma openLevel_eq {depth : Nat} {m : Move g} (h : openLevel settings depth m ≠ .refuse .tooDeep) :
    openLevel settings depth m = m := by
  unfold openLevel at h ⊢
  split
  · rfl
  · rename_i hd
    simp [hd] at h

/-! ## First tokens -/

/-- A factor begins with a token that can begin an expression and is not `!`. -/
lemma DerivesFactor.head {d : Division} {rest : List Kind} {e : Expr}
    (h : DerivesFactor d ks rest e) :
    ∃ k ks', ks = k :: ks' ∧ k.startsExpression = true ∧ k ≠ .operator .bang := by
  cases h with
  | ref hx _ => exact ⟨_, _, rfl, by simp [Kind.startsExpression, Keyword.ofText?_eq_none_iff.2 hx],
      nofun⟩
  | call hf _ => exact ⟨_, _, rfl, by simp [Kind.startsExpression, Keyword.ofText?_eq_none_iff.2 hf],
      nofun⟩
  | _ => exact ⟨_, _, rfl, rfl, nofun⟩

/-- A term begins with a token that can begin an expression and is no `!`. -/
lemma DerivesTerm.head {d : Division} {rest : List Kind} {e : Expr} (h : DerivesTerm d ks rest e) :
    ∃ k ks', ks = k :: ks' ∧ k.startsExpression = true ∧ k ≠ .operator .bang := by
  obtain ⟨hf, _⟩ := h
  exact hf.head

/-- An expression begins with a token that can begin one. -/
lemma DerivesExpr.head {d : Division} {rest : List Kind} {e : Expr} (h : DerivesExpr d ks rest e) :
    ∃ k ks', ks = k :: ks' ∧ k.startsExpression = true := by
  cases h with
  | not _ => exact ⟨_, _, rfl, rfl⟩
  | compare ht _ _ =>
    obtain ⟨k, ks', e, hk, _⟩ := ht.head
    exact ⟨k, ks', e, hk⟩
  | sum ht _ _ =>
    obtain ⟨k, ks', e, hk, _⟩ := ht.head
    exact ⟨k, ks', e, hk⟩

/-- A statement begins with a token that can begin one. -/
lemma DerivesStmt.head {d : Division} {rest : List Kind} {s : Stmt} (h : DerivesStmt d ks rest s) :
    ∃ k ks', ks = k :: ks' ∧ k.startsStatement = true := by
  cases h with
  | expression he =>
    obtain ⟨k, ks', e, hk⟩ := he.head
    exact ⟨k, ks', e, by simp [Kind.startsStatement, hk]⟩
  | _ => exact ⟨_, _, rfl, by simp [Kind.startsStatement]⟩

/-- A token that can begin an expression is no word that selects a form of statement. -/
lemma keyword?_of_startsExpression (h : k.startsExpression = true) {w : Keyword}
    (hw : k.keyword? = some w) : w = .kwTrue ∨ w = .kwFalse ∨ w = .kwNone := by
  cases Kind.keyword?_eq_some_iff.1 hw
  cases w <;> simp_all [Kind.startsExpression, Keyword.kind]

/-! ## Beginning a construct -/

/-- A factor is begun exactly as the grammar begins it. -/
lemma closes_beginFactor {outer : FactorContext g} :
    (beginFactor outer k).Closes settings.division ks r ↔
      ∃ f rest, DerivesFactor settings.division (k :: ks) rest f ∧
        outer.Closes settings.division f rest r := by
  constructor
  · intro h
    unfold beginFactor at h
    split at h
    · exact ⟨_, _, .number, h⟩
    · exact ⟨_, _, .string, h⟩
    · obtain ⟨f, rest, hf, hr⟩ := h
      exact ⟨_, _, .plus hf, hr⟩
    · obtain ⟨f, rest, hf, hr⟩ := h
      exact ⟨_, _, .minus hf, hr⟩
    · obtain ⟨e, _, he, rest, rfl, hr⟩ := h
      exact ⟨_, _, .group he, hr⟩
    · split at h
      · rename_i hw
        have hx := Keyword.ofText?_eq_none_iff.1 hw
        obtain ⟨ks', es, rest, rfl, hes, hr⟩ | ⟨hk, hr⟩ := h
        · exact ⟨_, _, .call hx hes, hr⟩
        · exact ⟨_, _, .ref hx hk, hr⟩
      · rename_i hw
        cases Keyword.ofText?_eq_some_iff.1 hw
        exact ⟨_, _, .kwTrue, h⟩
      · rename_i hw
        cases Keyword.ofText?_eq_some_iff.1 hw
        exact ⟨_, _, .kwFalse, h⟩
      · rename_i hw
        cases Keyword.ofText?_eq_some_iff.1 hw
        exact ⟨_, _, .kwNone, h⟩
      · exact h.elim
    · exact h.elim
  · rintro ⟨f, rest, hf, hr⟩
    cases hf with
    | plus hf => exact ⟨_, _, hf, hr⟩
    | minus hf => exact ⟨_, _, hf, hr⟩
    | number => exact hr
    | string => exact hr
    | kwTrue => exact hr
    | kwFalse => exact hr
    | kwNone => exact hr
    | ref hx hk =>
      simp only [beginFactor, Keyword.ofText?_eq_none_iff.2 hx]
      exact .inr ⟨hk, hr⟩
    | call hx hes =>
      simp only [beginFactor, Keyword.ofText?_eq_none_iff.2 hx]
      exact .inl ⟨_, _, _, rfl, hes, hr⟩
    | group he => exact ⟨_, _, he, _, rfl, hr⟩

/-- Reading the first factor of an expression and closing what is open around it is reading an
expression, unless it begins with `!`. -/
lemma closes_first_first {d : Division} {outer : ExprContext g} (hk : k ≠ .operator .bang) :
    (∃ f rest, DerivesFactor d (k :: ks) rest f ∧
        (FactorContext.first (.first outer)).Closes d f rest r) ↔
      ∃ e rest, DerivesExpr d (k :: ks) rest e ∧ outer.Closes d e rest r := by
  constructor
  · rintro ⟨f, ks₁, hf, t, ks₂, ht, h⟩
    obtain ⟨o, op, e, ks₃, rest, rfl, ho, he, hr⟩ | ⟨hc, e, rest, he, hr⟩ := h
    · exact ⟨_, _, .compare (.product hf ht) ho he, hr⟩
    · exact ⟨_, _, .sum (.product hf ht) hc he, hr⟩
  · rintro ⟨e, rest, he, hr⟩
    cases he with
    | not _ => exact absurd rfl hk
    | compare ht ho he =>
      obtain ⟨hf, ht⟩ := ht
      exact ⟨_, _, hf, _, _, ht, .inl ⟨_, _, _, _, _, rfl, ho, he, hr⟩⟩
    | sum ht hc he =>
      obtain ⟨hf, ht⟩ := ht
      exact ⟨_, _, hf, _, _, ht, .inr ⟨hc, _, _, he, hr⟩⟩

/-- The move in front of an expression closes exactly what an expression and its context close. -/
lemma closes_beginExpression {outer : ExprContext g}
    (free : beginExpression settings outer k ≠ .refuse .tooDeep) :
    (beginExpression settings outer k).Closes settings.division ks r ↔
      ∃ e rest, DerivesExpr settings.division (k :: ks) rest e ∧
        outer.Closes settings.division e rest r := by
  unfold beginExpression at free ⊢
  rw [openLevel_eq free]
  split
  · constructor
    · rintro ⟨e, rest, he, hr⟩
      exact ⟨_, _, .not he, hr⟩
    · rintro ⟨e, rest, he, hr⟩
      cases he with
      | not he => exact ⟨_, _, he, hr⟩
      | compare ht _ _ =>
        obtain ⟨_, _, e, _, hk⟩ := ht.head
        cases e
        exact absurd rfl hk
      | sum ht _ _ =>
        obtain ⟨_, _, e, _, hk⟩ := ht.head
        cases e
        exact absurd rfl hk
  · rename_i hk
    rw [closes_beginFactor, closes_first_first hk]

/-- The move in front of a block closes exactly what a block and its context close. -/
lemma closes_beginBlock {outer : BlockContext g}
    (free : beginBlock settings outer k ≠ .refuse .tooDeep) :
    (beginBlock settings outer k).Closes settings.division ks r ↔
      ∃ b rest, DerivesBlock settings.division (k :: ks) rest b ∧
        outer.Closes settings.division b rest r := by
  unfold beginBlock at free ⊢
  rw [openLevel_eq free]
  split
  · constructor
    · rintro ⟨ss, rest, hss, hr⟩
      exact ⟨_, _, .braces hss, hr⟩
    · rintro ⟨b, rest, hb, hr⟩
      cases hb with
      | braces hss => exact ⟨_, _, hss, hr⟩
  · rename_i hk
    constructor
    · exact False.elim
    · rintro ⟨b, rest, hb, hr⟩
      cases hb with
      | braces _ => exact absurd rfl hk

/-- The move in front of a statement closes exactly what a statement and its context close. -/
lemma closes_beginStatement {outer : StmtContext g}
    (free : beginStatement settings outer k ≠ .refuse .tooDeep) :
    (beginStatement settings outer k).Closes settings.division ks r ↔
      ∃ s rest, DerivesStmt settings.division (k :: ks) rest s ∧
        outer.Closes settings.division s rest r := by
  constructor
  · intro h
    unfold beginStatement at free h
    -- One case for each word that selects a form, and the last for an expression.
    split at h
    · rename_i hw
      cases Kind.keyword?_eq_some_iff.1 hw
      obtain ⟨x, ks', e, rest, rfl, hx, he, hr⟩ := h
      exact ⟨_, _, .assignGlobal hx he, hr⟩
    · rename_i hw
      cases Kind.keyword?_eq_some_iff.1 hw
      obtain ⟨x, ks', e, rest, rfl, hx, he, hr⟩ := h
      exact ⟨_, _, .assignLocal hx he, hr⟩
    · rename_i hw
      cases Kind.keyword?_eq_some_iff.1 hw
      obtain ⟨f, ks', xs, mid, b, rest, rfl, hf, hxs, hb, hr⟩ := h
      exact ⟨_, _, .declare hf hxs hb, hr⟩
    · rename_i hw
      cases Kind.keyword?_eq_some_iff.1 hw
      obtain ⟨e, rest, he, hr⟩ := h
      exact ⟨_, _, .giveBack he, hr⟩
    · rename_i hw
      cases Kind.keyword?_eq_some_iff.1 hw
      obtain ⟨c, rest, hc, b, bs, o, ks₁, ks₂, rest', hb, hbs, ho, hr⟩ := h
      exact ⟨_, _, .conditional hc hb hbs ho, hr⟩
    · rename_i hw
      cases Kind.keyword?_eq_some_iff.1 hw
      obtain ⟨c, mid, hc, b, rest, hb, hr⟩ := h
      exact ⟨_, _, .loop hc hb, hr⟩
    · rename_i hw
      cases Kind.keyword?_eq_some_iff.1 hw
      obtain ⟨e, rest, he, hr⟩ := h
      exact ⟨_, _, .print he, hr⟩
    · split at free <;> try contradiction
      obtain ⟨e, rest, he, hr⟩ := (closes_beginExpression free).1 h
      exact ⟨_, _, .expression he, hr⟩
  · rintro ⟨s, rest, hs, hr⟩
    cases hs with
    | assignGlobal hx he =>
      simp only [beginStatement, Kind.keyword?_kind]
      exact ⟨_, _, _, _, rfl, hx, he, hr⟩
    | assignLocal hx he =>
      simp only [beginStatement, Kind.keyword?_kind]
      exact ⟨_, _, _, _, rfl, hx, he, hr⟩
    | declare hf hxs hb =>
      simp only [beginStatement, Kind.keyword?_kind]
      exact ⟨_, _, _, _, _, _, rfl, hf, hxs, hb, hr⟩
    | giveBack he =>
      simp only [beginStatement, Kind.keyword?_kind]
      exact ⟨_, _, he, hr⟩
    | conditional hc hb hbs ho =>
      simp only [beginStatement, Kind.keyword?_kind]
      exact ⟨_, _, hc, _, _, _, _, _, _, hb, hbs, ho, hr⟩
    | loop hc hb =>
      simp only [beginStatement, Kind.keyword?_kind]
      exact ⟨_, _, hc, _, _, hb, hr⟩
    | print he =>
      simp only [beginStatement, Kind.keyword?_kind]
      exact ⟨_, _, he, hr⟩
    | expression he =>
      obtain ⟨_, _, e, hk⟩ := he.head
      cases e
      unfold beginStatement at free ⊢
      -- No word that selects a form begins an expression.
      split at free
      case h_8 => exact (closes_beginExpression free).2 ⟨_, _, he, hr⟩
      all_goals
        rename_i hw
        have := keyword?_of_startsExpression hk hw
        simp at this

/-! ## Sequences -/

/-- Inside a block, the machine goes on exactly as the grammar does. -/
lemma closes_continueBlock {earlier : List Stmt} {outer : BlockContext g}
    (free : continueBlock settings earlier outer k ≠ .refuse .tooDeep) :
    (continueBlock settings earlier outer k).Closes settings.division ks r ↔
      ∃ ss rest, DerivesStmts settings.division (k :: ks) (.mark .rightBrace :: rest) ss ∧
        outer.Closes settings.division (earlier ++ ss) rest r := by
  unfold continueBlock at free ⊢
  constructor
  · intro h
    split at h
    · rename_i hk
      subst hk
      exact ⟨[], ks, .nil, by simpa [Move.Closes, State.Closes] using h⟩
    · rename_i hk
      rw [if_neg hk] at free
      split at h
      · rename_i hs
        rw [if_pos hs] at free
        obtain ⟨s, _, hs, ss, ks', rest, rfl, hss, hr⟩ := (closes_beginStatement free).1 h
        exact ⟨s :: ss, rest, .cons hs hss, hr⟩
      · exact h.elim
  · rintro ⟨ss, rest, hss, hr⟩
    cases hss with
    | nil =>
      rw [if_pos rfl]
      simpa [Move.Closes, State.Closes] using hr
    | cons hs hss =>
      obtain ⟨_, _, e, hk⟩ := hs.head
      cases e
      have hne : k ≠ .mark .rightBrace := by
        rintro rfl
        simp [Kind.startsStatement, Kind.startsExpression, Kind.keyword?, Kind.word?] at hk
      rw [if_neg hne, if_pos hk] at free ⊢
      exact (closes_beginStatement free).2 ⟨_, _, hs, _, _, _, rfl, hss, hr⟩

/-- The move between arguments closes exactly what the other arguments, the parenthesis and the
context close. -/
lemma closes_continueCall {f : String} {args : List Expr} {outer : FactorContext g}
    (free : continueCall settings f args outer k ≠ .refuse .tooDeep) :
    (continueCall settings f args outer k).Closes settings.division ks r ↔
      ∃ es rest, DerivesArgs settings.division (k :: ks) (.mark .rightParen :: rest) es ∧
        outer.Closes settings.division (.call f (args ++ es)) rest r := by
  unfold continueCall at free ⊢
  constructor
  · intro h
    split at h
    · rename_i hk
      subst hk
      exact ⟨[], ks, .nil, by simpa [Move.Closes, State.Closes] using h⟩
    · rename_i hk
      rw [if_neg hk] at free
      split at h
      · rename_i hs
        rw [if_pos hs] at free
        obtain ⟨e, _, he, es, rest, hes, hr⟩ := (closes_beginExpression free).1 h
        exact ⟨e :: es, rest, .cons he hes, hr⟩
      · exact h.elim
  · rintro ⟨es, rest, hes, hr⟩
    cases hes with
    | nil =>
      rw [if_pos rfl]
      simpa [Move.Closes, State.Closes] using hr
    | cons he hes =>
      obtain ⟨_, _, e, hk⟩ := he.head
      cases e
      have hne : k ≠ .mark .rightParen := by
        rintro rfl
        simp [Kind.startsExpression] at hk
      rw [if_neg hne, if_pos hk] at free ⊢
      exact (closes_beginExpression free).2 ⟨_, _, he, _, _, hes, hr⟩

/-- The move between parameters closes exactly what the other parameters, the body and the context
close. -/
lemma closes_continueParameters {d : Division} {f : String} {xs : List String}
    {outer : StmtContext g} :
    (continueParameters f xs outer k).Closes d ks r ↔
      ∃ ys mid b rest, DerivesParams (k :: ks) (.mark .rightParen :: mid) ys ∧
        DerivesBlock d mid rest b ∧ outer.Closes d (.declare f (xs ++ ys) b) rest r := by
  unfold continueParameters
  constructor
  · intro h
    split at h
    · rename_i hk
      subst hk
      obtain ⟨b, rest, hb, hr⟩ := h
      exact ⟨[], ks, b, rest, .nil, hb, by simpa [BlockContext.Closes] using hr⟩
    · split at h
      · rename_i x hk
        obtain ⟨rfl, hx⟩ := Kind.name?_eq_some_iff.1 hk
        obtain ⟨ys, mid, b, rest, hys, hb, hr⟩ := h
        exact ⟨x :: ys, mid, b, rest, .cons hx hys, hb, by simpa using hr⟩
      · exact h.elim
  · rintro ⟨ys, mid, b, rest, hys, hb, hr⟩
    cases hys with
    | nil =>
      rw [if_pos rfl]
      exact ⟨b, rest, hb, by simpa [BlockContext.Closes] using hr⟩
    | cons hx hys =>
      rw [if_neg nofun, Kind.name?_eq_some_iff.2 ⟨rfl, hx⟩]
      exact ⟨_, mid, b, rest, hys, hb, by simpa using hr⟩

/-! ## Finishing a construct -/

/-- A statement is finished exactly as what is open around it demands. -/
lemma closes_finishStatement {d : Division} {s : Stmt} {outer : StmtContext g} :
    (finishStatement s outer k).Closes d ks r ↔ outer.Closes d s (k :: ks) r := by
  cases outer with
  | whole asked => exact Iff.rfl
  | item earlier outer =>
    unfold finishStatement
    dsimp only
    constructor
    · intro h
      split at h
      · obtain ⟨ss, rest, hss, hr⟩ := h
        exact ⟨ss, ks, rest, rfl, hss, by simpa using hr⟩
      · exact h.elim
    · rintro ⟨ss, ks', rest, hk, hss, hr⟩
      cases hk
      exact ⟨ss, rest, hss, by simpa using hr⟩

/-- The move behind a block closes exactly what the context closes. -/
lemma closes_finishBlock {d : Division} {b : Block} {outer : BlockContext g} :
    (finishBlock b outer k).Closes d ks r ↔ outer.Closes d b (k :: ks) r := by
  cases outer with
  | whole asked => exact Iff.rfl
  | program asked =>
    unfold finishBlock
    dsimp only
    constructor
    · intro h
      split at h
      · exact ⟨⟨ks, rfl⟩, h⟩
      · exact h.elim
    · rintro ⟨⟨rest, hk⟩, hr⟩
      cases hk
      exact hr
  | function f xs outer => exact closes_finishStatement
  | branch earlier c outer =>
    unfold finishBlock
    dsimp only
    constructor
    · intro h
      split at h
      · rename_i hw
        cases Kind.keyword?_eq_some_iff.1 hw
        obtain ⟨e, _, he, b', bs, o, ks₁, ks₂, rest, hb, hbs, ho, hr⟩ := h
        exact ⟨_, _, _, _, .cons he hb hbs, ho, by simpa using hr⟩
      · rename_i hw
        cases Kind.keyword?_eq_some_iff.1 hw
        obtain ⟨b', rest, hb, hr⟩ := h
        exact ⟨_, _, _, _, .nil (by simp [Keyword.kind, Keyword.text]), .some hb, hr⟩
      · -- Neither word comes next, so the conditional ends here.
        rename_i hif hse
        refine ⟨_, _, _, _, .nil ?_, .none ?_, closes_finishStatement.1 h⟩
        · intro hk
          cases hk
          exact hif (Kind.keyword?_kind _)
        · intro hk
          cases hk
          exact hse (Kind.keyword?_kind _)
    · rintro ⟨bs, o, mid, rest, hbs, ho, hr⟩
      cases hbs with
      | nil hif =>
        cases ho with
        | none hse =>
          have hif : k.keyword? ≠ some .kwElif := fun hw =>
            hif (by rw [Kind.keyword?_eq_some_iff.1 hw]; rfl)
          have hse : k.keyword? ≠ some .kwElse := fun hw =>
            hse (by rw [Kind.keyword?_eq_some_iff.1 hw]; rfl)
          split <;> first | contradiction | exact closes_finishStatement.2 hr
        | some hb =>
          rw [Kind.keyword?_kind]
          exact ⟨_, _, hb, hr⟩
      | cons he hb hbs =>
        rw [Kind.keyword?_kind]
        exact ⟨_, _, he, _, _, _, _, _, _, hb, hbs, ho, by simpa using hr⟩
  | otherwise bs outer => exact closes_finishStatement
  | loop c outer => exact closes_finishStatement

/-- The move behind an expression closes exactly what the context closes. -/
lemma closes_finishExpression : ∀ {e : Expr} (outer : ExprContext g),
    finishExpression settings e outer k ≠ .refuse .tooDeep →
    ((finishExpression settings e outer k).Closes settings.division ks r ↔
      outer.Closes settings.division e (k :: ks) r)
  | _, .whole asked, _ => Iff.rfl
  | _, .not outer, free => closes_finishExpression outer free
  | _, .compare l op outer, free => closes_finishExpression outer free
  | e, .group outer, _ => by
    unfold finishExpression
    constructor
    · intro h
      split at h
      · exact ⟨ks, rfl, h⟩
      · exact h.elim
    · rintro ⟨rest, hk, hr⟩
      cases hk
      exact hr
  | e, .argument f args outer, free => by
    rw [finishExpression] at free ⊢
    rw [closes_continueCall free]
    simp [ExprContext.Closes]
  | _, .assign scope x outer, _ => closes_finishStatement
  | _, .giveBack outer, _ => closes_finishStatement
  | _, .print outer, _ => closes_finishStatement
  | _, .expression outer, _ => closes_finishStatement
  | c, .branch earlier outer, free => by
    rw [finishExpression] at free ⊢
    rw [closes_beginBlock free]
    constructor
    · rintro ⟨b, rest, hb, bs, o, mid, rest', hbs, ho, hr⟩
      exact ⟨b, bs, o, _, _, _, hb, hbs, ho, hr⟩
    · rintro ⟨b, bs, o, _, _, _, hb, hbs, ho, hr⟩
      exact ⟨b, _, hb, bs, o, _, _, hbs, ho, hr⟩
  | c, .loop outer, free => by
    rw [finishExpression] at free ⊢
    exact closes_beginBlock free

/-- A sum goes on or is finished exactly as the grammar says. -/
lemma closes_continueSum {e : Expr} {outer : ExprContext g}
    (free : continueSum settings e outer k ≠ .refuse .tooDeep) :
    (continueSum settings e outer k).Closes settings.division ks r ↔
      ∃ e' rest, DerivesSum settings.division e (k :: ks) rest e' ∧
        outer.Closes settings.division e' rest r := by
  unfold continueSum at free ⊢
  cases hk : k.additive? with
  | some op =>
    obtain ⟨o, rfl, ho⟩ := Kind.additive?_eq_some_iff.1 hk
    constructor
    · rintro ⟨f, _, hf, t, _, ht, e', rest, he, hr⟩
      exact ⟨e', rest, .more ho (.product hf ht) he, hr⟩
    · rintro ⟨e', rest, he, hr⟩
      cases he with
      | done hn => exact absurd (noneAhead_adds.1 hn) (by simp [hk])
      | more ho' ht he =>
        obtain rfl := Option.some.inj (hk.symm.trans (Kind.additive?_eq_some_iff.2 ⟨_, rfl, ho'⟩))
        obtain ⟨hf, ht⟩ := ht
        exact ⟨_, _, hf, _, _, ht, _, _, he, hr⟩
  | none =>
    rw [hk] at free
    rw [closes_finishExpression outer free]
    constructor
    · intro h
      exact ⟨e, _, .done (noneAhead_adds.2 hk), h⟩
    · rintro ⟨e', rest, he, hr⟩
      cases he with
      | done _ => exact hr
      | more ho _ _ => simp [Kind.additive?_eq_some_iff.2 ⟨_, rfl, ho⟩] at hk

/-- The move behind a term closes exactly what the context closes. -/
lemma closes_finishTerm {e : Expr} {outer : TermContext g}
    (free : finishTerm settings e outer k ≠ .refuse .tooDeep) :
    (finishTerm settings e outer k).Closes settings.division ks r ↔
      outer.Closes settings.division e (k :: ks) r := by
  cases outer with
  | sum l op outer => exact closes_continueSum free
  | first outer =>
    rw [finishTerm] at free ⊢
    cases hk : k.comparison? with
    | some op =>
      obtain ⟨o, rfl, ho⟩ := Kind.comparison?_eq_some_iff.1 hk
      constructor
      · rintro ⟨e', rest, he, hr⟩
        exact .inl ⟨o, op, e', ks, rest, rfl, ho, he, hr⟩
      · rintro (⟨o', op', e', _, rest, h, ho', he, hr⟩ | ⟨hn, _⟩)
        · cases h
          obtain rfl :=
            Option.some.inj (hk.symm.trans (Kind.comparison?_eq_some_iff.2 ⟨_, rfl, ho'⟩))
          exact ⟨e', rest, he, hr⟩
        · exact absurd (noneAhead_compares.1 hn) (by simp [hk])
    | none =>
      rw [hk] at free
      rw [closes_continueSum free]
      constructor
      · intro h
        exact .inr ⟨noneAhead_compares.2 hk, h⟩
      · rintro (⟨o, op, _, _, _, h, ho, _⟩ | ⟨_, h⟩)
        · cases h
          simp [Kind.comparison?_eq_some_iff.2 ⟨_, rfl, ho⟩] at hk
        · exact h

/-- The move behind a factor closes exactly what the rest of a product and the context close. -/
lemma closes_continueProduct {e : Expr} {outer : TermContext g}
    (free : continueProduct settings e outer k ≠ .refuse .tooDeep) :
    (continueProduct settings e outer k).Closes settings.division ks r ↔
      ∃ t rest, DerivesProduct settings.division e (k :: ks) rest t ∧
        outer.Closes settings.division t rest r := by
  unfold continueProduct at free ⊢
  cases hk : k.multiplicative? settings.division with
  | some op =>
    obtain ⟨o, rfl, ho⟩ := Kind.multiplicative?_eq_some_iff.1 hk
    constructor
    · rintro ⟨f, _, hf, t, rest, ht, hr⟩
      exact ⟨t, rest, .more ho hf ht, hr⟩
    · rintro ⟨t, rest, ht, hr⟩
      cases ht with
      | done hn => exact absurd (noneAhead_multiplies.1 hn) (by simp [hk])
      | more ho' hf ht =>
        obtain rfl :=
          Option.some.inj (hk.symm.trans (Kind.multiplicative?_eq_some_iff.2 ⟨_, rfl, ho'⟩))
        exact ⟨_, _, hf, _, _, ht, hr⟩
  | none =>
    rw [hk] at free
    rw [closes_finishTerm free]
    constructor
    · intro h
      exact ⟨e, _, .done (noneAhead_multiplies.2 hk), h⟩
    · rintro ⟨t, rest, ht, hr⟩
      cases ht with
      | done _ => exact hr
      | more ho _ _ => simp [Kind.multiplicative?_eq_some_iff.2 ⟨_, rfl, ho⟩] at hk

/-- The move behind the operand of a product or of a sign closes exactly what the context closes. -/
lemma closes_finishFactor : ∀ {e : Expr} (outer : FactorContext g),
    finishFactor settings e outer k ≠ .refuse .tooDeep →
    ((finishFactor settings e outer k).Closes settings.division ks r ↔
      outer.Closes settings.division e (k :: ks) r)
  | _, .first _, free => closes_continueProduct free
  | _, .product _ _ _, free => closes_continueProduct free
  | _, .signed _ outer, free => closes_finishFactor outer free

/-! ## The step -/

/-- One step keeps exactly what the grammar says, unless the nesting limit stops it. -/
theorem closes_step {s : State g} (free : step settings s k ≠ .refuse .tooDeep) :
    (step settings s k).Closes settings.division ks r ↔
      s.Closes settings.division (k :: ks) r := by
  cases s with
  | block outer => exact closes_beginBlock free
  | statements earlier outer => exact closes_continueBlock free
  | closed b outer => exact closes_finishBlock
  | statement outer => exact closes_beginStatement free
  | variableName scope outer =>
    rw [step]
    constructor
    · intro h
      split at h
      · rename_i x hk
        obtain ⟨rfl, hx⟩ := Kind.name?_eq_some_iff.1 hk
        obtain ⟨e, rest, he, hr⟩ := h
        exact ⟨x, ks, e, rest, rfl, hx, he, hr⟩
      · exact h.elim
    · rintro ⟨x, ks', e, rest, hk, hx, he, hr⟩
      cases hk
      rw [Kind.name?_eq_some_iff.2 ⟨rfl, hx⟩]
      exact ⟨e, rest, he, hr⟩
  | functionName outer =>
    rw [step]
    constructor
    · intro h
      split at h
      · rename_i f hk
        obtain ⟨rfl, hf⟩ := Kind.name?_eq_some_iff.1 hk
        obtain ⟨ks', xs, mid, b, rest, rfl, hxs, hb, hr⟩ := h
        exact ⟨f, ks', xs, mid, b, rest, rfl, hf, hxs, hb, hr⟩
      · exact h.elim
    · rintro ⟨f, ks', xs, mid, b, rest, hk, hf, hxs, hb, hr⟩
      cases hk
      rw [Kind.name?_eq_some_iff.2 ⟨rfl, hf⟩]
      exact ⟨ks', xs, mid, b, rest, rfl, hxs, hb, hr⟩
  | signature f outer =>
    unfold step
    dsimp only
    constructor
    · intro h
      split at h
      · obtain ⟨xs, mid, b, rest, hxs, hb, hr⟩ := h
        exact ⟨ks, xs, mid, b, rest, rfl, hxs, hb, hr⟩
      · exact h.elim
    · rintro ⟨ks', xs, mid, b, rest, hk, hxs, hb, hr⟩
      cases hk
      exact ⟨xs, mid, b, rest, hxs, hb, hr⟩
  | parameters f xs outer => exact closes_continueParameters
  | expression outer => exact closes_beginExpression free
  | factor outer => exact closes_beginFactor
  | operand negate outer =>
    rw [step] at free ⊢
    rw [openLevel_eq free]
    exact closes_beginFactor
  | name x outer =>
    rw [step] at free ⊢
    unfold finishName at free ⊢
    split
    · constructor
      · rintro ⟨es, rest, hes, hr⟩
        exact .inl ⟨ks, es, rest, rfl, hes, hr⟩
      · rintro (⟨ks', es, rest, hk, hes, hr⟩ | ⟨hk, _⟩)
        · cases hk
          exact ⟨es, rest, hes, hr⟩
        · exact absurd rfl hk
    · rename_i hk
      split at free <;> try contradiction
      rw [closes_finishFactor outer free]
      constructor
      · intro h
        exact .inr ⟨fun he => hk (Option.some.inj he), h⟩
      · rintro (⟨ks', es, rest, he, _⟩ | ⟨_, h⟩)
        · cases he
          exact absurd rfl hk
        · exact h
  | arguments f args outer => exact closes_continueCall free
  | value e outer => exact closes_finishFactor outer free

end Quill
