import Quill.Proofs.Descent.Following

/-!
# Constructs follow the machine

Each function of the recursive descent follows the machine, if its counter is the number of levels
that are open around the stage where the machine is. For the calls that go through `Calls` this is
assumed where the machine has fewer turns to take (`Calls.Follow`). The machine takes a turn in
front of each such call, so as many rounds as turns will do (`follow_calls`).
-/

namespace Quill

open Descent

variable {g : Goal} {n : Nat} {p : CountingParser}

/-- Within `n` turns, what the functions call where they call themselves, or one further down,
follows the machine, if the counter is right. -/
structure Descent.Calls.Follow (called : Calls) (g : Goal) (n : Nat) : Prop where
  parameters (p : CountingParser) (name : String) (params : List String) (outer : StmtContext g) :
    Follows n p (called.parameters params) (.state (.parameters name params outer))
      (fun params => .state (.block (.function name params outer)))
  expression (p : CountingParser) (outer : ExprContext g) : p.depth = outer.depth →
    Follows n p called.expression (.state (.expression outer)) (.result · outer)
  arguments (p : CountingParser) (callee : String) (args : List Expr) (outer : FactorContext g) :
    p.depth = outer.depth →
    Follows n p (called.arguments args) (.state (.arguments callee args outer))
      (fun args => .state (.value (.call callee args) outer))
  factor (p : CountingParser) (outer : FactorContext g) : p.depth = outer.depth →
    Follows n p called.factor (.state (.factor outer)) (fun e => .state (.value e outer))
  multiplicative (p : CountingParser) (left : Expr) (outer : TermContext g) :
    p.depth = outer.depth →
    Follows n p (called.multiplicative left) (.product left outer) (.term · outer)
  additive (p : CountingParser) (left : Expr) (outer : ExprContext g) : p.depth = outer.depth + 1 →
    Follows n p (called.additive left) (.sum left outer) (.result · outer)
  block (p : CountingParser) (outer : BlockContext g) : p.depth = outer.depth →
    Follows n p called.block (.state (.block outer)) (fun body => .state (.closed body outer))
  moreBranches (p : CountingParser) (earlier : List Branch) (condition : Expr) (body : Block)
    (outer : StmtContext g) : p.depth = outer.depth →
    Follows n p (called.moreBranches (earlier ++ [.arm condition body]))
      (.state (.closed body (.branch earlier condition outer))) (.finished · outer)
  statements (p : CountingParser) (earlier : List Stmt) (outer : BlockContext g) :
    p.depth = outer.depth + 1 →
    Follows n p (called.statements earlier) (.state (.statements earlier outer))
      (fun body => .state (.closed body outer))

/-! ## Expressions -/

/-- A literal is a token that is passed over. -/
lemma follows_literal {outer : FactorContext g} {e : Expr}
    (ht : beginFactor outer p.token.kind = .shift (.value e outer)) :
    Follows n p (advance >>= fun _ => pure e) (.state (.factor outer))
      (fun e => .state (.value e outer)) :=
  follows_advance _ (congrArg _ ht) fun _ _ _ _ _ => follows_pure rfl

section

variable {self : Calls} (ih : ∀ m < n, self.Follow g m)

include ih

/-- What is assumed for fewer turns is assumed for fewer still. -/
lemma follow_fewer {m : Nat} (less : m < n) : ∀ k < m, self.Follow g k :=
  fun k hk => ih k (Nat.lt_trans hk less)

/-- Arguments follow up to the closing parenthesis. -/
lemma follows_arguments {callee : String} {args : List Expr} {outer : FactorContext g}
    (hp : p.depth = outer.depth) :
    Follows n p (arguments self args) (.state (.arguments callee args outer))
      (fun args => .state (.value (.call callee args) outer)) := by
  rw [arguments]
  apply follows_look
  by_cases closed : p.token.kind = .mark .rightParen
  · rw [if_pos closed]
    apply follows_advance (.value (.call callee args) outer)
    · simp only [Stage.turn, if_pos closed]
    · exact fun _ _ _ _ _ => follows_pure rfl
  · rw [if_neg closed]
    apply follows_look
    by_cases starts : p.token.kind.startsExpression = true
    · rw [if_pos starts]
      apply follows_turn (b := .state (.expression (.argument callee args outer)))
      · simp only [Stage.turn, if_neg closed, if_pos starts]
      · intro m less
        apply ((ih m less).expression p (.argument callee args outer) hp).bind
        intro e p' keeps m' less'
        apply follows_turn (b := .state (.arguments callee (args ++ [e]) outer)) rfl
        intro m'' less''
        exact (ih m'' (by omega)).arguments p' callee _ outer (keeps.depth.trans hp)
    · rw [if_neg starts]
      apply follows_refuse
      simp only [Stage.turn, if_neg closed, if_neg starts]

/-- The call of a function follows from the name in front of it. -/
lemma follows_callOf {callee : String} {outer : FactorContext g} (hp : p.depth = outer.depth)
    (paren : p.token.kind = .mark .leftParen) :
    Follows n p (callOf self callee) (.state (.name callee outer))
      (fun e => .state (.value e outer)) := by
  rw [callOf]
  apply follows_advance (.arguments callee [] outer)
  · rw [paren]
    rfl
  · intro _ p' keeps m less
    apply (follows_arguments (follow_fewer ih less) (keeps.depth.trans hp)).bind
    intro args _ _ _ _
    exact follows_pure rfl

/-- A name follows, whether it is called or not. -/
lemma follows_name {w : String} {outer : FactorContext g} (hp : p.depth = outer.depth) :
    Follows n p (look >>= fun k => if k = .mark .leftParen then callOf self w else pure (.ref w))
      (.state (.name w outer)) (fun e => .state (.value e outer)) := by
  apply follows_look
  by_cases paren : p.token.kind = .mark .leftParen
  · rw [if_pos paren]
    exact follows_callOf ih hp paren
  · rw [if_neg paren]
    apply follows_turn (b := .state (.value (.ref w) outer))
    · simp only [Stage.turn]
    · exact fun _ _ => follows_pure rfl

/-- An expression in parentheses follows from the token in front of it. -/
lemma follows_group {outer : FactorContext g} (hp : p.depth = outer.depth)
    (paren : p.token.kind = .mark .leftParen) :
    Follows n p
      (advance >>= fun _ => self.expression >>= fun e =>
        consumeMark .rightParen >>= fun _ => pure e)
      (.state (.factor outer)) (fun e => .state (.value e outer)) := by
  apply follows_advance (.expression (.group outer))
  · rw [paren]
    rfl
  · intro _ p' keeps m less
    apply ((ih m less).expression p' (.group outer) (keeps.depth.trans hp)).bind
    intro e p' _ m _
    apply follows_consumeMark (.value e outer)
    · intro there
      rw [there]
      rfl
    · intro there
      simp only [Stage.turn, finishExpression]
    · exact fun _ _ _ _ _ => follows_pure rfl

/-- What stands without a sign follows. -/
lemma follows_primary {outer : FactorContext g} (hp : p.depth = outer.depth)
    (plus : p.token.kind ≠ .operator .plus) (minus : p.token.kind ≠ .operator .minus) :
    Follows n p (primary self) (.state (.factor outer)) (fun e => .state (.value e outer)) := by
  rw [primary]
  apply follows_look
  cases hk : p.token.kind with
  | number x => exact follows_literal (by rw [hk]; rfl)
  | string s => exact follows_literal (by rw [hk]; rfl)
  | word w =>
    dsimp only
    cases hw : Keyword.ofText? w with
    | none =>
      apply follows_advance (.name w outer)
      · simp only [Stage.turn, hk, beginFactor, hw]
      · intro _ p' keeps m less
        exact follows_name (follow_fewer ih less) (keeps.depth.trans hp)
    | some kw =>
      cases kw
      case kwTrue | kwFalse | kwNone => exact follows_literal (by simp only [hk, beginFactor, hw])
      all_goals exact follows_refuse (by simp only [Stage.turn, hk, beginFactor, hw])
  | operator op =>
    apply follows_refuse
    cases op <;> simp_all [Stage.turn, beginFactor]
  | mark m =>
    cases m with
    | leftParen => exact follows_group ih hp hk
    | _ => exact follows_refuse (by rw [hk]; rfl)
  | endOfInput => exact follows_refuse (by rw [hk]; rfl)

/-- A factor behind a sign follows, one level deeper. -/
lemma follows_nested_factor {negate : Bool} {outer : FactorContext g} (hp : p.depth = outer.depth) :
    Follows n p (nested self.factor) (.state (.operand negate outer))
      (fun e => .state (.value e (.signed negate outer))) := by
  apply follows_nested
  · intro full
    simp only [Stage.turn]
    rw [if_neg (Nat.not_lt.2 (hp ▸ full))]
  · intro room
    apply follows_turn (b := .state (.factor (.signed negate outer)))
    · simp only [Stage.turn]
      exact if_pos (hp ▸ room)
    · intro m less
      exact (ih m less).factor _ (.signed negate outer) (congrArg (· + 1) hp)

/-- A factor follows, with or without a sign. -/
lemma follows_factor (outer : FactorContext g) (hp : p.depth = outer.depth) :
    Follows n p (factor self) (.state (.factor outer)) (fun e => .state (.value e outer)) := by
  rw [factor]
  apply follows_takeIf
  · intro plus
    apply follows_advance (.operand false outer)
    · rw [of_decide_eq_true plus]
      rfl
    · intro _ p' keeps m less
      -- A plus leaves no trace, but the machine takes a turn for it.
      rw [if_pos rfl, ← bind_pure (nested self.factor)]
      apply (follows_nested_factor (follow_fewer ih less) (keeps.depth.trans hp)).bind
      exact fun e _ _ _ _ => follows_turn (b := .state (.value e outer)) rfl
        fun _ _ => follows_pure rfl
  · intro plus
    rw [if_neg Bool.false_ne_true]
    apply follows_takeIf
    · intro minus
      apply follows_advance (.operand true outer)
      · rw [of_decide_eq_true minus]
        rfl
      · intro _ p' keeps m less
        rw [if_pos rfl]
        apply (follows_nested_factor (follow_fewer ih less) (keeps.depth.trans hp)).bind
        exact fun e _ _ _ _ => follows_turn (b := .state (.value (.unary .negate e) outer)) rfl
          fun _ _ => follows_pure rfl
    · intro minus
      rw [if_neg Bool.false_ne_true]
      exact follows_primary ih hp (fun h => plus (decide_eq_true h))
        fun h => minus (decide_eq_true h)

/-- The other factors of a product follow. -/
lemma follows_multiplicative {left : Expr} {outer : TermContext g} (hp : p.depth = outer.depth) :
    Follows n p (multiplicative self left) (.product left outer) (.term · outer) := by
  rw [multiplicative]
  apply follows_look
  apply follows_get
  cases hop : p.token.kind.multiplicative? p.settings.division with
  | none =>
    apply follows_turn (b := .term left outer)
    · simp only [Stage.turn, hop]
    · exact fun _ _ => follows_pure rfl
  | some op =>
    apply follows_advance (.factor (.product left op outer))
    · simp only [Stage.turn, hop]
    · intro _ p' keeps m less
      have hp' : p'.depth = outer.depth := keeps.depth.trans hp
      apply (follows_factor (follow_fewer ih less) (.product left op outer) hp').bind
      intro right p'' keeps' m' less'
      apply follows_turn (b := .product (.binary op left right) outer) rfl
      intro m'' less''
      exact (ih m'' (by omega)).multiplicative p'' _ outer (keeps'.depth.trans hp')

/-- A product follows from its first factor on. -/
lemma follows_term (outer : TermContext g) (hp : p.depth = outer.depth) :
    Follows n p (term self) (.state (.factor (.first outer))) (.term · outer) := by
  rw [term]
  apply (follows_factor ih (.first outer) hp).bind
  intro left p' keeps m less
  apply follows_turn (b := .product left outer) rfl
  intro m' less'
  exact follows_multiplicative (follow_fewer ih (by omega)) (keeps.depth.trans hp)

/-- The other terms of a sum follow. -/
lemma follows_additive {left : Expr} {outer : ExprContext g} (hp : p.depth = outer.depth + 1) :
    Follows n p (additive self left) (.sum left outer) (.result · outer) := by
  rw [additive]
  apply follows_look
  cases hop : p.token.kind.additive? with
  | none =>
    apply follows_turn (b := .result left outer)
    · simp only [Stage.turn, hop]
    · exact fun _ _ => follows_pure rfl
  | some op =>
    apply follows_advance (.factor (.first (.sum left op outer)))
    · simp only [Stage.turn, hop]
    · intro _ p' keeps m less
      have hp' : p'.depth = outer.depth + 1 := keeps.depth.trans hp
      apply (follows_term (follow_fewer ih less) (.sum left op outer) hp').bind
      intro right p'' keeps' m' less'
      apply follows_turn (b := .sum (.binary op left right) outer) rfl
      intro m'' less''
      exact (ih m'' (by omega)).additive p'' _ outer (keeps'.depth.trans hp')

/-- A comparison follows once its level is open. -/
lemma follows_comparison {outer : ExprContext g} (hp : p.depth = outer.depth + 1)
    (room : outer.depth < p.settings.maxDepth) :
    Follows n p (comparison self) (.state (.expression outer)) (.result · outer) := by
  rw [comparison]
  apply follows_takeIf
  · intro bang
    apply follows_advance (.expression (.not outer))
    · simp only [Stage.turn, of_decide_eq_true bang, if_pos room]
    · intro _ p' keeps m less
      rw [if_pos rfl]
      apply ((ih m less).expression p' (.not outer) (keeps.depth.trans hp)).bind
      exact fun e _ _ _ _ => follows_turn (b := .result (.unary .not e) outer) rfl
        fun _ _ => follows_pure rfl
  · intro bang
    rw [if_neg Bool.false_ne_true]
    apply follows_turn (b := .state (.factor (.first (.first outer))))
    · simp only [Stage.turn, if_pos room]
      split
      · rename_i there
        exact absurd (decide_eq_true there) bang
      · rfl
    · intro m less
      apply (follows_term (follow_fewer ih less) (.first outer) hp).bind
      intro left p' keeps m' less'
      apply follows_look
      cases hop : p'.token.kind.comparison? with
      | none =>
        apply follows_turn (b := .sum left outer)
        · simp only [Stage.turn, hop]
        · intro m'' less''
          exact follows_additive (follow_fewer ih (by omega)) (keeps.depth.trans hp)
      | some op =>
        apply follows_advance (.expression (.compare left op outer))
        · simp only [Stage.turn, hop]
        · intro _ p'' keeps' m'' less''
          apply ((ih m'' (by omega)).expression p'' (.compare left op outer)
            (keeps'.depth.trans (keeps.depth.trans hp))).bind
          exact fun e _ _ _ _ => follows_turn (b := .result (.binary op left e) outer) rfl
            fun _ _ => follows_pure rfl

/-- An expression follows, and opens its level. -/
lemma follows_expression (outer : ExprContext g) (hp : p.depth = outer.depth) :
    Follows n p (expression self) (.state (.expression outer)) (.result · outer) := by
  rw [expression]
  apply follows_nested
  · intro full
    simp only [Stage.turn]
    rw [if_neg (Nat.not_lt.2 (hp ▸ full))]
  · intro room
    exact follows_comparison ih (congrArg (· + 1) hp) (hp ▸ room)

/-! ## Statements -/

/-- Parameters follow up to the closing parenthesis. -/
lemma follows_parameters {name : String} {params : List String} {outer : StmtContext g} :
    Follows n p (parameters self params) (.state (.parameters name params outer))
      (fun params => .state (.block (.function name params outer))) := by
  rw [parameters]
  apply follows_look
  by_cases closed : p.token.kind = .mark .rightParen
  · rw [if_pos closed]
    apply follows_advance (.block (.function name params outer))
    · simp only [Stage.turn, continueParameters, if_pos closed]
    · exact fun _ _ _ _ _ => follows_pure rfl
  · rw [if_neg closed]
    apply follows_look
    by_cases there : p.token.kind.name?.isSome = true
    · rw [if_pos there]
      apply follows_consumeName (fun param => .parameters name (params ++ [param]) outer)
      · intro param hparam
        simp only [Stage.turn, continueParameters, if_neg closed, hparam]
      · intro hparam
        simp [hparam] at there
      · exact fun param p' _ m less => (ih m less).parameters p' name (params ++ [param]) outer
    · rw [if_neg there]
      apply follows_refuse
      have hparam : p.token.kind.name? = none := by simpa using there
      simp only [Stage.turn, continueParameters, if_neg closed, hparam]

/-- A statement that an expression finishes follows from there on. -/
lemma follows_valued {form : Expr → Stmt} (inner : ExprContext g) {outer : StmtContext g}
    (hp : p.depth = inner.depth)
    (ht : ∀ e settings k,
      (Stage.result e inner).turn settings k = .inl (.finished (form e) outer)) :
    Follows n p (expression self >>= fun value => pure (form value)) (.state (.expression inner))
      (.finished · outer) := by
  apply (follows_expression ih inner hp).bind
  exact fun e p' _ _ _ => follows_turn (ht e p'.settings p'.token.kind) fun _ _ => follows_pure rfl

/-- An assignment follows from the name of its variable on. -/
lemma follows_assign {scope : Scope} {outer : StmtContext g} (hp : p.depth = outer.depth) :
    Follows n p
      (consumeName .variableName >>= fun name =>
        expression self >>= fun value => pure (.assign scope name value))
      (.state (.variableName scope outer)) (.finished · outer) := by
  apply follows_consumeName (fun name => .expression (.assign scope name outer))
  · intro name hname
    simp only [Stage.turn, step, hname]
  · intro hname
    simp only [Stage.turn, step, hname]
  · intro name p' keeps m less
    exact follows_valued (follow_fewer ih less) (.assign scope name outer)
      (keeps.depth.trans hp) fun _ _ _ => rfl

/-- A branch follows, and the machine has its block in hand. -/
lemma follows_branch {earlier : List Branch} {outer : StmtContext g} (hp : p.depth = outer.depth) :
    Follows n p (branch self) (.state (.expression (.branch earlier outer)))
      (fun b => match b with
        | .arm condition body => .state (.closed body (.branch earlier condition outer))) := by
  rw [branch]
  apply (follows_expression ih (.branch earlier outer) hp).bind
  intro condition p' keeps m less
  apply follows_turn (b := .state (.block (.branch earlier condition outer))) rfl
  intro m' less'
  apply ((ih m' (by omega)).block p' (.branch earlier condition outer) (keeps.depth.trans hp)).bind
  exact fun _ _ _ _ _ => follows_pure rfl

/-- The other branches of a conditional follow. -/
lemma follows_moreBranches (earlier : List Branch) {condition : Expr} {body : Block}
    {outer : StmtContext g} (hp : p.depth = outer.depth) :
    Follows n p (moreBranches self (earlier ++ [.arm condition body]))
      (.state (.closed body (.branch earlier condition outer))) (.finished · outer) := by
  rw [moreBranches]
  apply follows_takeIf
  · intro isElif
    apply follows_advance (.expression (.branch (earlier ++ [.arm condition body]) outer))
    · simp only [Stage.turn, of_decide_eq_true isElif]
    · intro _ p' keeps m less
      rw [if_pos rfl]
      have hp' : p'.depth = outer.depth := keeps.depth.trans hp
      apply (follows_branch (follow_fewer ih less) hp').bind
      intro b p'' keeps' m' less'
      obtain ⟨condition', body'⟩ := b
      exact (ih m' (by omega)).moreBranches p'' _ condition' body' outer (keeps'.depth.trans hp')
  · intro isElif
    rw [if_neg Bool.false_ne_true]
    apply follows_takeIf
    · intro isElse
      apply follows_advance (.block (.otherwise (earlier ++ [.arm condition body]) outer))
      · simp only [Stage.turn, of_decide_eq_true isElse]
      · intro _ p' keeps m less
        rw [if_pos rfl]
        apply ((ih m less).block p' (.otherwise _ outer) (keeps.depth.trans hp)).bind
        exact fun _ _ _ _ _ => follows_turn rfl fun _ _ => follows_pure rfl
    · intro isElse
      rw [if_neg Bool.false_ne_true]
      apply follows_turn
        (b := .finished (.conditional (earlier ++ [.arm condition body]) none) outer)
      · simp only [Stage.turn]
        split
        · rename_i there
          exact absurd (decide_eq_true there) isElif
        · rename_i there
          exact absurd (decide_eq_true there) isElse
        · rfl
      · exact fun _ _ => follows_pure rfl

/-- A conditional follows from its reserved word on. -/
lemma follows_conditional {outer : StmtContext g} (hp : p.depth = outer.depth)
    (isIf : p.token.kind.keyword? = some .kwIf) :
    Follows n p (conditional self) (.state (.statement outer)) (.finished · outer) := by
  rw [conditional]
  apply follows_advance (.expression (.branch [] outer))
  · simp only [Stage.turn, isIf]
  · intro _ p' keeps m less
    have hp' : p'.depth = outer.depth := keeps.depth.trans hp
    apply (follows_branch (follow_fewer ih less) hp').bind
    intro b p'' keeps' m' less'
    obtain ⟨condition, body⟩ := b
    exact follows_moreBranches (follow_fewer ih (by omega)) [] (keeps'.depth.trans hp')

/-- The declaration of a function follows from its reserved word on. -/
lemma follows_functionDeclaration {outer : StmtContext g} (hp : p.depth = outer.depth)
    (isFn : p.token.kind.keyword? = some .kwFn) :
    Follows n p (functionDeclaration self) (.state (.statement outer)) (.finished · outer) := by
  rw [functionDeclaration]
  apply follows_advance (.functionName outer)
  · simp only [Stage.turn, isFn]
  intro _ p₁ keeps₁ m₁ less₁
  apply follows_consumeName (fun name => .signature name outer)
  · intro name hname
    simp only [Stage.turn, step, hname]
  · intro hname
    simp only [Stage.turn, step, hname]
  intro name p₂ keeps₂ m₂ less₂
  apply follows_consumeMark (.parameters name [] outer)
  · intro there
    simp only [Stage.turn, step, there]
  · intro there
    simp only [Stage.turn, step]
  intro _ p₃ keeps₃ m₃ less₃
  apply (follows_parameters (follow_fewer ih (by omega))).bind
  intro params p₄ keeps₄ m₄ less₄
  have hp₄ : p₄.depth = outer.depth :=
    ((keeps₁.trans keeps₂).trans (keeps₃.trans keeps₄)).depth.trans hp
  apply ((ih m₄ (by omega)).block p₄ (.function name params outer) hp₄).bind
  exact fun _ _ _ _ _ => follows_turn rfl fun _ _ => follows_pure rfl

/-- A loop follows from its condition on. -/
lemma follows_loop {outer : StmtContext g} (hp : p.depth = outer.depth) :
    Follows n p
      (expression self >>= fun condition => self.block >>= fun body =>
        pure (.loop condition body))
      (.state (.expression (.loop outer))) (.finished · outer) := by
  apply (follows_expression ih (.loop outer) hp).bind
  intro condition p' keeps m less
  apply follows_turn (b := .state (.block (.loop condition outer))) rfl
  intro m' less'
  apply ((ih m' (by omega)).block p' (.loop condition outer) (keeps.depth.trans hp)).bind
  exact fun _ _ _ _ _ => follows_turn rfl fun _ _ => follows_pure rfl

/-- A statement follows, whichever form its first word selects. -/
lemma follows_statement (outer : StmtContext g) (hp : p.depth = outer.depth) :
    Follows n p (statement self) (.state (.statement outer)) (.finished · outer) := by
  have behind {p' : CountingParser} (keeps : p.Keeps p') : p'.depth = outer.depth :=
    keeps.depth.trans hp
  have plain (ht : (Stage.state (.statement outer)).turn p.settings p.token.kind =
      .inl (.state (.expression (.expression outer)))) :
      Follows n p (expression self >>= fun e => pure (.expression e)) (.state (.statement outer))
        (.finished · outer) :=
    follows_turn ht fun _ less => follows_valued (follow_fewer ih less) _ hp fun _ _ _ => rfl
  rw [statement]
  apply follows_look
  cases hkw : p.token.kind.keyword? with
  | none => exact plain (by simp only [Stage.turn, hkw])
  | some kw =>
    cases kw
    case kwGlobal | kwLocal =>
      exact follows_advance _ (by simp only [Stage.turn, hkw])
        fun _ _ keeps _ less => follows_assign (follow_fewer ih less) (behind keeps)
    case kwFn => exact follows_functionDeclaration ih hp hkw
    case kwReturn =>
      exact follows_advance (.expression (.giveBack outer)) (by simp only [Stage.turn, hkw])
        fun _ _ keeps _ less =>
          follows_valued (follow_fewer ih less) _ (behind keeps) fun _ _ _ => rfl
    case kwIf => exact follows_conditional ih hp hkw
    case kwWhile =>
      exact follows_advance (.expression (.loop outer)) (by simp only [Stage.turn, hkw])
        fun _ _ keeps _ less => follows_loop (follow_fewer ih less) (behind keeps)
    case kwPrint =>
      exact follows_advance (.expression (.print outer)) (by simp only [Stage.turn, hkw])
        fun _ _ keeps _ less =>
          follows_valued (follow_fewer ih less) _ (behind keeps) fun _ _ _ => rfl
    all_goals exact plain (by simp only [Stage.turn, hkw])

/-- Statements follow up to the closing brace. -/
lemma follows_statements {earlier : List Stmt} {outer : BlockContext g}
    (hp : p.depth = outer.depth + 1) :
    Follows n p (statements self earlier) (.state (.statements earlier outer))
      (fun body => .state (.closed body outer)) := by
  rw [statements]
  apply follows_look
  by_cases closed : p.token.kind = .mark .rightBrace
  · rw [if_pos closed]
    apply follows_advance (.closed earlier outer)
    · simp only [Stage.turn, if_pos closed]
    · exact fun _ _ _ _ _ => follows_pure rfl
  · rw [if_neg closed]
    apply follows_look
    by_cases starts : p.token.kind.startsStatement = true
    · rw [if_pos starts]
      apply follows_turn (b := .state (.statement (.item earlier outer)))
      · simp only [Stage.turn, if_neg closed, if_pos starts]
      · intro m less
        apply (follows_statement (follow_fewer ih less) (.item earlier outer) hp).bind
        intro s p' keeps m' less'
        apply follows_consumeMark (.statements (earlier ++ [s]) outer)
        · intro there
          simp only [Stage.turn, finishStatement, there]
        · intro there
          simp only [Stage.turn, finishStatement]
        · intro _ p'' keeps' m'' less''
          exact (ih m'' (by omega)).statements p'' _ outer ((keeps.trans keeps').depth.trans hp)
    · rw [if_neg starts]
      apply follows_refuse
      simp only [Stage.turn, if_neg closed, if_neg starts]

/-- A block follows, and opens its level. -/
lemma follows_block (outer : BlockContext g) (hp : p.depth = outer.depth) :
    Follows n p (block self) (.state (.block outer)) (fun body => .state (.closed body outer)) := by
  rw [block]
  apply follows_nested
  · intro full
    simp only [Stage.turn, beginBlock, openLevel]
    rw [if_neg (Nat.not_lt.2 (hp ▸ full))]
  · intro room
    have less : outer.depth < p.settings.maxDepth := hp ▸ room
    apply follows_consumeMark (.statements [] outer)
    · intro there
      rw [there]
      exact congrArg Sum.inr (if_pos less)
    · intro there
      refine congrArg Sum.inr ((if_pos less).trans ?_)
      split
      · rename_i brace
        exact absurd brace there
      · rfl
    · intro _ p' keeps m less
      exact follows_statements (follow_fewer ih less) (keeps.depth.trans (congrArg (· + 1) hp))

end

/-- Calls that may go deeper than the machine has turns to take follow it. -/
lemma follow_calls (g : Goal) {n rounds : Nat} (enough : n < rounds) :
    (calls rounds).Follow g n := by
  induction rounds generalizing n with
  | zero => exact absurd enough (Nat.not_lt_zero n)
  | succ rounds ih =>
    have inner : ∀ m < n, (calls rounds).Follow g m :=
      fun m less => ih (Nat.lt_of_lt_of_le less (Nat.le_of_lt_succ enough))
    exact
      { parameters := fun _ _ _ _ => follows_parameters inner
        expression := fun _ => follows_expression inner
        arguments := fun _ _ _ _ => follows_arguments inner
        factor := fun _ => follows_factor inner
        multiplicative := fun _ _ _ => follows_multiplicative inner
        additive := fun _ _ _ => follows_additive inner
        block := fun _ => follows_block inner
        moreBranches := fun _ earlier _ _ _ => follows_moreBranches inner earlier
        statements := fun _ _ _ => follows_statements inner }

end Quill
