import Quill.Proofs.Grammar.Operands
import Quill.Proofs.Nesting.Height

/-!
# The grouping of shown expressions

A shown expression has parentheses around every operation on two operands, but none around an
operand with a sign, and only a blank between arguments. So the grammar reads it as another tree
where a `!` takes the operator behind its operand, where a sign joins an argument to the one in
front of it, and where a parenthesis behind a name opens a call. Where none of that happens the
expression keeps its grouping.

The kinds of a shown expression derive that expression exactly if it keeps its grouping
(`derivesExpr_shown_iff`). That nothing else is derived from them is told from the outside inward:
the parentheses fix where an operand ends, and how many literals and names stand there fixes which
of the operands found there it is.
-/

namespace Quill

variable {d : Division}

/-! ## The kinds of a shown expression -/

mutual

/-- The kinds of the shown expression in front of some kinds. -/
def Expr.shown : Expr → List Kind → List Kind
  | .binary op l r, rest =>
    .mark .leftParen :: l.shown (.operator op.operator :: r.shown (.mark .rightParen :: rest))
  | .unary op e, rest => .operator op.operator :: e.shown rest
  | .number x, rest => .number x :: rest
  | .string s, rest => .string s :: rest
  | .bool true, rest => Keyword.kwTrue.kind :: rest
  | .bool false, rest => Keyword.kwFalse.kind :: rest
  | .none, rest => Keyword.kwNone.kind :: rest
  | .ref x, rest => .word x :: rest
  | .call f es, rest =>
    .word f :: .mark .leftParen :: Expr.shownAll es (.mark .rightParen :: rest)

/-- The kinds of arguments side by side in front of some kinds. -/
def Expr.shownAll : List Expr → List Kind → List Kind
  | [], rest => rest
  | e :: es, rest => e.shown (Expr.shownAll es rest)

end

/-- The expression is an operand behind a `!`, which goes on as far as an expression can. -/
def Expr.isNot : Expr → Bool
  | .unary .not _ => true
  | _ => false

/-- The last of the kinds of the shown expression is a variable. -/
def Expr.endsInName : Expr → Bool
  | .ref _ => true
  | .unary _ e => e.endsInName
  | _ => false

/-- As an argument behind `a`, the expression is not read as what `a` goes on with. -/
def Expr.StandsBehind (a : Expr) : Expr → Prop
  | .unary .negate _ => False
  | .binary _ _ _ => a.endsInName = false
  | _ => True

/-- The parentheses of the shown expression are enough to tell its grouping. -/
inductive Expr.KeepsGrouping : Expr → Prop where
  | binary {op l r} :
    KeepsGrouping l →
    KeepsGrouping r →
    l.isNot = false →
    (op.isComparison = false → r.isNot = false) →
    KeepsGrouping (.binary op l r)
  | not {e} :
    KeepsGrouping e →
    KeepsGrouping (.unary .not e)
  | negate {e} :
    KeepsGrouping e →
    e.isNot = false →
    KeepsGrouping (.unary .negate e)
  | number {x} : KeepsGrouping (.number x)
  | string {s} : KeepsGrouping (.string s)
  | bool {b} : KeepsGrouping (.bool b)
  | none : KeepsGrouping .none
  | ref {x} : KeepsGrouping (.ref x)
  | call {f es} :
    (∀ e ∈ es, KeepsGrouping e) →
    es.IsChain Expr.StandsBehind →
    KeepsGrouping (.call f es)

/-- What is behind the expression does not make a call of its last name. -/
def Expr.StopsBefore (e : Expr) (rest : List Kind) : Prop :=
  e.endsInName = true → rest.head? ≠ some (.mark .leftParen)

/-- No shown expression goes on with an inert token. -/
lemma Inert.stopsBefore {k : Kind} (hk : Inert k) (e : Expr) (ks : List Kind) :
    e.StopsBefore (k :: ks) :=
  fun _ => hk.head_ne_leftParen

/-- No shown expression goes on with an operator. -/
lemma Expr.stopsBefore_operator (e : Expr) (o : Operator) (ks : List Kind) :
    e.StopsBefore (.operator o :: ks) :=
  nofun

/-! ## What keeps its grouping is read -/

/-- The shown expression is read as it is, as a factor if it is no `!`, in front of what does not go
on with it. -/
structure Expr.Reread (d : Division) (e : Expr) : Prop where
  factor : e.isNot = false → ∀ rest, e.StopsBefore rest → DerivesFactor d (e.shown rest) rest e
  expr : ∀ rest, e.StopsBefore rest → Unjoined d rest → DerivesExpr d (e.shown rest) rest e

/-- What is read as a factor is read as an expression too, where nothing joins it. -/
lemma Expr.reread_of_factor {e : Expr}
    (h : ∀ rest, e.StopsBefore rest → DerivesFactor d (e.shown rest) rest e) : e.Reread d where
  factor _ := h
  expr rest stops free := (h rest stops).expr_of_unjoined free

/-- An operation in its parentheses is read if its operands are. -/
lemma Expr.reread_binary {op : BinaryOp} {l r : Expr} (allowed : d.Allows op) (hl : l.Reread d)
    (hr : r.Reread d) (left : l.isNot = false) (right : op.isComparison = false → r.isNot = false) :
    (Expr.binary op l r).Reread d := by
  refine reread_of_factor fun rest _ => .group ?_
  have first := hl.factor left _
    (l.stopsBefore_operator op.operator (r.shown (.mark .rightParen :: rest)))
  have stops := Inert.rightParen.stopsBefore r rest
  have arithmetic (no : op.isComparison = false) :=
    derivesExpr_binary allowed first (hr.factor (right no) _ stops)
  obtain compares | adds | multiplies := joins_of_allows allowed
  · have term := DerivesTerm.product first (.done (compares.no_factor _))
    exact .compare term compares (hr.expr _ stops (Inert.rightParen.unjoined _))
  · exact arithmetic adds.not_isComparison
  · exact arithmetic multiplies.not_isComparison

/-- An argument stands behind another one exactly if its kinds do not go on with that one. -/
lemma Expr.standsBehind_iff {a b : Expr} (ks : List Kind) :
    a.StandsBehind b ↔ a.StopsBefore (b.shown ks) ∧ Unjoined d (b.shown ks) := by
  cases b with
  | binary op l r =>
    constructor
    · intro bare
      refine ⟨fun name => ?_, unjoined_cons rfl rfl rfl _⟩
      exact absurd (bare.symm.trans name) Bool.false_ne_true
    · rintro ⟨stops, _⟩
      exact Bool.eq_false_iff.2 fun name => stops name rfl
  | unary op e =>
    cases op with
    | not =>
      exact iff_of_true trivial ⟨stopsBefore_operator a _ _, unjoined_cons rfl rfl rfl _⟩
    | negate => exact iff_of_false id fun ahead => ahead.2.adds .minus .sub .minus rfl
  | bool b => cases b <;> exact iff_of_true trivial ⟨nofun, unjoined_cons rfl rfl rfl _⟩
  | _ => exact iff_of_true trivial ⟨nofun, unjoined_cons rfl rfl rfl _⟩

/-- Arguments are read one after the other if none goes on with the one in front of it. -/
lemma Expr.derivesArgs_shownAll {es : List Expr} (h : ∀ e ∈ es, e.Reread d)
    (chain : es.IsChain Expr.StandsBehind) (rest : List Kind) :
    DerivesArgs d (Expr.shownAll es (.mark .rightParen :: rest)) (.mark .rightParen :: rest)
      es := by
  induction es with
  | nil => exact .nil
  | cons e es ih =>
    obtain ⟨he, hes⟩ := List.forall_mem_cons.1 h
    cases chain with
    | singleton =>
      exact .cons (he.expr _ (Inert.rightParen.stopsBefore _ _) (Inert.rightParen.unjoined _)) .nil
    | cons_cons behind chain =>
      obtain ⟨stops, free⟩ := (Expr.standsBehind_iff _).1 behind
      exact .cons (he.expr _ stops free) (ih hes chain)

/-- What keeps its grouping is read as it is. -/
theorem Expr.KeepsGrouping.reread {e : Expr} (h : e.KeepsGrouping) (formed : e.WellFormed d) :
    e.Reread d := by
  induction h with
  | binary _ _ left right ihl ihr =>
    cases formed with
    | binary allowed hl hr => exact reread_binary allowed (ihl hl) (ihr hr) left right
  | not _ ih =>
    cases formed with
    | unary he => exact ⟨nofun, fun rest stops free => .not ((ih he).expr rest stops free)⟩
  | negate _ operand ih =>
    cases formed with
    | unary he =>
      exact reread_of_factor fun rest stops => .minus ((ih he).factor operand rest stops)
  | number => exact reread_of_factor fun _ _ => .number
  | string => exact reread_of_factor fun _ _ => .string
  | @bool b =>
    cases b with
    | false => exact reread_of_factor fun _ _ => .kwFalse
    | true => exact reread_of_factor fun _ _ => .kwTrue
  | none => exact reread_of_factor fun _ _ => .kwNone
  | ref =>
    cases formed with
    | ref name => exact reread_of_factor fun _ stops => .ref name.name (stops rfl)
  | call _ chain ih =>
    cases formed with
    | call name hes =>
      exact reread_of_factor fun rest _ =>
        .call name.name (derivesArgs_shownAll (fun e he => ih e he (hes e he)) chain rest)

/-! ## Where a factor ends -/

mutual

/-- A shown expression is balanced and has the atoms of the expression. -/
theorem Expr.spans_shown : ∀ (e : Expr) (rest : List Kind), Spans (e.shown rest) rest e.atoms
  | .binary _ l r, rest =>
    ((l.spans_shown _).trans ((r.spans_shown (.mark .rightParen :: rest)).operator _)).brackets
  | .unary _ e, rest => (e.spans_shown rest).operator _
  | .number _, rest | .string _, rest | .none, rest | .ref _, rest => (Spans.refl rest).atom rfl
  | .bool true, rest | .bool false, rest => (Spans.refl rest).atom rfl
  | .call _ es, rest => (Expr.spans_shownAll es (.mark .rightParen :: rest)).brackets.atom rfl

/-- Shown arguments are balanced, with as many atoms as the arguments have. -/
theorem Expr.spans_shownAll :
    ∀ (es : List Expr) (rest : List Kind), Spans (Expr.shownAll es rest) rest (Expr.atomsOfAll es)
  | [], rest => .refl rest
  | e :: es, rest => (e.spans_shown _).trans (Expr.spans_shownAll es rest)

end

section

variable {rest y : List Kind} {e u : Expr}

/-- Whatever factor is read from the shown expression, it ends where the expression does. -/
lemma DerivesFactor.rest_of_shown (h : DerivesFactor d (e.shown rest) y u) (formed : e.WellFormed d)
    (stops : e.StopsBefore rest) : rest = y := by
  induction formed generalizing u with
  | @binary op l r _ _ _ _ _ =>
    cases h with
    | group inner =>
      have right := (r.spans_shown (.mark .rightParen :: rest)).operator op.operator
      have whole := (l.spans_shown _).trans right
      exact whole.closed.symm.trans inner.spans.closed
  | @unary op _ _ ih =>
    cases op with
    | not => cases h
    | negate =>
      cases h with
      | minus h => exact ih h stops
  | number _ =>
    cases h
    rfl
  | string =>
    cases h
    rfl
  | @bool b => cases b <;> exact h.rest_of_keyword
  | none => exact h.rest_of_keyword
  | ref name =>
    obtain ⟨_, here, _⟩ | ⟨_, _, behind, _⟩ := h.cases_name name.name
    · exact here
    · exact absurd (behind ▸ rfl) (stops rfl)
  | @call _ es name _ _ =>
    obtain ⟨_, here, ahead⟩ | ⟨inner, _, behind, _, args⟩ := h.cases_name name.name
    · exact absurd (here ▸ rfl) ahead
    · cases behind
      exact (Expr.spans_shownAll es _).closed.symm.trans args.spans.closed

/-- An expression whose last kind is a variable has no other atom. -/
lemma Expr.atoms_of_endsInName : ∀ {e : Expr}, e.endsInName = true → e.atoms = 1
  | .ref _, _ => rfl
  | .unary _ e, h => @atoms_of_endsInName e h

/-- Whatever factor is read from the shown expression, it has as many atoms, unless the last name is
read as a call. -/
lemma DerivesFactor.atoms_of_shown (h : DerivesFactor d (e.shown rest) y u)
    (formed : e.WellFormed d) (stops : e.StopsBefore rest) : u.atoms = e.atoms := by
  obtain rfl := h.rest_of_shown formed stops
  exact Nat.add_right_cancel (h.spans.atoms_eq.symm.trans (e.spans_shown rest).atoms_eq)

/-- Whatever factor is read from the shown expression, it has no fewer atoms. -/
lemma DerivesFactor.atoms_le_of_shown (h : DerivesFactor d (e.shown rest) y u)
    (formed : e.WellFormed d) : e.atoms ≤ u.atoms := by
  by_cases stops : e.StopsBefore rest
  · exact (h.atoms_of_shown formed stops).ge
  · rw [Expr.StopsBefore, Classical.not_imp] at stops
    rw [Expr.atoms_of_endsInName stops.1]
    exact u.atoms_pos

/-- No factor begins with a `!`. -/
lemma DerivesFactor.isNot_of_shown (h : DerivesFactor d (e.shown rest) y u) : e.isNot = false := by
  cases e with
  | unary op e =>
    cases op with
    | not => cases h
    | negate => rfl
  | _ => rfl

end

/-! ## What is read keeps its grouping -/

section

variable {rest y : List Kind} {e : Expr}

/-- The shown expression was read as it is, up to what stands behind it. -/
structure Expr.Kept (e : Expr) (rest y : List Kind) : Prop where
  keeps : e.KeepsGrouping
  left : rest = y
  stops : e.StopsBefore rest

/-- Wherever the shown expression is read as it is, it keeps its grouping, and what is behind it
does not go on with it. -/
structure Expr.Exact (d : Division) (e : Expr) : Prop where
  factor : ∀ {rest y}, DerivesFactor d (e.shown rest) y e → e.Kept rest y
  expr : ∀ {rest y}, DerivesExpr d (e.shown rest) y e → e.Kept rest y ∧ Unjoined d rest

/-- A shown expression that is no `!` does not begin with one. -/
lemma Expr.head_shown (bare : e.isNot = false) (rest : List Kind) :
    (e.shown rest).head? ≠ some (.operator .bang) := by
  cases e with
  | unary op e =>
    cases op with
    | not => cases bare
    | negate => nofun
  | bool b => cases b <;> nofun
  | _ => nofun

/-- For an expression that is no `!`, it is enough to look at how it is read as a factor. -/
lemma Expr.WellFormed.exact_of_factor (formed : e.WellFormed d) (bare : e.isNot = false)
    (h : ∀ {rest y}, DerivesFactor d (e.shown rest) y e → e.Kept rest y) : e.Exact d where
  factor := h
  expr derived := by
    obtain ⟨factor, free⟩ := derived.factor_of_least
      (fun _ _ hu => hu.atoms_le_of_shown formed) (Expr.head_shown bare _)
    have kept := h factor
    exact ⟨kept, kept.left ▸ free⟩

/-- What is told by its first token needs no more than that a factor ends with it. -/
lemma Expr.WellFormed.exact_of_leaf (formed : e.WellFormed d) (bare : e.isNot = false)
    (nameless : e.endsInName = false) (keeps : e.KeepsGrouping) : e.Exact d := by
  refine formed.exact_of_factor bare fun derived => ?_
  have stops (rest) : e.StopsBefore rest := fun name =>
    absurd (nameless.symm.trans name) Bool.false_ne_true
  exact ⟨keeps, derived.rest_of_shown formed (stops _), stops _⟩

/-- Both operands of an operation that is read as it is are read as they are. -/
lemma Expr.Exact.binary {op : BinaryOp} {l r : Expr} (fl : l.WellFormed d) (fr : r.WellFormed d)
    (hl : l.Exact d) (hr : r.Exact d)
    (h : DerivesFactor d ((Expr.binary op l r).shown rest) y (.binary op l r)) :
    (Expr.binary op l r).Kept rest y := by
  cases h with
  | group inner =>
    have behind := l.stopsBefore_operator op.operator (r.shown (.mark .rightParen :: rest))
    obtain ⟨left, right⟩ := inner.operands fun mid u hu =>
      ⟨(hu.rest_of_shown fl behind).symm, hu.atoms_of_shown fl behind⟩
    have operand := left.isNot_of_shown
    obtain ⟨compares, right⟩ | ⟨_, right⟩ := right
    · have kept := (hr.expr right).1
      refine ⟨.binary (hl.factor left).keeps kept.keeps operand ?_, (List.cons.inj kept.left).2,
        nofun⟩
      rw [compares.isComparison]
      exact nofun
    · obtain ⟨right, _⟩ := right.factor_of_least fun _ _ hu => hu.atoms_le_of_shown fr
      have kept := hr.factor right
      exact ⟨.binary (hl.factor left).keeps kept.keeps operand fun _ => right.isNot_of_shown,
        (List.cons.inj kept.left).2, nofun⟩

/-- Arguments that are read as they are stand behind each other. -/
lemma Expr.Exact.arguments {es : List Expr} (exact : ∀ e ∈ es, e.Exact d)
    (h : DerivesArgs d (Expr.shownAll es rest) y es) :
    (∀ e ∈ es, e.KeepsGrouping) ∧ es.IsChain Expr.StandsBehind ∧ rest = y := by
  induction es with
  | nil =>
    cases h
    exact ⟨List.forall_mem_nil _, .nil, rfl⟩
  | cons e es ih =>
    obtain ⟨first, others⟩ := List.forall_mem_cons.1 exact
    cases h with
    | cons he hes =>
      obtain ⟨⟨keeps, rfl, stops⟩, free⟩ := first.expr he
      obtain ⟨all, chain, left⟩ := ih others hes
      refine ⟨List.forall_mem_cons.2 ⟨keeps, all⟩, ?_, left⟩
      cases es with
      | nil => exact .singleton e
      | cons b es => exact .cons_cons ((Expr.standsBehind_iff _).2 ⟨stops, free⟩) chain

/-- What is read as it is keeps its grouping. -/
theorem Expr.WellFormed.exact (h : e.WellFormed d) : e.Exact d := by
  induction h with
  | binary allowed hl hr ihl ihr =>
    exact (WellFormed.binary allowed hl hr).exact_of_factor rfl (Expr.Exact.binary hl hr ihl ihr)
  | @unary op e he ih =>
    cases op with
    | not =>
      refine ⟨nofun, fun derived => ?_⟩
      obtain ⟨_, result, inner⟩ := derived.exists_operand
      cases result
      obtain ⟨kept, free⟩ := ih.expr inner
      exact ⟨⟨.not kept.keeps, kept.left, kept.stops⟩, free⟩
    | negate =>
      refine he.unary.exact_of_factor rfl fun derived => ?_
      cases derived with
      | minus inner =>
        have kept := ih.factor inner
        exact ⟨.negate kept.keeps inner.isNot_of_shown, kept.left, kept.stops⟩
  | number unsigned => exact (WellFormed.number unsigned).exact_of_leaf rfl rfl .number
  | string => exact WellFormed.string.exact_of_leaf rfl rfl .string
  | bool => exact WellFormed.bool.exact_of_leaf rfl rfl .bool
  | none => exact WellFormed.none.exact_of_leaf rfl rfl .none
  | ref name =>
    refine (WellFormed.ref name).exact_of_factor rfl fun derived => ?_
    obtain ⟨_, rfl, ahead⟩ | ⟨_, _, _, result, _⟩ := derived.cases_name name.name
    · exact ⟨.ref, rfl, fun _ => ahead⟩
    · cases result
  | call name hes ih =>
    refine (WellFormed.call name hes).exact_of_factor rfl fun derived => ?_
    obtain ⟨result, _⟩ | ⟨_, _, behind, result, args⟩ := derived.cases_name name.name
    · cases result
    · cases behind
      cases result
      obtain ⟨keeps, chain, left⟩ := Expr.Exact.arguments ih args
      exact ⟨.call keeps chain, (List.cons.inj left).2, nofun⟩

/-- In front of a token that continues nothing, a shown expression is read as it is exactly if it
keeps its grouping. -/
theorem derivesExpr_shown_iff (h : e.WellFormed d) {k : Kind} (hk : Inert k) (ks : List Kind) :
    DerivesExpr d (e.shown (k :: ks)) (k :: ks) e ↔ e.KeepsGrouping := by
  constructor
  · intro derived
    exact (h.exact.expr derived).1.keeps
  · intro keeps
    exact (keeps.reread h).expr _ (hk.stopsBefore e ks) (hk.unjoined ks)

end

end Quill
