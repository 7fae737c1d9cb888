import Quill.Proofs.Nesting.Chain

/-!
# The height of a tree

How many nodes stand on the longest way from the root of a tree down to a leaf: blocks, statements,
arms and expressions. What the nesting limit bounds is that height up to chains. The parser builds a
sum or a product of many operands in one level, each operator above those before it, so a way that
goes down to the left operands of a chain can be as long as the text. Such a step counts for `link`
nodes in `Expr.height link`: with `link` one this is the height, and with `link` zero the height up
to chains.

A level adds three nodes at most to the height up to chains: a block has its statement and an arm
below it, and an expression a sum, a product and a factor (`LevelsBlock.height_le`).
-/

namespace Quill

mutual

/-- The nodes on the longest way down an expression, where the step from an arithmetic operator to
its left operand counts for `link` nodes. -/
def Expr.height (link : Nat) : Expr → Nat
  | .binary op l r =>
    if op.isComparison then max (l.height link) (r.height link) + 1
    else max (l.height link + link) (r.height link + 1)
  | .unary _ e => e.height link + 1
  | .number _ | .string _ | .bool _ | .none | .ref _ => 1
  | .call _ args => Expr.heightOfAll link args + 1

/-- The height of the highest of some expressions. -/
def Expr.heightOfAll (link : Nat) : List Expr → Nat
  | [] => 0
  | e :: es => max (e.height link) (Expr.heightOfAll link es)

end

mutual

/-- The nodes on the longest way down a statement. -/
def Stmt.height (link : Nat) : Stmt → Nat
  | .assign _ _ e => e.height link + 1
  | .declare _ _ body => Block.height link body + 1
  | .giveBack e => e.height link + 1
  | .conditional branches otherwise =>
    max (Branch.heightOfAll link branches) (Stmt.heightOfOtherwise link otherwise) + 1
  | .loop c body => max (c.height link) (Block.height link body) + 1
  | .print e => e.height link + 1
  | .expression e => e.height link + 1

/-- The nodes on the longest way down a block. -/
def Block.height (link : Nat) : Block → Nat
  | [] => 1
  | s :: ss => max (s.height link + 1) (Block.height link ss)

/-- The nodes on the longest way down the last arm of a conditional, if it has one. -/
def Stmt.heightOfOtherwise (link : Nat) : Option (List Stmt) → Nat
  | .none => 0
  | .some body => Block.height link body

/-- The nodes on the longest way down an arm. -/
def Branch.height (link : Nat) : Branch → Nat
  | .arm c body => max (c.height link) (Block.height link body) + 1

/-- The height of the highest of some arms. -/
def Branch.heightOfAll (link : Nat) : List Branch → Nat
  | [] => 0
  | b :: bs => max (b.height link) (Branch.heightOfAll link bs)

end

/-! ## Operators -/

/-- What compares is a comparison. -/
lemma Compares.isComparison {o : Operator} {op : BinaryOp} (h : Compares o op) :
    op.isComparison = true := by
  cases h <;> rfl

/-- What adds is no comparison. -/
lemma Adds.not_isComparison {o : Operator} {op : BinaryOp} (h : Adds o op) :
    op.isComparison = false := by
  cases h <;> rfl

/-- What multiplies is no comparison. -/
lemma Multiplies.not_isComparison {d : Division} {o : Operator} {op : BinaryOp}
    (h : Multiplies d o op) : op.isComparison = false := by
  cases h with
  | star => rfl
  | slash => rfl
  | legacySlash => rfl

/-- A comparison is one higher than the higher of its operands. -/
lemma Expr.height_comparison {op : BinaryOp} (h : op.isComparison = true) (link : Nat)
    (l r : Expr) : (Expr.binary op l r).height link = max (l.height link) (r.height link) + 1 :=
  if_pos h

/-- An arithmetic expression is higher than its left operand by a link, and than its right one by
one. -/
lemma Expr.height_arithmetic {op : BinaryOp} (h : op.isComparison = false) (link : Nat)
    (l r : Expr) :
    (Expr.binary op l r).height link = max (l.height link + link) (r.height link + 1) :=
  if_neg (by simp [h])

/-! ## Levels bound the height up to chains -/

section

variable {d : Division} {m : Nat}

/-- No level of the tokens is beyond the limit. -/
abbrev Within (m : Nat) (ks : List Levelled) : Prop :=
  ∀ x ∈ ks, x.2 ≤ m

/-- If no level is beyond the limit, none is behind the first token. -/
lemma Within.tail {x : Levelled} {ks : List Levelled} (h : Within m (x :: ks)) : Within m ks :=
  (List.forall_mem_cons.1 h).2

/-- What a construct leaves is within the limit as well. -/
lemma Within.after {ks rest : List Levelled} (h : Within m ks) (left : rest <:+ ks) :
    Within m rest :=
  fun x hx => h x (left.mem hx)

/-- A factor's own level is within the limit. -/
lemma LevelsFactor.level_le {n l : Nat} {ks rest : List Levelled} {e : Expr}
    (h : LevelsFactor d n l ks rest e) (within : Within m ks) : l ≤ m := by
  cases h <;> exact (List.forall_mem_cons.1 within).1

/-- A term's own level is within the limit. -/
lemma LevelsTerm.level_le {n l : Nat} {ks rest : List Levelled} {e : Expr}
    (h : LevelsTerm d n l ks rest e) (within : Within m ks) : l ≤ m := by
  cases h with
  | product hf _ => exact hf.level_le within

/-- What is an expression by itself is one high. -/
lemma leaf_le {n : Nat} {e : Expr} (h : n ≤ m) (leaf : e.height 0 = 1) :
    e.height 0 + 3 * n ≤ 3 * m + 1 := by
  omega

mutual

/-- An expression at level `n` is at most three times as high as there are levels left. -/
theorem LevelsExpr.height_le {n : Nat} {ks rest : List Levelled} {e : Expr} :
    LevelsExpr d n ks rest e → Within m ks → e.height 0 + 3 * n ≤ 3 * m
  | .not he, within => by
    have operand := he.height_le within.tail
    rw [Expr.height]
    omega
  | .compare ht ho he, within => by
    have left := ht.height_le (ht.level_le within) within
    have right := he.height_le (within.after ht.suffix).tail
    rw [Expr.height_comparison ho.isComparison]
    omega
  | .sum ht _ he, within => by
    have first := ht.height_le (ht.level_le within) within
    have whole := he.height_le (ht.level_le within) (by omega) (within.after ht.suffix)
    omega

/-- More terms add three at most to that, in all. -/
theorem LevelsSum.height_le {n : Nat} {ks rest : List Levelled} {l e : Expr} :
    LevelsSum d n l ks rest e → n ≤ m → l.height 0 + 3 * n ≤ 3 * m + 3 → Within m ks →
      e.height 0 + 3 * n ≤ 3 * m + 3
  | .done _, _, left, _ => left
  | .more ho ht he, hn, left, within => by
    have right := ht.height_le hn within.tail
    refine he.height_le hn ?_ (within.tail.after ht.suffix)
    rw [Expr.height_arithmetic ho.not_isComparison]
    omega

/-- A term adds two at most to that. -/
theorem LevelsTerm.height_le {n l : Nat} {ks rest : List Levelled} {e : Expr} :
    LevelsTerm d n l ks rest e → n ≤ m → Within m ks → e.height 0 + 3 * n ≤ 3 * m + 2
  | .product hf ht, hn, within => by
    have first := hf.height_le hn within
    exact ht.height_le hn (by omega) (within.after hf.suffix)

/-- More factors add two at most to that, in all. -/
theorem LevelsProduct.height_le {n : Nat} {ks rest : List Levelled} {l e : Expr} :
    LevelsProduct d n l ks rest e → n ≤ m → l.height 0 + 3 * n ≤ 3 * m + 2 → Within m ks →
      e.height 0 + 3 * n ≤ 3 * m + 2
  | .done _, _, left, _ => left
  | .more ho hf ht, hn, left, within => by
    have right := hf.height_le hn within.tail
    refine ht.height_le hn ?_ (within.tail.after hf.suffix)
    rw [Expr.height_arithmetic ho.not_isComparison]
    omega

/-- A factor adds one at most to that. -/
theorem LevelsFactor.height_le {n l : Nat} {ks rest : List Levelled} {e : Expr} :
    LevelsFactor d n l ks rest e → n ≤ m → Within m ks → e.height 0 + 3 * n ≤ 3 * m + 1
  | .plus hf, _, within => by
    have operand := hf.height_le (hf.level_le within.tail) within.tail
    omega
  | .minus hf, _, within => by
    have operand := hf.height_le (hf.level_le within.tail) within.tail
    rw [Expr.height]
    omega
  | .number, hn, _ => leaf_le hn (by rw [Expr.height])
  | .string, hn, _ => leaf_le hn (by rw [Expr.height])
  | .kwTrue, hn, _ => leaf_le hn (by rw [Expr.height])
  | .kwFalse, hn, _ => leaf_le hn (by rw [Expr.height])
  | .kwNone, hn, _ => leaf_le hn (by rw [Expr.height])
  | .ref _ _, hn, _ => leaf_le hn (by rw [Expr.height])
  | .call _ hes, hn, within => by
    have arguments := hes.height_le hn within.tail.tail
    rw [Expr.height]
    omega
  | .group he, _, within => by
    have inner := he.height_le within.tail
    omega

/-- Arguments are no higher than expressions. -/
theorem LevelsArgs.height_le {n : Nat} {ks rest : List Levelled} {es : List Expr} :
    LevelsArgs d n ks rest es → n ≤ m → Within m ks → Expr.heightOfAll 0 es + 3 * n ≤ 3 * m
  | .nil, _, _ => by
    rw [Expr.heightOfAll]
    omega
  | .cons he hes, hn, within => by
    have first := he.height_le within
    have others := hes.height_le hn (within.after he.suffix)
    rw [Expr.heightOfAll]
    omega

end

mutual

/-- A statement adds two at most to that. -/
theorem LevelsStmt.height_le {n : Nat} {ks rest : List Levelled} {s : Stmt} :
    LevelsStmt d n ks rest s → Within m ks → s.height 0 + 3 * n ≤ 3 * m + 2
  | .assignGlobal _ he, within => by
    have value := he.height_le within.tail.tail
    rw [Stmt.height]
    omega
  | .assignLocal _ he, within => by
    have value := he.height_le within.tail.tail
    rw [Stmt.height]
    omega
  | .declare _ hxs hb, within => by
    have body := hb.height_le (within.tail.tail.tail.after hxs.suffix).tail
    rw [Stmt.height]
    omega
  | .giveBack he, within => by
    have value := he.height_le within.tail
    rw [Stmt.height]
    omega
  | .conditional hc hb hbs ho, within => by
    have behind := within.tail.after hc.suffix
    have condition := hc.height_le within.tail
    have body := hb.height_le behind
    have others := hbs.height_le (by omega) (behind.after hb.suffix)
    have last := ho.height_le (by omega) ((behind.after hb.suffix).after hbs.suffix)
    rw [Stmt.height, Branch.heightOfAll, Branch.height]
    omega
  | .loop hc hb, within => by
    have condition := hc.height_le within.tail
    have body := hb.height_le (within.tail.after hc.suffix)
    rw [Stmt.height]
    omega
  | .print he, within => by
    have value := he.height_le within.tail
    rw [Stmt.height]
    omega
  | .expression he, within => by
    have value := he.height_le within
    rw [Stmt.height]
    omega

/-- The arms of a conditional add one at most to that. -/
theorem LevelsElifs.height_le {n : Nat} {ks rest : List Levelled} {bs : List Branch} :
    LevelsElifs d n ks rest bs → n ≤ m → Within m ks →
      Branch.heightOfAll 0 bs + 3 * n ≤ 3 * m + 1
  | .nil _, _, _ => by
    rw [Branch.heightOfAll]
    omega
  | .cons hc hb hbs, hn, within => by
    have behind := within.tail.after hc.suffix
    have condition := hc.height_le within.tail
    have body := hb.height_le behind
    have others := hbs.height_le hn (behind.after hb.suffix)
    rw [Branch.heightOfAll, Branch.height]
    omega

/-- The last arm of a conditional is no higher than a block. -/
theorem LevelsElse.height_le {n : Nat} {ks rest : List Levelled} {o : Option Block} :
    LevelsElse d n ks rest o → n ≤ m → Within m ks →
      Stmt.heightOfOtherwise 0 o + 3 * n ≤ 3 * m
  | .none _, _, _ => by
    rw [Stmt.heightOfOtherwise]
    omega
  | .some hb, _, within => by
    have body := hb.height_le within.tail
    rwa [Stmt.heightOfOtherwise]

/-- The statements of a block add three at most to that. -/
theorem LevelsStmts.height_le {n : Nat} {ks rest : List Levelled} {ss : Block} :
    LevelsStmts d n ks rest ss → n ≤ m → Within m ks → Block.height 0 ss + 3 * n ≤ 3 * m + 3
  | .nil, _, _ => by
    rw [Block.height]
    omega
  | .cons hs hss, hn, within => by
    have first := hs.height_le within
    have others := hss.height_le hn (within.after hs.suffix).tail
    rw [Block.height]
    omega

/-- A block at level `n` is at most three times as high as there are levels left. -/
theorem LevelsBlock.height_le {n : Nat} {ks rest : List Levelled} {b : Block} :
    LevelsBlock d n ks rest b → Within m ks → b.height 0 + 3 * n ≤ 3 * m
  | .braces hss, within => by
    have level : n + 1 ≤ m := (List.forall_mem_cons.1 within).1
    have inner := hss.height_le level within.tail
    omega

end

/-- The tree of a program is at most three times as high, up to chains, as its levels are deep. -/
lemma LevelsProgram.height_le {ks : List Kind} {levels : List Nat} {b : Block}
    (h : LevelsProgram d ks levels b) (hm : deepest levels ≤ m) : b.height 0 ≤ 3 * m := by
  refine h.2.height_le (n := 0) fun x hx => ?_
  obtain hx | hx := List.mem_append.1 hx
  · refine deepest_le_iff.1 hm x.2 ?_
    rw [← h.snd_zip]
    exact List.mem_map_of_mem hx
  · obtain rfl := List.mem_singleton.1 hx
    exact Nat.zero_le m

/-- The tree of an accepted stream is at most three times as high, up to chains, as the limit. -/
theorem height_le_of_parse {items : List Item} {b : Block}
    (parsed : parseItems ⟨d, m⟩ items = .ok b) : b.height 0 ≤ 3 * m := by
  obtain ⟨ts, last, after, stream, hl, derived⟩ := exists_program_of_parse parsed
  obtain ⟨levels, h⟩ := derived.exists_levels
  refine h.height_le (Nat.le_of_not_lt fun deep => ?_)
  obtain ⟨t, _, refused⟩ := h.parse_eq_error stream deep
  rw [parsed] at refused
  cases refused

end

/-! ## Chains are as high as they are long -/

/-- A chain is higher than its operators by their links. -/
lemma height_chain (link n : Nat) : n * link < (chain n).height link := by
  induction n with
  | zero =>
    rw [Nat.zero_mul, chain, Expr.height]
    exact Nat.one_pos
  | succ n ih =>
    rw [chain, Expr.height_arithmetic rfl, Nat.succ_mul]
    omega

/-- What the limit bounds is the height up to chains: there is a factor of the limit that no
accepted tree exceeds. The height itself is not bounded by a limit of two or more: a chain that is
long enough exceeds every number. -/
theorem height_within_limit :
    (∀ settings source b, parseText settings source = .ok b →
      b.height 0 ≤ 8 * (settings.maxDepth + 1)) ∧
    ∀ (d : Division) (n : Nat), ∃ source, ∀ limit, 2 ≤ limit →
      ∃ b, parseText ⟨d, limit⟩ source = .ok b ∧ n < b.height 1 := by
  constructor
  · intro settings source b parsed
    have within := height_le_of_parse parsed
    omega
  · intro d n
    obtain ⟨source, parsed⟩ := exists_chain_source d n
    refine ⟨source, fun limit room => ⟨_, parsed limit room, ?_⟩⟩
    have long := height_chain 1 n
    rw [Block.height, Stmt.height]
    omega

/-- No bound that depends on the limit alone holds of the height itself. -/
theorem height_not_within_limit :
    ¬ ∀ settings source b, parseText settings source = .ok b →
      b.height 1 ≤ 8 * (settings.maxDepth + 1) := by
  intro bounded
  obtain ⟨source, parsed⟩ := exists_chain_source .distinct 24
  have low := bounded _ source _ (parsed 2 (Nat.le_refl 2))
  have long := height_chain 1 24
  rw [Block.height, Stmt.height] at low
  dsimp only at low
  omega

end Quill
