import Mathlib.Tactic.Common
import Quill.Proofs.Tree.Numbers

/-!
# The operators in a tree

The operators that stand between the operands of an expression, and the tree in which every division
is made a subtraction. Nothing else of a tree changes: `relabel` goes through it node by node, so
the operators of the new tree are those of the old one, each relabelled (`Expr.operators_relabel`),
and none of them divides.
-/

namespace Quill

/-- The operator, with a division made a subtraction. -/
def BinaryOp.relabel : BinaryOp → BinaryOp
  | .div => .sub
  | op => op

/-- No operator is a division after relabelling. -/
lemma BinaryOp.relabel_ne_div (op : BinaryOp) : op.relabel ≠ .div := by
  cases op <;> nofun

mutual

/-- The operators between operands in an expression, each in front of those of its operands. -/
def Expr.operators : Expr → List BinaryOp
  | .binary op l r => op :: (l.operators ++ r.operators)
  | .unary _ e => e.operators
  | .number _ | .string _ | .bool _ | .none | .ref _ => []
  | .call _ args => Expr.operatorsOfAll args

/-- The operators in a list of expressions. -/
def Expr.operatorsOfAll : List Expr → List BinaryOp
  | [] => []
  | e :: es => e.operators ++ Expr.operatorsOfAll es

end

mutual

/-- The expression with every division made a subtraction. -/
def Expr.relabel : Expr → Expr
  | .binary op l r => .binary op.relabel l.relabel r.relabel
  | .unary op e => .unary op e.relabel
  | .number x => .number x
  | .string s => .string s
  | .bool b => .bool b
  | .none => .none
  | .ref x => .ref x
  | .call f args => .call f (Expr.relabelAll args)

/-- The expressions with every division made a subtraction. -/
def Expr.relabelAll : List Expr → List Expr
  | [] => []
  | e :: es => e.relabel :: Expr.relabelAll es

end

/-- The statement with every division made a subtraction. -/
def Stmt.relabel (s : Stmt) : Stmt :=
  s.mapExprs Expr.relabel

/-- The arms with every division made a subtraction. -/
def Branch.relabelAll (bs : List Branch) : List Branch :=
  Branch.mapExprsOfAll Expr.relabel bs

/-- The block with every division made a subtraction. -/
def Block.relabel (b : Block) : Block :=
  Stmt.mapExprsOfAll Expr.relabel b

/-! ## Lists -/

/-- Lists of expressions are relabelled one after the other. -/
lemma Expr.relabelAll_append (es fs : List Expr) :
    Expr.relabelAll (es ++ fs) = Expr.relabelAll es ++ Expr.relabelAll fs := by
  induction es with
  | nil => rfl
  | cons e es ih => rw [List.cons_append, relabelAll, relabelAll, ih, List.cons_append]

/-- Blocks are relabelled one after the other. -/
lemma Block.relabel_append (b c : Block) : (b ++ c).relabel = b.relabel ++ c.relabel := by
  induction b with
  | nil => rfl
  | cons s b ih => exact congrArg (s.relabel :: ·) ih

/-- Lists of arms are relabelled one after the other. -/
lemma Branch.relabelAll_append (bs cs : List Branch) :
    Branch.relabelAll (bs ++ cs) = Branch.relabelAll bs ++ Branch.relabelAll cs := by
  induction bs with
  | nil => rfl
  | cons b bs ih => exact congrArg (b.mapExprs Expr.relabel :: ·) ih

/-! ## The operators of the new tree -/

mutual

/-- The operators of a relabelled expression are the relabelled operators. -/
theorem Expr.operators_relabel : ∀ e : Expr, e.relabel.operators = e.operators.map .relabel
  | .binary op l r => by
    rw [relabel, operators, operators, operators_relabel l, operators_relabel r, List.map_cons,
      List.map_append]
  | .unary op e => by rw [relabel, operators, operators, operators_relabel e]
  | .number _ | .string _ | .bool _ | .none | .ref _ => rfl
  | .call f args => by rw [relabel, operators, operators, operatorsOfAll_relabelAll args]

/-- So are the operators of some expressions. -/
theorem Expr.operatorsOfAll_relabelAll :
    ∀ es : List Expr, operatorsOfAll (relabelAll es) = (operatorsOfAll es).map .relabel
  | [] => rfl
  | e :: es => by
    rw [relabelAll, operatorsOfAll, operatorsOfAll, operators_relabel e,
      operatorsOfAll_relabelAll es, List.map_append]

end

/-- No operator of the new expression divides. -/
lemma Expr.div_notMem_relabel (e : Expr) : .div ∉ e.relabel.operators := by
  rw [operators_relabel]
  intro hmem
  obtain ⟨op, _, same⟩ := List.mem_map.1 hmem
  exact op.relabel_ne_div same

section

variable {f : Expr → Expr}

mutual

/-- The expressions of a statement with other expressions are those other expressions. -/
theorem Stmt.exprs_mapExprs : ∀ s : Stmt, (s.mapExprs f).exprs = s.exprs.map f
  | .assign _ _ _ => rfl
  | .declare _ _ body => Stmt.exprsOfAll_mapExprsOfAll body
  | .giveBack _ => rfl
  | .conditional branches otherwise => by
    rw [Stmt.mapExprs, Stmt.exprs, Stmt.exprs, Branch.exprsOfAll_mapExprsOfAll branches,
      Stmt.exprsOfOtherwise_mapExprs otherwise, List.map_append]
  | .loop c body => congrArg (f c :: ·) (Stmt.exprsOfAll_mapExprsOfAll body)
  | .print _ => rfl
  | .expression _ => rfl

/-- So are the expressions of a block. -/
theorem Stmt.exprsOfAll_mapExprsOfAll :
    ∀ ss : List Stmt, Stmt.exprsOfAll (Stmt.mapExprsOfAll f ss) = (Stmt.exprsOfAll ss).map f
  | [] => rfl
  | s :: ss => by
    rw [Stmt.mapExprsOfAll, Stmt.exprsOfAll, Stmt.exprsOfAll, Stmt.exprs_mapExprs s,
      Stmt.exprsOfAll_mapExprsOfAll ss, List.map_append]

/-- So are the expressions of a last arm. -/
theorem Stmt.exprsOfOtherwise_mapExprs :
    ∀ o : Option (List Stmt),
      Stmt.exprsOfOtherwise (Stmt.mapExprsOfOtherwise f o) = (Stmt.exprsOfOtherwise o).map f
  | .none => rfl
  | .some body => Stmt.exprsOfAll_mapExprsOfAll body

/-- So are the expressions of an arm. -/
theorem Branch.exprs_mapExprs : ∀ b : Branch, (b.mapExprs f).exprs = b.exprs.map f
  | .arm c body => congrArg (f c :: ·) (Stmt.exprsOfAll_mapExprsOfAll body)

/-- So are the expressions of some arms. -/
theorem Branch.exprsOfAll_mapExprsOfAll :
    ∀ bs : List Branch,
      Branch.exprsOfAll (Branch.mapExprsOfAll f bs) = (Branch.exprsOfAll bs).map f
  | [] => rfl
  | b :: bs => by
    rw [Branch.mapExprsOfAll, Branch.exprsOfAll, Branch.exprsOfAll, Branch.exprs_mapExprs b,
      Branch.exprsOfAll_mapExprsOfAll bs, List.map_append]

end

end

/-- In the new block nothing divides. -/
lemma Block.div_notMem_relabel (b : Block) :
    ∀ e ∈ Stmt.exprsOfAll b.relabel, .div ∉ e.operators := by
  intro e he
  rw [Block.relabel, Stmt.exprsOfAll_mapExprsOfAll] at he
  obtain ⟨e, _, rfl⟩ := List.mem_map.1 he
  exact e.div_notMem_relabel

end Quill
