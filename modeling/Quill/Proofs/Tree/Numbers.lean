import Mathlib.Tactic.Common
import Quill.Tree.Display

/-!
# The numbers in a tree

The numbers that stand in an expression, and a tree in which every expression, or every number, is
replaced. A replacement that changes nothing where it is made leaves the tree as it is.
-/

namespace Quill

mutual

/-- The numbers in an expression, in the order of the text. -/
def Expr.numbers : Expr → List Double
  | .binary _ l r => l.numbers ++ r.numbers
  | .unary _ e => e.numbers
  | .number x => [x]
  | .string _ | .bool _ | .none | .ref _ => []
  | .call _ args => Expr.numbersOfAll args

/-- The numbers in a list of expressions. -/
def Expr.numbersOfAll : List Expr → List Double
  | [] => []
  | e :: es => e.numbers ++ Expr.numbersOfAll es

end

mutual

/-- The expression with other numbers. -/
def Expr.mapNumbers (f : Double → Double) : Expr → Expr
  | .binary op l r => .binary op (l.mapNumbers f) (r.mapNumbers f)
  | .unary op e => .unary op (e.mapNumbers f)
  | .number x => .number (f x)
  | .string s => .string s
  | .bool b => .bool b
  | .none => .none
  | .ref x => .ref x
  | .call g args => .call g (Expr.mapNumbersOfAll f args)

/-- The expressions with other numbers. -/
def Expr.mapNumbersOfAll (f : Double → Double) : List Expr → List Expr
  | [] => []
  | e :: es => e.mapNumbers f :: Expr.mapNumbersOfAll f es

end

mutual

/-- The statement with other expressions. -/
def Stmt.mapExprs (f : Expr → Expr) : Stmt → Stmt
  | .assign scope x e => .assign scope x (f e)
  | .declare g params body => .declare g params (Stmt.mapExprsOfAll f body)
  | .giveBack e => .giveBack (f e)
  | .conditional branches otherwise =>
    .conditional (Branch.mapExprsOfAll f branches) (Stmt.mapExprsOfOtherwise f otherwise)
  | .loop c body => .loop (f c) (Stmt.mapExprsOfAll f body)
  | .print e => .print (f e)
  | .expression e => .expression (f e)

/-- The block with other expressions. -/
def Stmt.mapExprsOfAll (f : Expr → Expr) : List Stmt → List Stmt
  | [] => []
  | s :: ss => s.mapExprs f :: Stmt.mapExprsOfAll f ss

/-- The last arm of a conditional with other expressions. -/
def Stmt.mapExprsOfOtherwise (f : Expr → Expr) : Option (List Stmt) → Option (List Stmt)
  | .none => .none
  | .some body => .some (Stmt.mapExprsOfAll f body)

/-- The arm with other expressions. -/
def Branch.mapExprs (f : Expr → Expr) : Branch → Branch
  | .arm c body => .arm (f c) (Stmt.mapExprsOfAll f body)

/-- The arms with other expressions. -/
def Branch.mapExprsOfAll (f : Expr → Expr) : List Branch → List Branch
  | [] => []
  | b :: bs => b.mapExprs f :: Branch.mapExprsOfAll f bs

end

section

variable {f : Double → Double}

mutual

/-- An expression whose numbers stay as they are stays as it is. -/
theorem Expr.mapNumbers_eq_self :
    ∀ e : Expr, (∀ x ∈ e.numbers, f x = x) → e.mapNumbers f = e
  | .binary op l r, h => by
    rw [Expr.numbers, List.forall_mem_append] at h
    rw [Expr.mapNumbers, Expr.mapNumbers_eq_self l h.1, Expr.mapNumbers_eq_self r h.2]
  | .unary op e, h => by
    rw [Expr.numbers] at h
    rw [Expr.mapNumbers, Expr.mapNumbers_eq_self e h]
  | .number x, h => by
    rw [Expr.numbers, List.forall_mem_singleton] at h
    rw [Expr.mapNumbers, h]
  | .string _, _ => by rw [Expr.mapNumbers]
  | .bool _, _ => by rw [Expr.mapNumbers]
  | .none, _ => by rw [Expr.mapNumbers]
  | .ref _, _ => by rw [Expr.mapNumbers]
  | .call g args, h => by
    rw [Expr.numbers] at h
    rw [Expr.mapNumbers, Expr.mapNumbersOfAll_eq_self args h]

/-- So do some expressions. -/
theorem Expr.mapNumbersOfAll_eq_self :
    ∀ es : List Expr, (∀ x ∈ Expr.numbersOfAll es, f x = x) → Expr.mapNumbersOfAll f es = es
  | [], _ => by rw [Expr.mapNumbersOfAll]
  | e :: es, h => by
    rw [Expr.numbersOfAll, List.forall_mem_append] at h
    rw [Expr.mapNumbersOfAll, Expr.mapNumbers_eq_self e h.1, Expr.mapNumbersOfAll_eq_self es h.2]

end

end

section

variable {f : Expr → Expr}

mutual

/-- A statement whose expressions stay as they are stays as it is. -/
theorem Stmt.mapExprs_eq_self : ∀ s : Stmt, (∀ e ∈ s.exprs, f e = e) → s.mapExprs f = s
  | .assign scope x e, h => by
    rw [Stmt.exprs, List.forall_mem_singleton] at h
    rw [Stmt.mapExprs, h]
  | .declare g params body, h => by
    rw [Stmt.exprs] at h
    rw [Stmt.mapExprs, Stmt.mapExprsOfAll_eq_self body h]
  | .giveBack e, h => by
    rw [Stmt.exprs, List.forall_mem_singleton] at h
    rw [Stmt.mapExprs, h]
  | .conditional branches otherwise, h => by
    rw [Stmt.exprs, List.forall_mem_append] at h
    rw [Stmt.mapExprs, Branch.mapExprsOfAll_eq_self branches h.1,
      Stmt.mapExprsOfOtherwise_eq_self otherwise h.2]
  | .loop c body, h => by
    rw [Stmt.exprs, List.forall_mem_cons] at h
    rw [Stmt.mapExprs, h.1, Stmt.mapExprsOfAll_eq_self body h.2]
  | .print e, h => by
    rw [Stmt.exprs, List.forall_mem_singleton] at h
    rw [Stmt.mapExprs, h]
  | .expression e, h => by
    rw [Stmt.exprs, List.forall_mem_singleton] at h
    rw [Stmt.mapExprs, h]

/-- So does a block. -/
theorem Stmt.mapExprsOfAll_eq_self :
    ∀ ss : List Stmt, (∀ e ∈ Stmt.exprsOfAll ss, f e = e) → Stmt.mapExprsOfAll f ss = ss
  | [], _ => by rw [Stmt.mapExprsOfAll]
  | s :: ss, h => by
    rw [Stmt.exprsOfAll, List.forall_mem_append] at h
    rw [Stmt.mapExprsOfAll, Stmt.mapExprs_eq_self s h.1, Stmt.mapExprsOfAll_eq_self ss h.2]

/-- So does the last arm of a conditional. -/
theorem Stmt.mapExprsOfOtherwise_eq_self :
    ∀ o : Option (List Stmt), (∀ e ∈ Stmt.exprsOfOtherwise o, f e = e) →
      Stmt.mapExprsOfOtherwise f o = o
  | .none, _ => by rw [Stmt.mapExprsOfOtherwise]
  | .some body, h => by
    rw [Stmt.exprsOfOtherwise] at h
    rw [Stmt.mapExprsOfOtherwise, Stmt.mapExprsOfAll_eq_self body h]

/-- So does an arm. -/
theorem Branch.mapExprs_eq_self : ∀ b : Branch, (∀ e ∈ b.exprs, f e = e) → b.mapExprs f = b
  | .arm c body, h => by
    rw [Branch.exprs, List.forall_mem_cons] at h
    rw [Branch.mapExprs, h.1, Stmt.mapExprsOfAll_eq_self body h.2]

/-- So do some arms. -/
theorem Branch.mapExprsOfAll_eq_self :
    ∀ bs : List Branch, (∀ e ∈ Branch.exprsOfAll bs, f e = e) → Branch.mapExprsOfAll f bs = bs
  | [], _ => by rw [Branch.mapExprsOfAll]
  | b :: bs, h => by
    rw [Branch.exprsOfAll, List.forall_mem_append] at h
    rw [Branch.mapExprsOfAll, Branch.mapExprs_eq_self b h.1, Branch.mapExprsOfAll_eq_self bs h.2]

end

end

end Quill
