import Quill.Number.Double

/-!
# Syntax trees

What a text means to the grammar: expressions, statements and blocks. The root of a program is a
block. Equality of trees is decidable, number for number bit for bit.
-/

namespace Quill

/-- The operators between two operands. -/
inductive BinaryOp where
  | eq
  | lt
  | gt
  | le
  | ge
  | ne
  | add
  | sub
  | mul
  | div
  deriving DecidableEq

namespace BinaryOp

/-- The operator as it is written. -/
def symbol : BinaryOp → String
  | eq => "=="
  | lt => "<"
  | gt => ">"
  | le => "<="
  | ge => ">="
  | ne => "!="
  | add => "+"
  | sub => "-"
  | mul => "*"
  | div => "/"

/-- The name the operator goes by in written trees. -/
def name : BinaryOp → String
  | eq => "eq"
  | lt => "lt"
  | gt => "gt"
  | le => "le"
  | ge => "ge"
  | ne => "ne"
  | add => "add"
  | sub => "sub"
  | mul => "mul"
  | div => "div"

/-- Every operator. -/
def all : List BinaryOp :=
  [eq, lt, gt, le, ge, ne, add, sub, mul, div]

/-- The operator with the given name. -/
def ofName? (name : String) : Option BinaryOp :=
  all.find? fun op => op.name == name

/-- Whether the operator compares. -/
def isComparison : BinaryOp → Bool
  | eq | lt | gt | le | ge | ne => true
  | add | sub | mul | div => false

end BinaryOp

/-- The operators in front of one operand. -/
inductive UnaryOp where
  | not
  | negate
  deriving DecidableEq

namespace UnaryOp

/-- The operator as it is written. -/
def symbol : UnaryOp → String
  | not => "!"
  | negate => "-"

/-- The name the operator goes by in written trees. -/
def name : UnaryOp → String
  | not => "neg"
  | negate => "negate"

/-- Every operator. -/
def all : List UnaryOp :=
  [not, negate]

/-- The operator with the given name. -/
def ofName? (name : String) : Option UnaryOp :=
  all.find? fun op => op.name == name

end UnaryOp

/-- An expression. -/
inductive Expr where
  | binary (op : BinaryOp) (left right : Expr)
  | unary (op : UnaryOp) (operand : Expr)
  | number (value : Double)
  | string (value : String)
  | bool (value : Bool)
  | none
  | ref (name : String)
  | call (callee : String) (args : List Expr)

/-- Where an assignment puts its variable. -/
inductive Scope where
  | outermost
  | here
  deriving DecidableEq

mutual

/-- A statement. A block is the list of its statements. -/
inductive Stmt where
  | assign (scope : Scope) (name : String) (value : Expr)
  | declare (name : String) (params : List String) (body : List Stmt)
  | giveBack (value : Expr)
  | conditional (branches : List Branch) (otherwise : Option (List Stmt))
  | loop (condition : Expr) (body : List Stmt)
  | print (value : Expr)
  | expression (expr : Expr)

/-- One arm of a conditional. -/
inductive Branch where
  | arm (condition : Expr) (body : List Stmt)

end

/-- A sequence of statements. -/
abbrev Block := List Stmt

mutual

/-- Whether two expressions are the same. -/
def Expr.same : Expr → Expr → Bool
  | .binary o l r, .binary o' l' r' => o = o' && l.same l' && r.same r'
  | .unary o e, .unary o' e' => o = o' && e.same e'
  | .number x, .number x' => x = x'
  | .string s, .string s' => s = s'
  | .bool b, .bool b' => b = b'
  | .none, .none => true
  | .ref x, .ref x' => x = x'
  | .call f es, .call f' es' => f = f' && Expr.sameAll es es'
  | _, _ => false

/-- Whether two lists of expressions are the same. -/
def Expr.sameAll : List Expr → List Expr → Bool
  | [], [] => true
  | e :: es, e' :: es' => e.same e' && Expr.sameAll es es'
  | _, _ => false

end

mutual

/-- The comparison of expressions finds out whether they are equal. -/
theorem Expr.same_iff : ∀ e e' : Expr, e.same e' = true ↔ e = e'
  | .binary o l r, e' => by
    cases e' <;> simp [Expr.same, Expr.same_iff l, Expr.same_iff r, and_assoc]
  | .unary o e, e' => by cases e' <;> simp [Expr.same, Expr.same_iff e]
  | .number x, e' => by cases e' <;> simp [Expr.same]
  | .string s, e' => by cases e' <;> simp [Expr.same]
  | .bool b, e' => by cases e' <;> simp [Expr.same]
  | .none, e' => by cases e' <;> simp [Expr.same]
  | .ref x, e' => by cases e' <;> simp [Expr.same]
  | .call f es, e' => by cases e' <;> simp [Expr.same, Expr.sameAll_iff es]

/-- The comparison of lists of expressions finds out whether they are equal. -/
theorem Expr.sameAll_iff : ∀ es es' : List Expr, Expr.sameAll es es' = true ↔ es = es'
  | [], es' => by cases es' <;> simp [Expr.sameAll]
  | e :: es, es' => by cases es' <;> simp [Expr.sameAll, Expr.same_iff e, Expr.sameAll_iff es]

end

/-- Equality of expressions is decided by comparing them. -/
instance : DecidableEq Expr := fun e e' => decidable_of_iff _ (Expr.same_iff e e')

mutual

/-- Whether two statements are the same. -/
def Stmt.same : Stmt → Stmt → Bool
  | .assign k x e, .assign k' x' e' => k = k' && x = x' && e = e'
  | .declare f ps b, .declare f' ps' b' => f = f' && ps = ps' && Stmt.sameAll b b'
  | .giveBack e, .giveBack e' => e = e'
  | .conditional bs o, .conditional bs' o' => Branch.sameAll bs bs' && Stmt.sameOtherwise o o'
  | .loop c b, .loop c' b' => c = c' && Stmt.sameAll b b'
  | .print e, .print e' => e = e'
  | .expression e, .expression e' => e = e'
  | _, _ => false

/-- Whether two blocks are the same. -/
def Stmt.sameAll : List Stmt → List Stmt → Bool
  | [], [] => true
  | s :: ss, s' :: ss' => s.same s' && Stmt.sameAll ss ss'
  | _, _ => false

/-- Whether two last arms are the same, or both absent. -/
def Stmt.sameOtherwise : Option (List Stmt) → Option (List Stmt) → Bool
  | .none, .none => true
  | .some b, .some b' => Stmt.sameAll b b'
  | _, _ => false

/-- Whether two arms are the same. -/
def Branch.same : Branch → Branch → Bool
  | .arm c b, .arm c' b' => c = c' && Stmt.sameAll b b'

/-- Whether two lists of arms are the same. -/
def Branch.sameAll : List Branch → List Branch → Bool
  | [], [] => true
  | b :: bs, b' :: bs' => b.same b' && Branch.sameAll bs bs'
  | _, _ => false

end

mutual

/-- The comparison of statements finds out whether they are equal. -/
theorem Stmt.same_iff : ∀ s s' : Stmt, s.same s' = true ↔ s = s'
  | .assign k x e, s' => by cases s' <;> simp [Stmt.same, and_assoc]
  | .declare f ps b, s' => by cases s' <;> simp [Stmt.same, Stmt.sameAll_iff b, and_assoc]
  | .giveBack e, s' => by cases s' <;> simp [Stmt.same]
  | .conditional bs o, s' => by
    cases s' <;> simp [Stmt.same, Branch.sameAll_iff bs, Stmt.sameOtherwise_iff o]
  | .loop c b, s' => by cases s' <;> simp [Stmt.same, Stmt.sameAll_iff b]
  | .print e, s' => by cases s' <;> simp [Stmt.same]
  | .expression e, s' => by cases s' <;> simp [Stmt.same]

/-- The comparison of blocks finds out whether they are equal. -/
theorem Stmt.sameAll_iff : ∀ ss ss' : List Stmt, Stmt.sameAll ss ss' = true ↔ ss = ss'
  | [], ss' => by cases ss' <;> simp [Stmt.sameAll]
  | s :: ss, ss' => by cases ss' <;> simp [Stmt.sameAll, Stmt.same_iff s, Stmt.sameAll_iff ss]

/-- The comparison of last arms finds out whether they are equal. -/
theorem Stmt.sameOtherwise_iff :
    ∀ o o' : Option (List Stmt), Stmt.sameOtherwise o o' = true ↔ o = o'
  | .none, o' => by cases o' <;> simp [Stmt.sameOtherwise]
  | .some b, o' => by cases o' <;> simp [Stmt.sameOtherwise, Stmt.sameAll_iff b]

/-- The comparison of arms finds out whether they are equal. -/
theorem Branch.same_iff : ∀ b b' : Branch, b.same b' = true ↔ b = b'
  | .arm c b, .arm c' b' => by simp [Branch.same, Stmt.sameAll_iff b]

/-- The comparison of lists of arms finds out whether they are equal. -/
theorem Branch.sameAll_iff : ∀ bs bs' : List Branch, Branch.sameAll bs bs' = true ↔ bs = bs'
  | [], bs' => by cases bs' <;> simp [Branch.sameAll]
  | b :: bs, bs' => by
    cases bs' <;> simp [Branch.sameAll, Branch.same_iff b, Branch.sameAll_iff bs]

end

/-- Equality of statements is decided by comparing them. -/
instance : DecidableEq Stmt := fun s s' => decidable_of_iff _ (Stmt.same_iff s s')

/-- Equality of arms is decided by comparing them. -/
instance : DecidableEq Branch := fun b b' => decidable_of_iff _ (Branch.same_iff b b')

end Quill
