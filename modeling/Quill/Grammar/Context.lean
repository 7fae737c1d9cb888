import Quill.Tree.Basic

/-!
# Contexts

What is open around the place a parser has reached: for an expression, the operators and brackets it
stands behind; for a term or a factor, the sum or product it continues; for a statement, the block
it belongs to; for a block, the statement whose body it is. A context holds the finished parts and
leads outward to the construct that was asked for, so it is all that a parser has to remember.

The depth of a context counts the levels that are open around the construct: one for each block, one
for each expression, and one for each sign in front of a factor.
-/

namespace Quill

/-- What a parser is asked for. A program is one block and nothing behind it. -/
inductive Goal where
  | expression
  | statement
  | block
  | program
  deriving DecidableEq

/-- The tree that the goal asks for. -/
abbrev Goal.Result : Goal → Type
  | expression => Expr
  | statement => Stmt
  | block => Block
  | program => Block

mutual

/-- What is open around an expression. -/
inductive ExprContext (g : Goal) where
  | whole (asked : g = .expression)
  | not (outer : ExprContext g)
  | compare (left : Expr) (op : BinaryOp) (outer : ExprContext g)
  | group (outer : FactorContext g)
  | argument (callee : String) (args : List Expr) (outer : FactorContext g)
  | assign (scope : Scope) (name : String) (outer : StmtContext g)
  | giveBack (outer : StmtContext g)
  | print (outer : StmtContext g)
  | expression (outer : StmtContext g)
  | branch (earlier : List Branch) (outer : StmtContext g)
  | loop (outer : StmtContext g)

/-- What is open around a term: the expression that it is the first term of, or a sum. -/
inductive TermContext (g : Goal) where
  | first (outer : ExprContext g)
  | sum (left : Expr) (op : BinaryOp) (outer : ExprContext g)

/-- What is open around a factor: the term that it is the first factor of, a product, or a sign. -/
inductive FactorContext (g : Goal) where
  | first (outer : TermContext g)
  | product (left : Expr) (op : BinaryOp) (outer : TermContext g)
  | signed (negate : Bool) (outer : FactorContext g)

/-- What is open around a statement: the block it belongs to, with the statements before it. -/
inductive StmtContext (g : Goal) where
  | whole (asked : g = .statement)
  | item (earlier : List Stmt) (outer : BlockContext g)

/-- What is open around a block: the statement whose body it is. -/
inductive BlockContext (g : Goal) where
  | whole (asked : g = .block)
  | program (asked : g = .program)
  | function (name : String) (params : List String) (outer : StmtContext g)
  | branch (earlier : List Branch) (condition : Expr) (outer : StmtContext g)
  | otherwise (branches : List Branch) (outer : StmtContext g)
  | loop (condition : Expr) (outer : StmtContext g)

end

variable {g : Goal}

mutual

/-- How many levels are open around an expression. -/
def ExprContext.depth : ExprContext g → Nat
  | .whole _ => 0
  | .not outer => outer.depth + 1
  | .compare _ _ outer => outer.depth + 1
  | .group outer => outer.depth
  | .argument _ _ outer => outer.depth
  | .assign _ _ outer => outer.depth
  | .giveBack outer => outer.depth
  | .print outer => outer.depth
  | .expression outer => outer.depth
  | .branch _ outer => outer.depth
  | .loop outer => outer.depth

/-- How many levels are open around a term. -/
def TermContext.depth : TermContext g → Nat
  | .first outer => outer.depth + 1
  | .sum _ _ outer => outer.depth + 1

/-- How many levels are open around a factor. -/
def FactorContext.depth : FactorContext g → Nat
  | .first outer => outer.depth
  | .product _ _ outer => outer.depth
  | .signed _ outer => outer.depth + 1

/-- How many levels are open around a statement. -/
def StmtContext.depth : StmtContext g → Nat
  | .whole _ => 0
  | .item _ outer => outer.depth + 1

/-- How many levels are open around a block. -/
def BlockContext.depth : BlockContext g → Nat
  | .whole _ => 0
  | .program _ => 0
  | .function _ _ outer => outer.depth
  | .branch _ _ outer => outer.depth
  | .otherwise _ outer => outer.depth
  | .loop _ outer => outer.depth

end

end Quill
