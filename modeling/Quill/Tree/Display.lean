import Quill.Number.Layout
import Quill.Text.Quoted
import Quill.Tree.Basic

/-!
# Shown expressions

Expressions as people are shown them: every binary operation in its own parentheses, so the grouping
can be read off, arguments side by side, and strings quoted. `shownExprs` lists a block's
expressions in the order of the text.
-/

namespace Quill

mutual

/-- An expression as text, fully parenthesised. -/
def Expr.spell : Expr → List Char
  | .binary op l r =>
    '(' :: (l.spell ++ ' ' :: (op.symbol.toList ++ ' ' :: (r.spell ++ [')'])))
  | .unary op e => op.symbol.toList ++ e.spell
  | .number x => (Layout.plain.write x).spell
  | .string s => quoteWith '"' s.toList
  | .bool true => "True".toList
  | .bool false => "False".toList
  | .none => "None".toList
  | .ref name => name.toList
  | .call callee args => callee.toList ++ '(' :: (Expr.spellArgs args ++ [')'])

/-- Arguments as text, with one blank between them. -/
def Expr.spellArgs : List Expr → List Char
  | [] => []
  | [e] => e.spell
  | e :: es => e.spell ++ ' ' :: Expr.spellArgs es

end

/-- An expression as people are shown it. -/
def Expr.display (e : Expr) : String :=
  String.ofList e.spell

mutual

/-- The expressions of a statement, in the order of the text. -/
def Stmt.exprs : Stmt → List Expr
  | .assign _ _ e => [e]
  | .declare _ _ body => Stmt.exprsOfAll body
  | .giveBack e => [e]
  | .conditional branches otherwise =>
    Branch.exprsOfAll branches ++ Stmt.exprsOfOtherwise otherwise
  | .loop c body => c :: Stmt.exprsOfAll body
  | .print e => [e]
  | .expression e => [e]

/-- The expressions of a block. -/
def Stmt.exprsOfAll : List Stmt → List Expr
  | [] => []
  | s :: ss => s.exprs ++ Stmt.exprsOfAll ss

/-- The expressions of the last arm of a conditional, if it has one. -/
def Stmt.exprsOfOtherwise : Option (List Stmt) → List Expr
  | .none => []
  | .some body => Stmt.exprsOfAll body

/-- The expressions of an arm. -/
def Branch.exprs : Branch → List Expr
  | .arm c body => c :: Stmt.exprsOfAll body

/-- The expressions of all arms. -/
def Branch.exprsOfAll : List Branch → List Expr
  | [] => []
  | b :: bs => b.exprs ++ Branch.exprsOfAll bs

end

/-- The expressions of a block as people are shown them. -/
def shownExprs (b : Block) : List String :=
  (Stmt.exprsOfAll b).map Expr.display

end Quill
