import Quill.Json.Basic
import Quill.Number.Layout
import Quill.Tree.Basic

/-!
# Written trees

Trees as JSON, for the stages behind the parser. Every statement and expression is an object whose
first key, `kind`, names its form; the other keys follow in a fixed order.
-/

namespace Quill

/-- The forms of an expression, in the order of their places. -/
inductive ExprForm where
  | binary
  | unary
  | number
  | string
  | bool
  | none
  | ref
  | call
  deriving DecidableEq

namespace ExprForm

/-- The name of the form. -/
def name : ExprForm → String
  | binary => "binary"
  | unary => "unary"
  | number => "number_literal"
  | string => "string_literal"
  | bool => "bool_literal"
  | none => "none_literal"
  | ref => "variable_ref"
  | call => "call"

/-- Every form. -/
def all : List ExprForm :=
  [binary, unary, number, string, bool, none, ref, call]

end ExprForm

/-- The forms of a statement, in the order of their places. -/
inductive StmtForm where
  | assignGlobal
  | assignLocal
  | declareFunction
  | giveBack
  | conditional
  | loop
  | print
  | expression
  deriving DecidableEq

namespace StmtForm

/-- The name of the form. -/
def name : StmtForm → String
  | assignGlobal => "assign_global"
  | assignLocal => "assign_local"
  | declareFunction => "declare_function"
  | giveBack => "return"
  | conditional => "conditional"
  | loop => "while"
  | print => "print"
  | expression => "expression"

/-- Every form. -/
def all : List StmtForm :=
  [assignGlobal, assignLocal, declareFunction, giveBack, conditional, loop, print, expression]

/-- The form of an assignment. -/
def ofScope : Scope → StmtForm
  | .outermost => assignGlobal
  | .here => assignLocal

end StmtForm

/-- A double as a JSON number. -/
def Double.toJson (x : Double) : Json :=
  .number (Layout.data.write x)

/-- An object of a form, with its fields behind the name of the form. -/
def node (form : String) (fields : List (String × Json)) : Json :=
  .record (("kind", .text form) :: fields)

mutual

/-- An expression as JSON. -/
def Expr.toJson : Expr → Json
  | .binary op l r =>
    node ExprForm.binary.name [("op", .text op.name), ("left", l.toJson), ("right", r.toJson)]
  | .unary op e => node ExprForm.unary.name [("op", .text op.name), ("operand", e.toJson)]
  | .number x => node ExprForm.number.name [("value", x.toJson)]
  | .string s => node ExprForm.string.name [("value", .text s)]
  | .bool b => node ExprForm.bool.name [("value", .bool b)]
  | .none => node ExprForm.none.name []
  | .ref x => node ExprForm.ref.name [("name", .text x)]
  | .call f args =>
    node ExprForm.call.name [("callee", .text f), ("args", .array (Expr.toJsonAll args))]

/-- Every expression of a list as JSON. -/
def Expr.toJsonAll : List Expr → List Json
  | [] => []
  | e :: es => e.toJson :: Expr.toJsonAll es

end

/-- The object of a block whose statements are written. -/
def blockRecord (statements : List Json) : Json :=
  .record [("statements", .array statements)]

mutual

/-- A statement as JSON. -/
def Stmt.toJson : Stmt → Json
  | .assign scope x e =>
    node (StmtForm.ofScope scope).name [("name", .text x), ("value", e.toJson)]
  | .declare f params body =>
    node StmtForm.declareFunction.name
      [("name", .text f), ("params", .array (params.map .text)),
        ("body", blockRecord (Stmt.toJsonAll body))]
  | .giveBack e => node StmtForm.giveBack.name [("value", e.toJson)]
  | .conditional branches otherwise =>
    node StmtForm.conditional.name
      [("branches", .array (Branch.toJsonAll branches)), ("otherwise", Stmt.toJsonOrNull otherwise)]
  | .loop c body =>
    node StmtForm.loop.name
      [("condition", c.toJson), ("body", blockRecord (Stmt.toJsonAll body))]
  | .print e => node StmtForm.print.name [("value", e.toJson)]
  | .expression e => node StmtForm.expression.name [("expr", e.toJson)]

/-- Every statement of a block as JSON. -/
def Stmt.toJsonAll : List Stmt → List Json
  | [] => []
  | s :: ss => s.toJson :: Stmt.toJsonAll ss

/-- The last arm of a conditional as JSON, null if there is none. -/
def Stmt.toJsonOrNull : Option (List Stmt) → Json
  | .none => .null
  | .some body => blockRecord (Stmt.toJsonAll body)

/-- An arm as JSON. -/
def Branch.toJson : Branch → Json
  | .arm c body =>
    .record [("condition", c.toJson), ("body", blockRecord (Stmt.toJsonAll body))]

/-- Every arm of a conditional as JSON. -/
def Branch.toJsonAll : List Branch → List Json
  | [] => []
  | b :: bs => b.toJson :: Branch.toJsonAll bs

end

/-- A block as JSON. -/
def blockToJson (b : Block) : Json :=
  blockRecord (Stmt.toJsonAll b)

end Quill
