import Quill.Json.Parse
import Quill.Json.Record
import Quill.Tree.Written

/-!
# Reading written trees

From JSON back to a tree. Keys may stand in any order and others beside them, a record may also be
an array of its fields, and only the last arm of a conditional may be left out. No name is checked
and no list needs an item: a tree that no text parses to can be read too.

Text that nests arrays and objects more than `maxNesting` deep is refused, which also bounds the
recursion of the readers: `room` is how much deeper a node may go. What stands under unknown keys of
the root is passed over unread.
-/

namespace Quill

/-- How deep arrays and objects may stand inside each other. -/
def maxNesting : Nat := 127

/-- Reads an expression. -/
def readExpr? : Nat → Json → Option Expr
  | 0, _ => none
  | room + 1, v => do
    let (tag, body) ← v.tagged?
    match ← Json.namedOrPlaced? ExprForm.all ExprForm.name tag with
    | .binary =>
      match ← body.fields? ["op", "left", "right"] with
      | [some op, some l, some r] =>
        let op ← Json.caseNamed? true BinaryOp.ofName? op
        let l ← readExpr? room l
        let r ← readExpr? room r
        some (.binary op l r)
      | _ => none
    | .unary =>
      match ← body.fields? ["op", "operand"] with
      | [some op, some e] =>
        let op ← Json.caseNamed? true UnaryOp.ofName? op
        let e ← readExpr? room e
        some (.unary op e)
      | _ => none
    | .number =>
      match ← body.fields? ["value"] with
      | [some x] => x.asDouble?.map .number
      | _ => none
    | .string =>
      match ← body.fields? ["value"] with
      | [some s] => s.asText?.map .string
      | _ => none
    | .bool =>
      match ← body.fields? ["value"] with
      | [some b] => b.asBool?.map .bool
      | _ => none
    | .none => (body.fields? []).map fun _ => .none
    | .ref =>
      match ← body.fields? ["name"] with
      | [some x] => x.asText?.map .ref
      | _ => none
    | .call =>
      match ← body.fields? ["callee", "args"] with
      | [some f, some args] =>
        let f ← f.asText?
        let args ← args.asItems?
        let args ← args.mapM (readExpr? room)
        some (.call f args)
      | _ => none

/-- The form that a statement's tag names. Below the root its place will do as well. -/
def readStmtForm? (atRoot : Bool) (tag : Json) : Option StmtForm :=
  if atRoot then
    Json.named? (fun s => StmtForm.all.find? fun form => form.name == s) tag
  else
    Json.namedOrPlaced? StmtForm.all StmtForm.name tag

mutual

/-- Reads a statement. -/
def readStmt? (atRoot : Bool) : Nat → Json → Option Stmt
  | 0, _ => none
  | room + 1, v => do
    let (tag, body) ← v.tagged?
    match ← readStmtForm? atRoot tag with
    | .assignGlobal =>
      match ← body.fields? ["name", "value"] with
      | [some x, some e] =>
        let x ← x.asText?
        let e ← readExpr? room e
        some (.assign .outermost x e)
      | _ => none
    | .assignLocal =>
      match ← body.fields? ["name", "value"] with
      | [some x, some e] =>
        let x ← x.asText?
        let e ← readExpr? room e
        some (.assign .here x e)
      | _ => none
    | .declareFunction =>
      match ← body.fields? ["name", "params", "body"] with
      | [some f, some params, some block] =>
        let f ← f.asText?
        let params ← params.asItems?
        let params ← params.mapM Json.asText?
        let block ← readBlock? room block
        some (.declare f params block)
      | _ => none
    | .giveBack =>
      match ← body.fields? ["value"] with
      | [some e] => (readExpr? room e).map .giveBack
      | _ => none
    | .conditional =>
      match ← body.fields? ["branches", "otherwise"] with
      | [some branches, otherwise] =>
        let branches ← branches.asItems?
        let branches ← branches.mapM (readBranch? room)
        let otherwise ← readOtherwise? room otherwise
        some (.conditional branches otherwise)
      | _ => none
    | .loop =>
      match ← body.fields? ["condition", "body"] with
      | [some c, some block] =>
        let c ← readExpr? room c
        let block ← readBlock? room block
        some (.loop c block)
      | _ => none
    | .print =>
      match ← body.fields? ["value"] with
      | [some e] => (readExpr? room e).map .print
      | _ => none
    | .expression =>
      match ← body.fields? ["expr"] with
      | [some e] => (readExpr? room e).map .expression
      | _ => none

/-- Reads a block below the root. -/
def readBlock? : Nat → Json → Option Block
  | 0, _ => none
  | room + 1, v => do
    match ← v.fields? ["statements"] with
    | [some statements] =>
      let items ← statements.asItems?
      items.mapM (readStmt? false room)
    | _ => none

/-- Reads the last arm of a conditional, which may be absent or null. -/
def readOtherwise? : Nat → Option Json → Option (Option Block)
  | 0, _ => none
  | room + 1, v =>
    match v with
    | none | some .null => some none
    | some block => (readBlock? room block).map some

/-- Reads an arm of a conditional. -/
def readBranch? : Nat → Json → Option Branch
  | 0, _ => none
  | room + 1, v => do
    match ← v.fields? ["condition", "body"] with
    | [some c, some block] =>
      let c ← readExpr? room c
      let block ← readBlock? room block
      some (.arm c block)
    | _ => none

end

/-- The value that holds the root's statements. -/
def rootStatements? : Json → Option Json
  | .object members =>
    if members.all (·.1.isSome) then (Json.fieldAt? members "statements").join else none
  | .array [statements] => some statements
  | _ => none

/-- Reads the root block. -/
def readProgram? (v : Json) : Option Block := do
  let statements ← rootStatements? v
  if statements.readable ∧ statements.nesting < maxNesting then
    let items ← statements.asItems?
    items.mapM (readStmt? true maxNesting)
  else
    none

/-- The block that a JSON text writes. -/
def blockOfText? (text : String) : Option Block :=
  (Json.parse? text).bind readProgram?

end Quill
