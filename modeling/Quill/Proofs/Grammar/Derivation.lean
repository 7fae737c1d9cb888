import Quill.Settings.Basic
import Quill.Token.Basic
import Quill.Tree.Basic

/-!
# The grammar

The grammar as derivations, apart from the machine that reads it. `DerivesExpr d ks rest e` says
that the kinds `ks` begin with a text of the expression `e` and go on with `rest`; the other
constructs are stated alike. Keeping what follows in the judgment lets a rule look one token ahead,
which is all the grammar needs to be read in one way only:

* a name in front of a parenthesis is a call, so a variable has no parenthesis behind it;
* a term has no `*` or `/` behind it, and a sum no `+` or `-`;
* an expression of one term has no comparison behind it;
* a conditional takes every `elif` and `else` that follows.

Operators between operands are listed as relations, and names are the words that no keyword spells.
-/

namespace Quill

/-- The token of a reserved word. -/
def Keyword.kind (w : Keyword) : Kind := .word w.text

/-- A name is a word that is not reserved. -/
def IsName (x : String) : Prop :=
  ∀ w : Keyword, x ≠ w.text

/-- The operators between a term and the expression behind it. -/
inductive Compares : Operator → BinaryOp → Prop where
  | equalEqual : Compares .equalEqual .eq
  | less : Compares .less .lt
  | greater : Compares .greater .gt
  | lessEqual : Compares .lessEqual .le
  | greaterEqual : Compares .greaterEqual .ge
  | bangEqual : Compares .bangEqual .ne

/-- The operators between two terms. -/
inductive Adds : Operator → BinaryOp → Prop where
  | plus : Adds .plus .add
  | minus : Adds .minus .sub

/-- The operators between two factors. What a slash means depends on the division mode. -/
inductive Multiplies : Division → Operator → BinaryOp → Prop where
  | star {d} : Multiplies d .star .mul
  | slash : Multiplies .distinct .slash .div
  | legacySlash : Multiplies .legacySubtraction .slash .sub

/-- No operator of the given sort comes next. -/
def NoneAhead (joins : Operator → BinaryOp → Prop) (ks : List Kind) : Prop :=
  ∀ o op, joins o op → ks.head? ≠ some (.operator o)

mutual

/-- `expr`: `!` with an expression, a term compared with an expression, or a sum of terms. -/
inductive DerivesExpr (d : Division) : List Kind → List Kind → Expr → Prop where
  | not {ks rest e} :
    DerivesExpr d ks rest e →
    DerivesExpr d (.operator .bang :: ks) rest (.unary .not e)
  | compare {ks o op ks' rest l r} :
    DerivesTerm d ks (.operator o :: ks') l →
    Compares o op →
    DerivesExpr d ks' rest r →
    DerivesExpr d ks rest (.binary op l r)
  | sum {ks mid rest t e} :
    DerivesTerm d ks mid t →
    NoneAhead Compares mid →
    DerivesSum d t mid rest e →
    DerivesExpr d ks rest e

/-- `((+|-) term)*` behind the left operand `l`, left-associative. -/
inductive DerivesSum (d : Division) : Expr → List Kind → List Kind → Expr → Prop where
  | done {l rest} :
    NoneAhead Adds rest →
    DerivesSum d l rest rest l
  | more {l o op ks mid rest r e} :
    Adds o op →
    DerivesTerm d ks mid r →
    DerivesSum d (.binary op l r) mid rest e →
    DerivesSum d l (.operator o :: ks) rest e

/-- `term`: a factor and the factors it is multiplied with. -/
inductive DerivesTerm (d : Division) : List Kind → List Kind → Expr → Prop where
  | product {ks mid rest f e} :
    DerivesFactor d ks mid f →
    DerivesProduct d f mid rest e →
    DerivesTerm d ks rest e

/-- `((*|/) factor)*` behind the left operand `l`, left-associative. -/
inductive DerivesProduct (d : Division) : Expr → List Kind → List Kind → Expr → Prop where
  | done {l rest} :
    NoneAhead (Multiplies d) rest →
    DerivesProduct d l rest rest l
  | more {l o op ks mid rest r e} :
    Multiplies d o op →
    DerivesFactor d ks mid r →
    DerivesProduct d (.binary op l r) mid rest e →
    DerivesProduct d l (.operator o :: ks) rest e

/-- `factor`: a sign with a factor, a literal, a variable, a call, or a group. A plus leaves no
node. -/
inductive DerivesFactor (d : Division) : List Kind → List Kind → Expr → Prop where
  | plus {ks rest e} :
    DerivesFactor d ks rest e →
    DerivesFactor d (.operator .plus :: ks) rest e
  | minus {ks rest e} :
    DerivesFactor d ks rest e →
    DerivesFactor d (.operator .minus :: ks) rest (.unary .negate e)
  | number {x rest} : DerivesFactor d (.number x :: rest) rest (.number x)
  | string {s rest} : DerivesFactor d (.string s :: rest) rest (.string s)
  | kwTrue {rest} : DerivesFactor d (Keyword.kwTrue.kind :: rest) rest (.bool true)
  | kwFalse {rest} : DerivesFactor d (Keyword.kwFalse.kind :: rest) rest (.bool false)
  | kwNone {rest} : DerivesFactor d (Keyword.kwNone.kind :: rest) rest .none
  | ref {x rest} :
    IsName x →
    rest.head? ≠ some (.mark .leftParen) →
    DerivesFactor d (.word x :: rest) rest (.ref x)
  | call {f ks rest es} :
    IsName f →
    DerivesArgs d ks (.mark .rightParen :: rest) es →
    DerivesFactor d (.word f :: .mark .leftParen :: ks) rest (.call f es)
  | group {ks rest e} :
    DerivesExpr d ks (.mark .rightParen :: rest) e →
    DerivesFactor d (.mark .leftParen :: ks) rest e

/-- `expr*`: arguments side by side. -/
inductive DerivesArgs (d : Division) : List Kind → List Kind → List Expr → Prop where
  | nil {rest} : DerivesArgs d rest rest []
  | cons {ks mid rest e es} :
    DerivesExpr d ks mid e →
    DerivesArgs d mid rest es →
    DerivesArgs d ks rest (e :: es)

end

/-- `NAME*`: parameters side by side. -/
inductive DerivesParams : List Kind → List Kind → List String → Prop where
  | nil {rest} : DerivesParams rest rest []
  | cons {x ks rest xs} :
    IsName x →
    DerivesParams ks rest xs →
    DerivesParams (.word x :: ks) rest (x :: xs)

mutual

/-- `stmt`. -/
inductive DerivesStmt (d : Division) : List Kind → List Kind → Stmt → Prop where
  | assignGlobal {x ks rest e} :
    IsName x →
    DerivesExpr d ks rest e →
    DerivesStmt d (Keyword.kwGlobal.kind :: .word x :: ks) rest (.assign .outermost x e)
  | assignLocal {x ks rest e} :
    IsName x →
    DerivesExpr d ks rest e →
    DerivesStmt d (Keyword.kwLocal.kind :: .word x :: ks) rest (.assign .here x e)
  | declare {f ks ks' rest xs b} :
    IsName f →
    DerivesParams ks (.mark .rightParen :: ks') xs →
    DerivesBlock d ks' rest b →
    DerivesStmt d (Keyword.kwFn.kind :: .word f :: .mark .leftParen :: ks) rest (.declare f xs b)
  | giveBack {ks rest e} :
    DerivesExpr d ks rest e →
    DerivesStmt d (Keyword.kwReturn.kind :: ks) rest (.giveBack e)
  | conditional {ks ks₁ ks₂ ks₃ rest c b bs o} :
    DerivesExpr d ks ks₁ c →
    DerivesBlock d ks₁ ks₂ b →
    DerivesElifs d ks₂ ks₃ bs →
    DerivesElse d ks₃ rest o →
    DerivesStmt d (Keyword.kwIf.kind :: ks) rest (.conditional (.arm c b :: bs) o)
  | loop {ks mid rest c b} :
    DerivesExpr d ks mid c →
    DerivesBlock d mid rest b →
    DerivesStmt d (Keyword.kwWhile.kind :: ks) rest (.loop c b)
  | print {ks rest e} :
    DerivesExpr d ks rest e →
    DerivesStmt d (Keyword.kwPrint.kind :: ks) rest (.print e)
  | expression {ks rest e} :
    DerivesExpr d ks rest e →
    DerivesStmt d ks rest (.expression e)

/-- `(elif expr block)*`. -/
inductive DerivesElifs (d : Division) : List Kind → List Kind → List Branch → Prop where
  | nil {rest} :
    rest.head? ≠ some Keyword.kwElif.kind →
    DerivesElifs d rest rest []
  | cons {ks ks₁ ks₂ rest c b bs} :
    DerivesExpr d ks ks₁ c →
    DerivesBlock d ks₁ ks₂ b →
    DerivesElifs d ks₂ rest bs →
    DerivesElifs d (Keyword.kwElif.kind :: ks) rest (.arm c b :: bs)

/-- `(else block)?`. -/
inductive DerivesElse (d : Division) : List Kind → List Kind → Option Block → Prop where
  | none {rest} :
    rest.head? ≠ some Keyword.kwElse.kind →
    DerivesElse d rest rest none
  | some {ks rest b} :
    DerivesBlock d ks rest b →
    DerivesElse d (Keyword.kwElse.kind :: ks) rest (some b)

/-- `(stmt ;)*`. -/
inductive DerivesStmts (d : Division) : List Kind → List Kind → Block → Prop where
  | nil {rest} : DerivesStmts d rest rest []
  | cons {ks mid rest s ss} :
    DerivesStmt d ks (.mark .semicolon :: mid) s →
    DerivesStmts d mid rest ss →
    DerivesStmts d ks rest (s :: ss)

/-- `block`: statements between braces. -/
inductive DerivesBlock (d : Division) : List Kind → List Kind → Block → Prop where
  | braces {ks rest b} :
    DerivesStmts d ks (.mark .rightBrace :: rest) b →
    DerivesBlock d (.mark .leftBrace :: ks) rest b

end

/-- `program`: the kinds are one block, and the end of the input is behind them. -/
def DerivesProgram (d : Division) (ks : List Kind) (b : Block) : Prop :=
  DerivesBlock d (ks ++ [.endOfInput]) [.endOfInput] b

end Quill
