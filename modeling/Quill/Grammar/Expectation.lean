import Quill.Error.Basic
import Quill.Settings.Basic
import Quill.Token.Basic

/-!
# Expectations

What the grammar would have accepted in place of a token it refuses, and which tokens can begin the
larger constructs.
-/

namespace Quill

/-- Something the grammar accepts at a place: a mark, or a construct named by what it is. -/
inductive Expectation where
  | mark (m : Mark)
  | expression
  | statement
  | variableName
  | functionName
  | parameterName
  | endOfInput
  deriving DecidableEq

/-- How messages list an expectation. -/
def Expectation.text : Expectation → String
  | mark m => "`" ++ m.text ++ "`"
  | expression => "expression"
  | statement => "statement"
  | variableName => "variable name"
  | functionName => "function name"
  | parameterName => "parameter name"
  | endOfInput => "end of input"

/-- Why the grammar refuses a token. -/
inductive Refusal where
  | unexpected (expected : List Expectation)
  | tooDeep
  deriving DecidableEq

/-- The error that refusing the token `t` makes. -/
def Refusal.error (limit : Nat) (t : Token) : Refusal → SyntaxError
  | unexpected expected => .parse ⟨t.position, expected.map Expectation.text, t.describe⟩
  | tooDeep => .nestingTooDeep t.position limit

namespace Kind

/-- The reserved word that the token is. -/
def keyword? (k : Kind) : Option Keyword :=
  k.word?.bind Keyword.ofText?

/-- The name that the token is: a word outside the table of reserved words. -/
def name? (k : Kind) : Option String :=
  k.word?.filter (!isReserved ·)

/-- Whether an expression can begin with the token. -/
def startsExpression (k : Kind) : Bool :=
  match k with
  | .number _ | .string _ | .mark .leftParen => true
  | .operator op => op == .plus || op == .minus || op == .bang
  | .word w =>
    match Keyword.ofText? w with
    | none | some .kwTrue | some .kwFalse | some .kwNone => true
    | some _ => false
  | _ => false

/-- Whether a statement can begin with the token. -/
def startsStatement (k : Kind) : Bool :=
  k.startsExpression ||
    match k.keyword? with
    | some .kwGlobal | some .kwLocal | some .kwFn | some .kwReturn | some .kwIf | some .kwWhile
    | some .kwPrint => true
    | _ => false

/-- The comparison that the token stands for. -/
def comparison? : Kind → Option BinaryOp
  | .operator .equalEqual => some .eq
  | .operator .less => some .lt
  | .operator .greater => some .gt
  | .operator .lessEqual => some .le
  | .operator .greaterEqual => some .ge
  | .operator .bangEqual => some .ne
  | _ => none

/-- The operator that the token stands for between two terms. -/
def additive? : Kind → Option BinaryOp
  | .operator .plus => some .add
  | .operator .minus => some .sub
  | _ => none

/-- The operator that the token stands for between two factors. -/
def multiplicative? (division : Division) : Kind → Option BinaryOp
  | .operator .star => some .mul
  | .operator .slash => some division.slash
  | _ => none

end Kind

end Quill
