import Quill.Grammar.Parser

/-!
# Recursive descent with a counter

The grammar once more, as functions that call one another: one for each construct, and one for each
loop. They share a parser that counts the levels that are open. Whatever opens a level does so
through `nested`, which counts up in front of it and down behind it, whether it is found or not
(`Descent.nested`). Every other function leaves the counter alone and hands an error on as soon as
it meets one, with the parser as it is then.

A function calls those above it by their names. Where it calls itself, or one further down, it goes
through `Calls`, and these calls may go only so many rounds deep (`Descent.calls`). A call of a
parser gets as many as the stream can take (`CountingParser.rounds`). That they never run out, that
more of them make no difference, that the answer is the machine's, and that the counter comes back
to where it was is proved in `Proofs/Descent` and `Proofs/Stream/Unwinding`.
-/

namespace Quill

/-- A parser with a counter of the levels that are open. The values that the counter takes are
noted, the last one first. No decision depends on the notes. -/
structure CountingParser extends Parser where
  depth : Nat
  noted : List Nat

/-- The parser with its counter at `depth`. -/
def CountingParser.setDepth (p : CountingParser) (depth : Nat) : CountingParser :=
  { p with depth, noted := depth :: p.noted }

/-- A part of a call: it changes the parser and finds a construct or fails, unless it runs out of
rounds. A failure keeps what has become of the parser. -/
abbrev Descent (α : Type) :=
  ExceptT SyntaxError (StateT CountingParser Option) α

namespace Descent

variable {α : Type}

/-- The kind of the token that the parser looks at. -/
def look : Descent Kind := do
  return (← get).token.kind

/-- Fails at the token that the parser looks at. -/
def refuse (why : Refusal) : Descent α := do
  let p ← get
  throw (why.error p.settings.maxDepth p.token)

/-- Passes over a token and looks at the next one. The end of the input stays in front. An error is
pulled in place of the next token and leaves the parser at the token where it was. A stream that is
dry gives an end right behind the token. -/
def advance : Descent Token := do
  let p ← get
  if p.token.kind = .endOfInput then
    return p.token
  else
    match p.unread with
    | .ok next :: rest =>
      set { p with token := next, unread := rest }
      return p.token
    | .error e :: rest =>
      set { p with unread := rest }
      throw (.lex e)
    | [] =>
      set { p with token := .endAt p.token.endPosition }
      return p.token

/-- Looks for something one level deeper, unless the counter has reached the limit. The counter goes
down again behind it in any case, also when it fails. -/
@[reducible]
def nested (body : Descent α) : Descent α := (do
  let p ← get
  if p.settings.maxDepth ≤ p.depth then
    return .error (.nestingTooDeep p.token.position p.settings.maxDepth)
  else
    modify fun p => p.setDepth (p.depth + 1)
    let answer ← ExceptT.run body
    modify fun p => p.setDepth (p.depth - 1)
    return answer : StateT CountingParser Option (Except SyntaxError α))

/-- Passes over the mark, which has to be there. -/
def consumeMark (m : Mark) : Descent Token := do
  if (← look) = .mark m then
    advance
  else
    refuse (.unexpected [.mark m])

/-- Passes over a name, which has to be there. A reserved word is no name. -/
def consumeName (what : Expectation) : Descent String := do
  match (← look).name? with
  | some name =>
    let _ ← advance
    return name
  | none => refuse (.unexpected [what])

/-- Passes over the token if it is wanted. -/
def takeIf (wanted : Kind → Bool) : Descent Bool := do
  if wanted (← look) then
    let _ ← advance
    return true
  else
    return false

/-- Passes over the operator if it is there. -/
def matchOperator (op : Operator) : Descent Bool :=
  takeIf (· = .operator op)

/-- Passes over the reserved word if it is there. -/
def matchKeyword (kw : Keyword) : Descent Bool :=
  takeIf (·.keyword? = some kw)

/-- What is called where a function calls itself, or one further down. -/
structure Calls where
  parameters : List String → Descent (List String)
  expression : Descent Expr
  arguments : List Expr → Descent (List Expr)
  factor : Descent Expr
  multiplicative : Expr → Descent Expr
  additive : Expr → Descent Expr
  block : Descent Block
  moreBranches : List Branch → Descent Stmt
  statements : List Stmt → Descent Block

section

variable (self : Calls)

/-- Parameters up to the closing parenthesis, behind those that were found. -/
def parameters (params : List String) : Descent (List String) := do
  if (← look) = .mark .rightParen then
    let _ ← advance
    return params
  else if (← look).name?.isSome then
    let param ← consumeName .parameterName
    self.parameters (params ++ [param])
  else
    refuse (.unexpected [.parameterName, .mark .rightParen])

/-! ## Expressions -/

/-- Arguments up to the closing parenthesis, behind those that were found. -/
def arguments (args : List Expr) : Descent (List Expr) := do
  if (← look) = .mark .rightParen then
    let _ ← advance
    return args
  else if (← look).startsExpression then
    let arg ← self.expression
    self.arguments (args ++ [arg])
  else
    refuse (.unexpected [.mark .rightParen, .expression])

/-- The call of a function, at the parenthesis behind its name. -/
def callOf (callee : String) : Descent Expr := do
  let _ ← advance
  let args ← arguments self []
  return .call callee args

/-- A literal, a name, a call, or an expression in parentheses. -/
def primary : Descent Expr := do
  match ← look with
  | .number x =>
    let _ ← advance
    return .number x
  | .string s =>
    let _ ← advance
    return .string s
  | .word w =>
    match Keyword.ofText? w with
    | some .kwTrue =>
      let _ ← advance
      return .bool true
    | some .kwFalse =>
      let _ ← advance
      return .bool false
    | some .kwNone =>
      let _ ← advance
      return .none
    | some _ => refuse (.unexpected [.expression])
    | none =>
      let _ ← advance
      if (← look) = .mark .leftParen then
        callOf self w
      else
        return .ref w
  | .mark .leftParen =>
    let _ ← advance
    let inner ← self.expression
    let _ ← consumeMark .rightParen
    return inner
  | _ => refuse (.unexpected [.expression])

/-- A factor with the signs in front of it. Each sign is one level. -/
def factor : Descent Expr := do
  if ← matchOperator .plus then
    nested self.factor
  else if ← matchOperator .minus then
    let operand ← nested self.factor
    return .unary .negate operand
  else
    primary self

/-- The other factors of a product. -/
def multiplicative (left : Expr) : Descent Expr := do
  match (← look).multiplicative? (← get).settings.division with
  | some op =>
    let _ ← advance
    let right ← factor self
    self.multiplicative (.binary op left right)
  | none => return left

/-- The factors of a product. -/
def term : Descent Expr := do
  let left ← factor self
  multiplicative self left

/-- The other terms of a sum. -/
def additive (left : Expr) : Descent Expr := do
  match (← look).additive? with
  | some op =>
    let _ ← advance
    let right ← term self
    self.additive (.binary op left right)
  | none => return left

/-- `!` with the whole expression behind it, or a term that is compared, or the first term of a
sum. -/
def comparison : Descent Expr := do
  if ← matchOperator .bang then
    let operand ← self.expression
    return .unary .not operand
  else
    let left ← term self
    match (← look).comparison? with
    | some op =>
      let _ ← advance
      let right ← self.expression
      return .binary op left right
    | none => additive self left

/-- An expression is one level of its own. -/
def expression : Descent Expr :=
  nested (comparison self)

/-! ## Statements -/

/-- A branch of a conditional. -/
def branch : Descent Branch := do
  let condition ← expression self
  let body ← self.block
  return .arm condition body

/-- The other branches of a conditional, behind those that were found. -/
def moreBranches (branches : List Branch) : Descent Stmt := do
  if ← matchKeyword .kwElif then
    let next ← branch self
    self.moreBranches (branches ++ [next])
  else if ← matchKeyword .kwElse then
    let body ← self.block
    return .conditional branches (some body)
  else
    return .conditional branches none

/-- A conditional. -/
def conditional : Descent Stmt := do
  let _ ← advance
  let first ← branch self
  moreBranches self [first]

/-- The declaration of a function. -/
def functionDeclaration : Descent Stmt := do
  let _ ← advance
  let name ← consumeName .functionName
  let _ ← consumeMark .leftParen
  let params ← parameters self []
  let body ← self.block
  return .declare name params body

/-- A statement. A reserved word selects its form, and anything else begins an expression. -/
def statement : Descent Stmt := do
  match (← look).keyword? with
  | some .kwGlobal =>
    let _ ← advance
    let name ← consumeName .variableName
    let value ← expression self
    return .assign .outermost name value
  | some .kwLocal =>
    let _ ← advance
    let name ← consumeName .variableName
    let value ← expression self
    return .assign .here name value
  | some .kwFn => functionDeclaration self
  | some .kwReturn =>
    let _ ← advance
    let value ← expression self
    return .giveBack value
  | some .kwIf => conditional self
  | some .kwWhile =>
    let _ ← advance
    let condition ← expression self
    let body ← self.block
    return .loop condition body
  | some .kwPrint =>
    let _ ← advance
    let value ← expression self
    return .print value
  | _ =>
    let e ← expression self
    return .expression e

/-- Statements up to the closing brace, behind those that were found. -/
def statements (earlier : List Stmt) : Descent Block := do
  if (← look) = .mark .rightBrace then
    let _ ← advance
    return earlier
  else if (← look).startsStatement then
    let s ← statement self
    let _ ← consumeMark .semicolon
    self.statements (earlier ++ [s])
  else
    refuse (.unexpected [.mark .rightBrace, .statement])

/-- A block is one level of its own. -/
def block : Descent Block :=
  nested do
    let _ ← consumeMark .leftBrace
    statements self []

/-- A program is one block and nothing behind it. -/
def program : Descent Block := do
  let body ← block self
  if (← look) = .endOfInput then
    return body
  else
    refuse (.unexpected [.endOfInput])

/-- What looks for the goal. -/
def seek : (g : Goal) → Descent g.Result
  | .expression => expression self
  | .statement => statement self
  | .block => block self
  | .program => program self

end

/-! ## Rounds -/

/-- Runs out of rounds: there is no answer. -/
def runOut : Descent α := (fun _ => none : StateT CountingParser Option (Except SyntaxError α))

/-- The functions themselves, with what they call in turn. -/
def Calls.round (self : Calls) : Calls where
  parameters := Descent.parameters self
  expression := Descent.expression self
  arguments := Descent.arguments self
  factor := Descent.factor self
  multiplicative := Descent.multiplicative self
  additive := Descent.additive self
  block := Descent.block self
  moreBranches := Descent.moreBranches self
  statements := Descent.statements self

/-- Calls that may go `n` rounds deep. -/
def calls : (n : Nat) → Calls
  | 0 =>
    { parameters := fun _ => runOut
      expression := runOut
      arguments := fun _ => runOut
      factor := runOut
      multiplicative := fun _ => runOut
      additive := fun _ => runOut
      block := runOut
      moreBranches := fun _ => runOut
      statements := fun _ => runOut }
  | n + 1 => (calls n).round

/-- What comes of a part of a call, and the parser that it leaves. -/
def outcome (f : Descent α) (p : CountingParser) :
    Option (Except SyntaxError α × CountingParser) :=
  (ExceptT.run f).run p

end Descent

namespace CountingParser

/-- A parser in front of a stream, with nothing open, unless the first item is an error. -/
def start (settings : Settings) (items : List Item) : Except SyntaxError CountingParser :=
  (Parser.start settings items).map fun p => ⟨p, 0, []⟩

/-- The rounds that a call gets: ten for each token that may be in front of the end, and some to
begin with. -/
def rounds (p : CountingParser) : Nat :=
  10 * (p.unread.length + 1) + 4

/-- Asks a parser for one construct. There would be no answer if the rounds ran out. -/
def call (p : CountingParser) (g : Goal) :
    Option (Except SyntaxError g.Result × CountingParser) :=
  (Descent.seek (Descent.calls p.rounds) g).outcome p

end CountingParser

end Quill
