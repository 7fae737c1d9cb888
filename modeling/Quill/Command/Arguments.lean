import Quill.Number.Decimal

/-!
# Command lines

What the arguments of the program ask for. Options may stand before and after the subcommand, each
at most once on either side, and where both sides give one the side behind the subcommand wins. A
value stands behind its option or behind an equals sign. A value that stands alone is checked only
when the next option or the end of its side is reached; so a request for help that comes first, as
behind the subcommand, is granted.
-/

namespace Quill

namespace Command

/-- The options that every subcommand takes. -/
structure Options where
  config : Option String := none
  legacyDivision : Bool := false
  maxDepth : Option Nat := none
  noColor : Bool := false
  deriving DecidableEq

/-- Options on one side, completed by those on the other. -/
def Options.orElse (inner outer : Options) : Options where
  config := inner.config <|> outer.config
  legacyDivision := inner.legacyDivision || outer.legacyDivision
  maxDepth := inner.maxDepth <|> outer.maxDepth
  noColor := inner.noColor || outer.noColor

/-- The subcommands that work on a script. -/
inductive Task where
  | tokens
  | ast
  | check
  deriving DecidableEq

/-- The subcommand with the given name. -/
def Task.ofName? : String → Option Task
  | "tokens" => some tokens
  | "ast" => some ast
  | "check" => some check
  | _ => none

/-- A script to work on, and how. -/
structure Job where
  task : Task
  file : String
  compact : Bool
  options : Options
  deriving DecidableEq

/-- What a command line asks for. -/
inductive Request where
  | run (job : Job)
  | help
  | version
  | usage
  deriving DecidableEq

/-- A natural number of at most 64 bits in decimal digits, with or without a plus. -/
def number64? (text : String) : Option Nat :=
  let digits :=
    match text.toList with
    | '+' :: ds => ds
    | ds => ds
  if digits ≠ [] ∧ digits.all Char.isDigit ∧ digitsValue digits < wordLimit then
    some (digitsValue digits)
  else
    none

/-- What takes a value. -/
inductive Slot where
  | config
  | maxDepth
  | file
  deriving DecidableEq

/-- What one side of a command line has given so far. -/
structure Given where
  options : Options := {}
  compact : Bool := false
  file : Option String := none
  deriving DecidableEq

/-- A value in its slot, unless it is no value for it or the slot is taken. No path is empty. -/
def Given.fill? (g : Given) : Slot → String → Option Given
  | .config, v =>
    if v = "" ∨ g.options.config.isSome then
      none
    else
      some { g with options.config := some v }
  | .maxDepth, v =>
    if g.options.maxDepth.isSome then
      none
    else
      (number64? v).map fun n => { g with options.maxDepth := some n }
  | .file, v => if v = "" ∨ g.file.isSome then none else some { g with file := some v }

/-- What is still open on one side: an option that waits for its value, or a value that has not been
checked. -/
inductive Pending where
  | nothing
  | waiting (slot : Slot)
  | value (slot : Slot) (text : String)
  deriving DecidableEq

/-- What is given once nothing is open. -/
def Given.settle? (g : Given) : Pending → Option Given
  | .nothing => some g
  | .waiting _ => none
  | .value slot text => g.fill? slot text

/-- An argument by its shape: two dashes, a long option with the text behind its equals sign, short
options, or a plain word. -/
inductive Argument where
  | escape
  | long (name : String) (attached : Option String)
  | short (letters : List Char)
  | word (text : String)
  deriving DecidableEq

/-- The shape of an argument. A single dash is a word. -/
def Argument.ofText (text : String) : Argument :=
  match text.toList with
  | ['-', '-'] => .escape
  | '-' :: '-' :: cs =>
    let name := cs.takeWhile (· ≠ '=')
    match cs.dropWhile (· ≠ '=') with
    | [] => .long (String.ofList name) none
    | _ :: attached => .long (String.ofList name) (some (String.ofList attached))
  | '-' :: c :: cs => .short (c :: cs)
  | _ => .word text

/-- What an option does. -/
inductive Effect where
  | given (g : Given)
  | wait (slot : Slot)
  | answer (r : Request)

/-- A flag that was not given before. -/
def flag (before : Bool) (g : Given) : Effect :=
  if before then .answer .usage else .given g

/-- An option with its value behind an equals sign, or the wait for it. -/
def valued (g : Given) (slot : Slot) : Option String → Effect
  | none => .wait slot
  | some v => (g.fill? slot v).elim (.answer .usage) .given

/-- What an option does, before the subcommand or behind it. -/
def optionEffect (task : Option Task) (g : Given) : Argument → Effect
  | .long "config" attached => valued g .config attached
  | .long "max-depth" attached => valued g .maxDepth attached
  | .long "legacy-division" none =>
    flag g.options.legacyDivision { g with options.legacyDivision := true }
  | .long "no-color" none => flag g.options.noColor { g with options.noColor := true }
  | .long "compact" none =>
    if task = some .ast then flag g.compact { g with compact := true } else .answer .usage
  | .long "help" none => .answer .help
  | .short ('h' :: _) => .answer .help
  | .long "version" none => .answer (if task = none then .version else .usage)
  | .short ('V' :: _) => .answer (if task = none then .version else .usage)
  | _ => .answer .usage

/-- The request of a whole side. Before the subcommand there is none. -/
def finish (task : Option Task) (g : Option Given) : Request :=
  match task, g with
  | some task, some ⟨options, compact, some file⟩ => .run ⟨task, file, compact, options⟩
  | _, _ => .usage

/-- The request of a subcommand with the options before it. -/
def complete (outer : Option Given) : Request → Request
  | .run job =>
    match outer with
    | none => .usage
    | some g => .run { job with options := job.options.orElse g.options }
  | r => r

/-- The request of the subcommand that gives help, on one subcommand at most. -/
def helpOn : List String → Request
  | [] => .help
  | [name] => if name = "help" ∨ (Task.ofName? name).isSome then .help else .usage
  | _ => .usage

/-- One more plain word, which can only be the script. -/
def readWord (task : Option Task) (g : Option Given) (w : String) : Option (Given × Pending) :=
  match task, g with
  | some _, some g => if g.file.isSome then none else some (g, .value .file w)
  | _, _ => none

/-- The request behind two dashes, where every argument is a plain word. -/
def readTrailing (task : Option Task) (g : Given) (p : Pending) : List String → Request
  | [] => finish task (g.settle? p)
  | [w] =>
    match readWord task (g.settle? p) w with
    | none => .usage
    | some (g, p) => finish task (g.settle? p)
  | _ => .usage

/-- The request of one side of a command line, from what it has given so far. -/
def readArguments (task : Option Task) (g : Given) (p : Pending) : List String → Request
  | [] => finish task (g.settle? p)
  | arg :: args =>
    match p, Argument.ofText arg with
    | .waiting slot, .word text => readArguments task g (.value slot text) args
    | .waiting _, _ => .usage
    | p, .escape => readTrailing task g p args
    | p, .word w =>
      match task with
      | none =>
        match Task.ofName? w with
        | some sub => complete (g.settle? p) (readArguments (some sub) {} .nothing args)
        | none => if w = "help" then helpOn args else .usage
      | some _ =>
        match readWord task (g.settle? p) w with
        | none => .usage
        | some (g, p) => readArguments task g p args
    | p, option =>
      match g.settle? p with
      | none => .usage
      | some g =>
        match optionEffect task g option with
        | .given g => readArguments task g .nothing args
        | .wait slot => readArguments task g (.waiting slot) args
        | .answer r => r

/-- What a command line asks for.

This stands for the package that reads command lines. Followed is what that documents for options
that are shared by all subcommands: where they may stand, how their values are written, how often
they may be given, and when help is granted. The text of its complaints is left out. -/
def Request.ofArguments (args : List String) : Request :=
  readArguments none {} .nothing args

end Command

end Quill
