import Quill.Command.Arguments
import Quill.Command.Folder
import Quill.Grammar.Parser
import Quill.Json.Render
import Quill.Report
import Quill.Settings.Read
import Quill.Tree.Written

/-!
# Running a command line

What the program writes and how it exits, from its arguments and the texts of the files it reads.
The settings are resolved before the script is read. A script with a syntax error exits with one, a
file that cannot be read, settings that are refused and a command line that asks for nothing with
two.
-/

namespace Quill

namespace Command

/-- How the program gets at the text of a file. -/
abbrev ReadFile := String → Except ReadFault String

/-- Why a job cannot be done at all. -/
inductive Failure where
  | cannotRead (path : String) (why : ReadFault)
  | badSettings (path : String)
  deriving DecidableEq

/-- What failed, up to the reason. -/
def Failure.subject : Failure → String
  | cannotRead path _ => "cannot read " ++ path ++ ": "
  | badSettings path => "invalid config " ++ path ++ ": "

/-- Why it failed. The words in which the text of a file is refused as settings are those of the
package that reads JSON, so they are given for each path, or left out. -/
def Failure.reason (f : Failure) (explain : String → String := fun _ => "") : String :=
  match f with
  | cannotRead _ why => why.message
  | badSettings path => explain path

/-- The line that tells a failure, up to the reason. -/
def Failure.head (colour : Bool) (f : Failure) : String :=
  paint colour .boldRed "error:" ++ " " ++ f.subject

/-- What comes of a command line. -/
inductive Answer where
  | help
  | version
  | usage
  | failed (colour : Bool) (why : Failure)
  | finished (exit : Nat) (out err : String)
  deriving DecidableEq

/-- The text of a file, or the failure to read it. -/
def readText (read : ReadFile) (path : String) : Except Failure String :=
  (read path).mapError (.cannotRead path)

/-- The settings of a file, or the defaults when there is no file. -/
def fileSettings (read : ReadFile) : Option String → Except Failure Settings
  | none => .ok {}
  | some path =>
    (readText read path).bind fun text =>
      match Settings.ofText? text with
      | some settings => .ok settings
      | none => .error (.badSettings path)

/-- Settings with those that the options give in place of the file's. -/
def Options.apply (options : Options) (settings : Settings) : Settings where
  division := if options.legacyDivision then .legacySubtraction else settings.division
  maxDepth := options.maxDepth.getD settings.maxDepth

/-- The settings that the options ask for. -/
def Options.settings (options : Options) (read : ReadFile) : Except Failure Settings :=
  (fileSettings read options.config).map options.apply

/-- The line that lists a token: its place, its class and its text. -/
def tokenLine (t : Token) : String :=
  padLeft 4 (toString t.position.line) ++ ":" ++ padRight 4 (toString t.position.column) ++ " " ++
    padRight 12 t.kind.className ++ " " ++ t.lexeme ++ "\n"

/-- The lines of the tokens up to the first error, and that error. -/
def listTokens : List Item → String × Option LexError
  | [] => ("", none)
  | .error e :: _ => ("", some e)
  | .ok t :: items =>
    let (lines, e) := listTokens items
    (tokenLine t ++ lines, e)

/-- The answer to a script with a syntax error. -/
def reportError (colour : Bool) (file source out : String) (e : SyntaxError) : Answer :=
  .finished 1 out (Report.render colour file source e)

/-- What a job makes of the text of its script. -/
def Job.perform (job : Job) (colour : Bool) (settings : Settings) (source : String) : Answer :=
  match job.task with
  | .tokens =>
    match listTokens (tokenize source) with
    | (lines, none) => .finished 0 lines ""
    | (lines, some e) => reportError colour job.file source lines (.lex e)
  | .ast =>
    match parseText settings source with
    | .ok b =>
      let style := if job.compact then Json.Style.compact else Json.Style.pretty
      .finished 0 ((blockToJson b).render style ++ "\n") ""
    | .error e => reportError colour job.file source "" e
  | .check =>
    match parseText settings source with
    | .ok b =>
      let ok := paint colour .boldGreen "ok:"
      let count := toString b.length
      .finished 0 (ok ++ " " ++ job.file ++ " (" ++ count ++ " top-level statements)\n") ""
    | .error e => reportError colour job.file source "" e

/-- What comes of a job. -/
def Job.run (job : Job) (read : ReadFile) (colour : Bool) : Answer :=
  let colour := colour && !job.options.noColor
  match job.options.settings read with
  | .error why => .failed colour why
  | .ok settings =>
    match readText read job.file with
    | .error why => .failed colour why
    | .ok source => job.perform colour settings source

/-- What comes of a command line, with colours allowed or not. -/
def run (read : ReadFile) (colour : Bool) (args : List String) : Answer :=
  match Request.ofArguments args with
  | .help => .help
  | .version => .version
  | .usage => .usage
  | .run job => job.run read colour

/-- What the program calls itself. -/
def versionLine : String :=
  "quill 0.1.0\n"

/-- How the program is used. -/
def usageLines : List String :=
  ["Quill: turn scripts into syntax trees", "", "Usage: quill [OPTIONS] <COMMAND>", "", "Commands:",
    "  tokens FILE           Print the token stream of a script",
    "  ast FILE [--compact]  Print the syntax tree of a script as JSON",
    "  check FILE            Check that a script parses",
    "  help                  Print this text", "", "Options:",
    "  --config PATH         JSON file holding a parser configuration",
    "  --legacy-division     Build subtraction nodes for `/`",
    "  --max-depth N         Deepest allowed nesting of blocks and expressions",
    "  --no-color            Disable coloured diagnostics",
    "  -h, --help            Print this text",
    "  -V, --version         Print the version"]

/-- How the program is used, as text. -/
def usageText : String :=
  String.join (usageLines.map (· ++ "\n"))

/-- The number that the program exits with. -/
def Answer.exit : Answer → Nat
  | help => 0
  | version => 0
  | usage => 2
  | failed _ _ => 2
  | finished exit _ _ => exit

/-- What the program writes to its output. -/
def Answer.out : Answer → String
  | help => usageText
  | version => versionLine
  | usage => ""
  | failed _ _ => ""
  | finished _ out _ => out

/-- What the program writes to its error stream, where `explain` tells why the settings of a file
are refused. -/
def Answer.err (a : Answer) (explain : String → String := fun _ => "") : String :=
  match a with
  | help => ""
  | version => ""
  | usage => usageText
  | failed colour why => why.head colour ++ why.reason explain ++ "\n"
  | finished _ _ err => err

end Command

end Quill
