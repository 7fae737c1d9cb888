import Quill.Error.Basic
import Quill.Text.Lines
import Quill.Text.Paint

/-!
# Reports

An error shown in its text: the message, the place, the line of the text that it is on, and a caret
under the character. A hint follows for some errors.
-/

namespace Quill

/-- A text with blanks in front, at least `width` characters wide. -/
def padLeft (width : Nat) (text : String) : String :=
  "".pushn ' ' (width - text.length) ++ text

/-- A text with blanks behind, at least `width` characters wide. -/
def padRight (width : Nat) (text : String) : String :=
  text.pushn ' ' (width - text.length)

namespace Report

/-- The line that says what is wrong. -/
def headline (colour : Bool) (e : SyntaxError) : String :=
  paint colour .boldRed ("error[" ++ e.code ++ "]") ++ ": " ++ paint colour .bold e.message

/-- The line that says where. -/
def place (colour : Bool) (file : String) (p : Position) : String :=
  paint colour .brightBlue "  -->" ++ " " ++ file ++ ":" ++ p.display

/-- The empty margin beside the text. -/
def margin (colour : Bool) : String :=
  paint colour .brightBlue "    |"

/-- The line of the text, behind its number. -/
def excerpt (colour : Bool) (source : String) (p : Position) : String :=
  paint colour .brightBlue (padLeft 3 (toString p.line) ++ " |") ++ " " ++
    String.ofList (lineAt source.toList p.line)

/-- The caret under the character. -/
def caret (colour : Bool) (p : Position) : String :=
  margin colour ++ " " ++ "".pushn ' ' (p.column - 1) ++ paint colour .boldRed "^"

/-- The line with the hint. -/
def hint (colour : Bool) (text : String) : String :=
  paint colour .brightYellow "help:" ++ " " ++ text

/-- The lines of a report. -/
def lines (colour : Bool) (file source : String) (e : SyntaxError) : List String :=
  [headline colour e, place colour file e.position, margin colour,
    excerpt colour source e.position, caret colour e.position] ++ e.help.toList.map (hint colour)

/-- A report as text. -/
def render (colour : Bool) (file source : String) (e : SyntaxError) : String :=
  String.join ((lines colour file source e).map (· ++ "\n"))

end Report

end Quill
