import Quill.Grammar.Step
import Quill.Token.Scan

/-!
# Parsers

A parser holds the token it looks at and the items it has not pulled yet, one token ahead and never
more. `Parser.parse` runs the grammar's machine for a goal; whatever comes of it, the parser can be
asked again and goes on from where it stopped. A stream that runs dry without a token at its end is
read as if one stood right behind its last token.
-/

namespace Quill

/-- A parser between two runs. -/
structure Parser where
  settings : Settings
  token : Token
  unread : List Item

variable {g : Goal}

/-- Runs the machine from a state, with the token it looks at and the items behind it. The answer
comes with the token and the items that are left. -/
def run (settings : Settings) (s : State g) (t : Token) (items : List Item) :
    Except SyntaxError g.Result × Token × List Item :=
  match h : step settings s t.kind with
  | .done result => (.ok result, t, items)
  | .refuse why => (.error (why.error settings.maxDepth t), t, items)
  | .shift next =>
    match items with
    | .ok u :: rest => run settings next u rest
    | .error e :: rest => (.error (.lex e), t, rest)
    | [] =>
      have : t.kind ≠ .endOfInput := fun hk => step_endOfInput settings s next (hk ▸ h)
      run settings next (.endAt t.endPosition) []
termination_by (items.length, if t.kind = .endOfInput then 0 else 1)
decreasing_by
  · exact Prod.Lex.left _ _ (by simp)
  · exact Prod.Lex.right _ (by simp [Token.endAt, this])

namespace Parser

/-- A parser in front of a stream, unless the first item is an error. -/
def start (settings : Settings) : List Item → Except SyntaxError Parser
  | .ok t :: rest => .ok ⟨settings, t, rest⟩
  | .error e :: _ => .error (.lex e)
  | [] => .ok ⟨settings, .endAt .start, []⟩

/-- Asks a parser for one construct. -/
def parse (p : Parser) (g : Goal) : Except SyntaxError g.Result × Parser :=
  let (answer, t, rest) := run p.settings (State.initial g) p.token p.unread
  (answer, ⟨p.settings, t, rest⟩)

end Parser

/-- The tree of a stream that is one program. -/
def parseItems (settings : Settings) (items : List Item) : Except SyntaxError Block :=
  (Parser.start settings items).bind fun p => (p.parse .program).1

/-- The tree of a text that is one program. -/
def parseText (settings : Settings) (source : String) : Except SyntaxError Block :=
  parseItems settings (tokenize source)

end Quill
