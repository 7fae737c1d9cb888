import Quill.Error.Written
import Quill.Main
import Quill.Proofs.Command.Configuration
import Quill.Proofs.Command.Flags
import Quill.Proofs.Command.Outcome
import Quill.Proofs.Command.Settings
import Quill.Proofs.Grammar.Alternatives
import Quill.Proofs.Grammar.Closing
import Quill.Proofs.Grammar.Completion
import Quill.Proofs.Grammar.Consumed
import Quill.Proofs.Grammar.Ending
import Quill.Proofs.Grammar.Exactness
import Quill.Proofs.Grammar.Expected
import Quill.Proofs.Grammar.Levels
import Quill.Proofs.Grammar.Modes
import Quill.Proofs.Grammar.Operands
import Quill.Proofs.Grammar.Simulation
import Quill.Proofs.Grammar.Tables
import Quill.Proofs.Grammar.ViablePrefix
import Quill.Proofs.Grammar.Walk
import Quill.Proofs.Json.Numbers
import Quill.Proofs.Json.Parsing
import Quill.Proofs.Json.Records
import Quill.Proofs.Json.Rendering
import Quill.Proofs.Json.Rewriting
import Quill.Proofs.Json.Spelling
import Quill.Proofs.Lexical.Characters
import Quill.Proofs.Lexical.Comments
import Quill.Proofs.Lexical.CutShort
import Quill.Proofs.Lexical.Escapes
import Quill.Proofs.Lexical.Exactness
import Quill.Proofs.Lexical.NumberLiterals
import Quill.Proofs.Lexical.Places
import Quill.Proofs.Lexical.Resuming
import Quill.Proofs.Lexical.Spacing
import Quill.Proofs.Lexical.Spellable
import Quill.Proofs.Lexical.Tiling
import Quill.Proofs.Nesting.Chain
import Quill.Proofs.Nesting.Gate
import Quill.Proofs.Nesting.Height
import Quill.Proofs.Nesting.Levelled
import Quill.Proofs.Nesting.Limit
import Quill.Proofs.Nesting.Reading
import Quill.Proofs.Number.Literal
import Quill.Proofs.Number.Magnitude
import Quill.Proofs.Number.Nearest
import Quill.Proofs.Number.Reread
import Quill.Proofs.Number.Rounding
import Quill.Proofs.Number.Shortest
import Quill.Proofs.Number.Shown
import Quill.Proofs.Number.Written
import Quill.Proofs.Report.Caret
import Quill.Proofs.Report.Lines
import Quill.Proofs.Report.Shape
import Quill.Proofs.Stream.ErrorPlace
import Quill.Proofs.Stream.FirstError
import Quill.Proofs.Stream.Kinds
import Quill.Proofs.Stream.MissingEnd
import Quill.Proofs.Stream.Progress
import Quill.Proofs.Stream.Reading
import Quill.Proofs.Stream.Session
import Quill.Proofs.Stream.Stopping
import Quill.Proofs.Stream.Unwinding
import Quill.Proofs.Stream.WrittenTokens
import Quill.Proofs.Tree.Answers
import Quill.Proofs.Tree.Display
import Quill.Proofs.Tree.Exactness
import Quill.Proofs.Tree.Grouping
import Quill.Proofs.Tree.HandedNumbers
import Quill.Proofs.Tree.Handoff
import Quill.Proofs.Tree.Numbers
import Quill.Proofs.Tree.Operators
import Quill.Proofs.Tree.ReadBack
import Quill.Proofs.Tree.Reparsing
import Quill.Proofs.Tree.ShownText
import Quill.Proofs.Tree.Spellings
import Quill.Proofs.Tree.Unparse
import Quill.Token.Written
import Quill.Tree.Display
import Quill.Tree.Read
