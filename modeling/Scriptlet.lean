import Scriptlet.Diagnostic
import Scriptlet.Document.Basic
import Scriptlet.Document.Compare
import Scriptlet.Document.Interchange
import Scriptlet.Eval.Interpreter
import Scriptlet.Eval.Machine
import Scriptlet.Eval.Operator
import Scriptlet.Eval.Program
import Scriptlet.Number.Arithmetic
import Scriptlet.Number.Binary64
import Scriptlet.Number.Decimal
import Scriptlet.Number.Numeral
import Scriptlet.Number.Style
import Scriptlet.Proofs.Applications
import Scriptlet.Proofs.Blocks
import Scriptlet.Proofs.Composition
import Scriptlet.Proofs.Concatenation
import Scriptlet.Proofs.Consumption
import Scriptlet.Proofs.Derivation
import Scriptlet.Proofs.Descent
import Scriptlet.Proofs.Embedding
import Scriptlet.Proofs.Equality
import Scriptlet.Proofs.Exchange
import Scriptlet.Proofs.Failures
import Scriptlet.Proofs.FixedNotation
import Scriptlet.Proofs.Groups
import Scriptlet.Proofs.Invisible
import Scriptlet.Proofs.Lexicon
import Scriptlet.Proofs.Lines
import Scriptlet.Proofs.Locality
import Scriptlet.Proofs.Lossless
import Scriptlet.Proofs.Munch
import Scriptlet.Proofs.Numerals
import Scriptlet.Proofs.Offside
import Scriptlet.Proofs.OneLine
import Scriptlet.Proofs.Parallel
import Scriptlet.Proofs.Parentheses
import Scriptlet.Proofs.Positional
import Scriptlet.Proofs.Printing
import Scriptlet.Proofs.Progress
import Scriptlet.Proofs.Quoting
import Scriptlet.Proofs.Record
import Scriptlet.Proofs.Relexing
import Scriptlet.Proofs.Round
import Scriptlet.Proofs.Rounding
import Scriptlet.Proofs.Safety
import Scriptlet.Proofs.Session
import Scriptlet.Proofs.SourceLines
import Scriptlet.Proofs.Spelling
import Scriptlet.Proofs.StackEvaluation
import Scriptlet.Proofs.Stages
import Scriptlet.Proofs.TokenLines
import Scriptlet.Proofs.Tracing
import Scriptlet.Proofs.Typing
import Scriptlet.Proofs.Unlined
import Scriptlet.Proofs.Verdict
import Scriptlet.Proofs.Words
import Scriptlet.Scan.Cursor
import Scriptlet.Scan.Layout
import Scriptlet.Scan.Literal
import Scriptlet.Scan.Source
import Scriptlet.Scan.Symbol
import Scriptlet.Text.Capitalize
import Scriptlet.Text.CaseMap
import Scriptlet.Text.Classes
import Scriptlet.Text.Printable
import Scriptlet.Text.Quoted
import Scriptlet.Token.Basic
import Scriptlet.Token.Coercion
import Scriptlet.Token.Kind
import Scriptlet.Tree.Basic
import Scriptlet.Tree.Grammar
import Scriptlet.Tree.Parser
import Scriptlet.Tree.Rule
