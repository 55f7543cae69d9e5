import Scriptlet.Document.Interchange
import Scriptlet.Eval.Machine
import Scriptlet.Scan.Source
import Scriptlet.Tree.Parser

/-!
# Running a program

A source is scanned, parsed and executed. A stage that reports anything ends the run before the
next one. The trace shows how many tokens and statements there are, and from level two on the
tokens and the trees themselves.
-/

namespace Scriptlet

namespace Interpreter

/-- Takes over the reports of a stage. -/
def withReports (it : Interpreter) (reports : Diagnostics) : Interpreter :=
  { it with reports := reports }

/-- Traces the tokens of a program. -/
def traceTokens (it : Interpreter) (ts : List Token) : Interpreter :=
  let it := it.debug 1 ("tokenize: " ++ toString ts.length ++ " tokens")
  if it.traces 2 then it.debug 2 (" ".intercalate (ts.map Token.inspect)) else it

/-- Traces the statements of a program. -/
def traceStatements (it : Interpreter) (ns : List Node) : Interpreter :=
  let it := it.debug 1 ("parse: " ++ toString ns.length ++ " statements")
  if it.traces 2 then ns.foldl (fun it n => it.debug 2 n.raw.toDocument.json) it else it

/-- Parses tokens and executes the statements, if parsing reports nothing. -/
def runTokens (it : Interpreter) (ts : List Token) : Except Defect Bool × Interpreter :=
  let (statements, parser) := (Parser.ofTokens ts it.reports).parse
  let it := (it.withReports parser.reports).traceStatements statements
  if parser.failed then (.ok false, it)
  else
    match it.run statements with
    | (.ok (), it) => (.ok true, it)
    | (.error defect, it) => (.error defect, it)

/-- Scans, parses and executes a source. The result tells whether it was executed; a source
without tokens counts as executed. -/
def runSource (it : Interpreter) (source : String) : Except Defect Bool × Interpreter :=
  let scanner := (Scanner.ofSource source it.reports).tokenize
  let it := (it.withReports scanner.reports).traceTokens scanner.tokens
  if scanner.failed then (.ok false, it)
  else if scanner.tokens.isEmpty then (.ok true, it)
  else it.runTokens scanner.tokens

end Interpreter

/-- Runs a program, after reports made earlier. The trace is closed at the end. -/
def runProgram (source : String) (o : Options) (earlier : Diagnostics) :
    Except Defect Bool × Interpreter :=
  let (result, it) := (Interpreter.ofOptions o earlier).runSource source
  (result, it.close)

end Scriptlet
