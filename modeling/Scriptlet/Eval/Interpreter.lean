import Scriptlet.Diagnostic
import Scriptlet.Eval.Operator
import Scriptlet.Tree.Basic

/-!
# The interpreter's record

An interpreter holds its settings and the record of what it has done: what was printed, reported
and traced. A failed operator is reported and has the value `none`.
-/

namespace Scriptlet

/-- What ends an evaluation without a value. None of this happens in a program that was parsed
from source. -/
inductive Defect where
  /-- A node that is no expression stands where one is evaluated. -/
  | notAnExpression (n : Node)
  /-- A node that is no statement stands where one is executed. -/
  | notAStatement (n : Node)
  /-- A payload that is not of the type its kind demands was used as if it were. -/
  | misuse (m : Misuse)
  /-- An operator found no operand on the stack. -/
  | noValue

/-- What a defect raises. -/
def Defect.raised? : Defect → Option Raised
  | notAnExpression n =>
    some ⟨"NotImplementedError", "evaluate: unexpected node type <class '" ++ n.typeName ++ "'>"⟩
  | notAStatement n =>
    some ⟨"NotImplementedError", "execute: unexpected node type <class '" ++ n.typeName ++ "'>"⟩
  | misuse m => m.raised?
  | noValue => some ⟨"IndexError", "pop from empty list"⟩

/-- Settings and the record of what has been done. -/
structure Interpreter where
  options : Options
  /-- The trace is open. -/
  tracing : Bool
  /-- What was printed. -/
  output : String := ""
  /-- The reports of all stages. -/
  reports : Diagnostics := {}
  /-- Messages of the trace, earliest first. -/
  trace : List String := []

namespace Interpreter

/-- A new interpreter, after reports made earlier. The trace is open at a positive level. -/
def ofOptions (o : Options) (reports : Diagnostics) : Interpreter :=
  { options := o, tracing := decide (0 < o.debugLevel), reports := reports }

/-- Whether messages of a level are traced: the level is asked for and the trace is open. -/
def traces (it : Interpreter) (level : Int) : Bool :=
  decide (level ≤ it.options.debugLevel) && it.tracing

/-- Traces a message if its level is traced. -/
def debug (it : Interpreter) (level : Int) (message : String) : Interpreter :=
  if it.traces level then { it with trace := it.trace ++ [message] } else it

/-- Closes the trace. -/
def close (it : Interpreter) : Interpreter := { it with tracing := false }

/-- Makes a report at the line of a token, if it has one. -/
def report (it : Interpreter) (message : String) (origin : Token) : Interpreter :=
  let line := if origin.line = 0 then none else some origin.line
  { it with reports := it.reports.report ⟨Diagnostic.evaluation, message, line⟩ }

/-- Prints a line. -/
def printLine (it : Interpreter) (text : String) : Interpreter :=
  { it with output := it.output ++ text ++ "\n" }

/-- The value of an operator, where a failure is reported at the operator and gives `none`. -/
def settle (it : Interpreter) (op : Token) (value : Except Refusal Token) :
    Except Defect Token × Interpreter :=
  match value with
  | .ok t => (.ok t, it)
  | .error (.failure cause) => (.ok .nothing, it.report cause.message op)
  | .error (.misuse m) => (.error (.misuse m), it)

/-- Applies a prefix operator. -/
def applyUnary (it : Interpreter) (op x : Token) : Except Defect Token × Interpreter :=
  it.settle op (unaryValue op x)

/-- Applies a binary operator. -/
def applyBinary (it : Interpreter) (op x y : Token) : Except Defect Token × Interpreter :=
  it.settle op (it.options.binaryValue op x y)

/-- The message that traces a binary operator. -/
def applicationMessage (op x y result : Token) : String :=
  x.inspect ++ " " ++ op.symbol ++ " " ++ y.inspect ++ " -> " ++ result.inspect

/-- Applies a binary operator and traces it at level three. -/
def traceBinary (it : Interpreter) (op x y : Token) : Except Defect Token × Interpreter :=
  match it.applyBinary op x y with
  | (.ok result, it) =>
    (.ok result,
      if it.traces 3 then it.debug 3 (applicationMessage op x y result) else it)
  | (.error defect, it) => (.error defect, it)

/-- The value of a group around a value. -/
def groupValue (it : Interpreter) (x : Token) : Token :=
  if it.options.nullGroupings then .nothing else x

end Interpreter

end Scriptlet
