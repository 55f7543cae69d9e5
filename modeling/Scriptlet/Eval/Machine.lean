import Scriptlet.Eval.Interpreter

/-!
# Evaluation with explicit stacks

Expressions are evaluated with a stack of pending steps and a stack of values, so that the depth
of a tree does not matter. Operands are evaluated left to right, then the operator is applied.
-/

namespace Scriptlet

/-- A pending step. -/
inductive Frame where
  | visit (n : Node)
  | unary (operator : Token)
  | binary (operator : Token)
  | grouping

/-- Steps that a node takes. -/
def Node.steps : Node → Nat
  | .unary _ x => x.steps + 2
  | .binary x _ y => x.steps + y.steps + 2
  | .grouping _ x _ => x.steps + 2
  | _ => 1

/-- Steps that a frame takes. -/
def Frame.steps : Frame → Nat
  | visit n => n.steps
  | _ => 1

namespace Interpreter

/-- Works off the pending steps. -/
def runFrames (it : Interpreter) (frames : List Frame) (values : List Token) :
    Except Defect Token × Interpreter :=
  match frames with
  | [] =>
    match values with
    | v :: _ => (.ok v, it)
    | [] => (.error .noValue, it)
  | .visit n :: frames =>
    match n with
    | .literal t => runFrames it frames (t :: values)
    | .unary op x => runFrames it (.visit x :: .unary op :: frames) values
    | .binary x op y => runFrames it (.visit x :: .visit y :: .binary op :: frames) values
    | .grouping _ x _ => runFrames it (.visit x :: .grouping :: frames) values
    | n => (.error (.notAnExpression n), it)
  | .unary op :: frames =>
    match values with
    | x :: values =>
      match it.applyUnary op x with
      | (.ok result, it) => runFrames it frames (result :: values)
      | (.error defect, it) => (.error defect, it)
    | [] => (.error .noValue, it)
  | .binary op :: frames =>
    match values with
    | y :: x :: values =>
      match it.traceBinary op x y with
      | (.ok result, it) => runFrames it frames (result :: values)
      | (.error defect, it) => (.error defect, it)
    | _ => (.error .noValue, it)
  | .grouping :: frames =>
    match values with
    | x :: values => runFrames it frames (it.groupValue x :: values)
    | [] => (.error .noValue, it)
termination_by (frames.map Frame.steps).foldr (· + ·) 0
decreasing_by
  all_goals simp only [List.map_cons, List.foldr_cons, Frame.steps, Node.steps]; omega

/-- Evaluates an expression. -/
def evaluate (it : Interpreter) (n : Node) : Except Defect Token × Interpreter :=
  runFrames it [.visit n] []

/-- Executes a statement. A value that cannot be printed is reported at its own line. -/
def execute (it : Interpreter) (n : Node) : Except Defect Unit × Interpreter :=
  match n with
  | .print e =>
    match it.evaluate e with
    | (.error defect, it) => (.error defect, it)
    | (.ok value, it) =>
      match value.toText with
      | .ok text => (.ok (), it.printLine text.display)
      | .error e =>
        match Refusal.ofCoercion .unprintable e with
        | .failure cause => (.ok (), it.report cause.message value)
        | .misuse m => (.error (.misuse m), it)
  | .expression e =>
    match it.evaluate e with
    | (.error defect, it) => (.error defect, it)
    | (.ok _, it) => (.ok (), it)
  | n => (.error (.notAStatement n), it)

/-- Executes statements in order, up to the first defect. -/
def run (it : Interpreter) : List Node → Except Defect Unit × Interpreter
  | [] => (.ok (), it)
  | n :: ns =>
    match it.execute n with
    | (.ok (), it) => run it ns
    | (.error defect, it) => (.error defect, it)

end Interpreter

end Scriptlet
