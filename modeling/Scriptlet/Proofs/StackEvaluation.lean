import Scriptlet.Eval.Machine

/-!
# The stack evaluator and the recursive one

* `Interpreter.meaning`: the value of an expression read off its shape, the left operand, the right
  operand, then the operator, with the record passed along.
* `runFrames_visit`: visiting a node does what `meaning` says and leaves its value on top of the
  values, whatever frames and values are below.
* `Machine`: the record, the pending frames and the value stack between two steps, with one step
  of the evaluator as a function (`Machine.step`).  `Machine.run_eq_step` ties it to `runFrames`.
* `Machine.Balanced`: the pending frames find their operands and leave one value in the end.  A
  step keeps it (`Machine.Balanced.next`), so a whole run does.

`evaluate_refines_meaning` puts these together.
-/

namespace Scriptlet

namespace Interpreter

/-- The value of an expression and the record after it. -/
def meaning (it : Interpreter) : Node → Except Defect Token × Interpreter
  | .literal t => (.ok t, it)
  | .unary op x =>
    match it.meaning x with
    | (.error defect, it) => (.error defect, it)
    | (.ok x, it) => it.applyUnary op x
  | .binary x op y =>
    match it.meaning x with
    | (.error defect, it) => (.error defect, it)
    | (.ok x, it) =>
      match it.meaning y with
      | (.error defect, it) => (.error defect, it)
      | (.ok y, it) => it.traceBinary op x y
  | .grouping _ x _ =>
    match it.meaning x with
    | (.error defect, it) => (.error defect, it)
    | (.ok x, it) => (.ok (it.groupValue x), it)
  | n => (.error (.notAnExpression n), it)

/-- Goes on with pending frames after a node that has been evaluated. -/
def resume (result : Except Defect Token × Interpreter) (frames : List Frame)
    (values : List Token) : Except Defect Token × Interpreter :=
  match result with
  | (.ok v, it) => it.runFrames frames (v :: values)
  | (.error defect, it) => (.error defect, it)

theorem runFrames_unary (it : Interpreter) (op x : Token) (frames : List Frame)
    (values : List Token) :
    it.runFrames (.unary op :: frames) (x :: values) =
      resume (it.applyUnary op x) frames values := by
  rw [runFrames]
  rfl

theorem runFrames_binary (it : Interpreter) (op x y : Token) (frames : List Frame)
    (values : List Token) :
    it.runFrames (.binary op :: frames) (y :: x :: values) =
      resume (it.traceBinary op x y) frames values := by
  rw [runFrames]
  rfl

theorem runFrames_grouping (it : Interpreter) (x : Token) (frames : List Frame)
    (values : List Token) :
    it.runFrames (.grouping :: frames) (x :: values) =
      it.runFrames frames (it.groupValue x :: values) := by
  rw [runFrames]

/-- **Visiting a node is evaluating it by recursion**, and then going on with what is pending. -/
theorem runFrames_visit (it : Interpreter) (n : Node) (frames : List Frame)
    (values : List Token) :
    it.runFrames (.visit n :: frames) values = resume (it.meaning n) frames values := by
  -- one case for each way a node is evaluated; an operand that fails leaves the rest undone
  fun_induction meaning it n generalizing frames values with
  | case1 it t => rw [runFrames]; rfl
  | case2 it op x defect it' hx ih => rw [runFrames, ih, hx]; rfl
  | case3 it op x v it' hx ih =>
    rw [runFrames, ih, hx]
    exact runFrames_unary it' op v frames values
  | case4 it x op y defect it' hx ih => rw [runFrames, ih, hx]; rfl
  | case5 it x op y v it' hx defect it'' hy ihx ihy =>
    rw [runFrames, ihx, hx]
    show it'.runFrames _ _ = _
    rw [ihy, hy]
    rfl
  | case6 it x op y v it' hx w it'' hy ihx ihy =>
    rw [runFrames, ihx, hx]
    show it'.runFrames _ _ = _
    rw [ihy, hy]
    exact runFrames_binary it'' op v w frames values
  | case7 it opening x closing defect it' hx ih => rw [runFrames, ih, hx]; rfl
  | case8 it opening x closing v it' hx ih =>
    rw [runFrames, ih, hx]
    exact runFrames_grouping it' v frames values
  | case9 it n hlit hun hbin hgroup =>
    rw [runFrames]
    · rfl
    all_goals assumption

end Interpreter

/-! ## Single steps -/

/-- The evaluator between two steps. -/
structure Machine where
  record : Interpreter
  frames : List Frame
  values : List Token

/-- What a step leads to. -/
inductive Outcome where
  | running (m : Machine)
  | ended (result : Except Defect Token) (record : Interpreter)

/-- Puts the result of an operator on the values, or ends with its defect. -/
def Outcome.ofResult (result : Except Defect Token × Interpreter) (frames : List Frame)
    (values : List Token) : Outcome :=
  match result with
  | (.ok v, it) => .running ⟨it, frames, v :: values⟩
  | (.error defect, it) => .ended (.error defect) it

namespace Machine

/-- The evaluator before its first step. -/
def start (it : Interpreter) (n : Node) : Machine := ⟨it, [.visit n], []⟩

/-- All the remaining steps. -/
def run (m : Machine) : Except Defect Token × Interpreter := m.record.runFrames m.frames m.values

/-- One step: takes the top frame and does what it asks for. -/
def step : Machine → Outcome
  | ⟨it, [], v :: _⟩ => .ended (.ok v) it
  | ⟨it, [], []⟩ => .ended (.error .noValue) it
  | ⟨it, .visit (.literal t) :: frames, values⟩ => .running ⟨it, frames, t :: values⟩
  | ⟨it, .visit (.unary op x) :: frames, values⟩ =>
    .running ⟨it, .visit x :: .unary op :: frames, values⟩
  | ⟨it, .visit (.binary x op y) :: frames, values⟩ =>
    .running ⟨it, .visit x :: .visit y :: .binary op :: frames, values⟩
  | ⟨it, .visit (.grouping _ x _) :: frames, values⟩ =>
    .running ⟨it, .visit x :: .grouping :: frames, values⟩
  | ⟨it, .visit n :: _, _⟩ => .ended (.error (.notAnExpression n)) it
  | ⟨it, .unary op :: frames, x :: values⟩ => .ofResult (it.applyUnary op x) frames values
  | ⟨it, .unary _ :: _, []⟩ => .ended (.error .noValue) it
  | ⟨it, .binary op :: frames, y :: x :: values⟩ => .ofResult (it.traceBinary op x y) frames values
  | ⟨it, .binary _ :: _, [_]⟩ => .ended (.error .noValue) it
  | ⟨it, .binary _ :: _, []⟩ => .ended (.error .noValue) it
  | ⟨it, .grouping :: frames, x :: values⟩ => .running ⟨it, frames, it.groupValue x :: values⟩
  | ⟨it, .grouping :: _, []⟩ => .ended (.error .noValue) it

end Machine

namespace Outcome

/-- The end of the run from an outcome on. -/
def complete : Outcome → Except Defect Token × Interpreter
  | running m => m.run
  | ended result it => (result, it)

theorem complete_ofResult (result : Except Defect Token × Interpreter) (frames : List Frame)
    (values : List Token) :
    (ofResult result frames values).complete = Interpreter.resume result frames values := by
  obtain ⟨result, it⟩ := result
  cases result <;> rfl

end Outcome

namespace Machine

/-- A run is a step and what comes after it. -/
theorem run_eq_step (m : Machine) : m.run = m.step.complete := by
  unfold run
  fun_cases step m with
  | case7 it n frames values hlit hun hbin hgroup =>
    rw [Interpreter.runFrames]
    · rfl
    all_goals assumption
  | case8 it op frames x values =>
    rw [Interpreter.runFrames_unary, Outcome.complete_ofResult]
  | case10 it op frames y x values =>
    rw [Interpreter.runFrames_binary, Outcome.complete_ofResult]
  | case11 it op frames y => simp [Interpreter.runFrames, Outcome.complete]
  | case12 it op frames => simp [Interpreter.runFrames, Outcome.complete]
  | _ => rw [Interpreter.runFrames]; rfl

/-- The machines that a run goes through. -/
inductive Reaches : Machine → Machine → Prop
  | refl (m : Machine) : Reaches m m
  | step {a b c : Machine} : a.step = .running b → Reaches b c → Reaches a c

/-- What a run goes through has the rest of the run before it. -/
theorem Reaches.run_eq {m m' : Machine} (h : m.Reaches m') : m'.run = m.run := by
  induction h with
  | refl => rfl
  | @step a b c hstep _ ih =>
    have hab : a.run = b.run := by
      rw [run_eq_step, hstep]
      rfl
    rw [ih, hab]

/-- The number of steps that the pending frames take. -/
def work (m : Machine) : Nat := (m.frames.map Frame.steps).foldr (· + ·) 0

theorem work_ofResult {result : Except Defect Token × Interpreter} {frames : List Frame}
    {values : List Token} {m : Machine} (hm : Outcome.ofResult result frames values = .running m) :
    m.work = (frames.map Frame.steps).foldr (· + ·) 0 := by
  obtain ⟨result, it⟩ := result
  cases result with
  | error defect => cases hm
  | ok v => cases hm; rfl

theorem work_step_lt {m m' : Machine} (hm : m.step = .running m') : m'.work < m.work := by
  fun_cases step m with
  | case7 it n frames values hlit hun hbin hgroup =>
    rw [step] at hm
    · cases hm
    all_goals assumption
  | case8 it op frames x values => rw [work_ofResult hm]; simp [work, Frame.steps]
  | case10 it op frames y x values => rw [work_ofResult hm]; simp [work, Frame.steps]
  | _ => cases hm <;> simp [work, Frame.steps, Node.steps] <;> omega

/-- **Every run ends**, with the result of the evaluator. -/
theorem exists_reaches_ended (m : Machine) :
    ∃ last, m.Reaches last ∧ last.step = .ended m.run.1 m.run.2 := by
  cases h : m.step with
  | ended result it =>
    refine ⟨m, .refl m, ?_⟩
    rw [run_eq_step, h]
    rfl
  | running m' =>
    obtain ⟨last, hlast, hended⟩ := exists_reaches_ended m'
    refine ⟨last, .step h hlast, ?_⟩
    rw [run_eq_step m, h]
    exact hended
termination_by m.work
decreasing_by exact work_step_lt h

/-! ## The height of the value stack -/

end Machine

/-- The number of values that a frame takes from the stack. -/
def Frame.arity : Frame → Nat
  | visit _ => 0
  | unary _ => 1
  | binary _ => 2
  | grouping => 1

namespace Machine

/-- The frames find their operands on a stack of the given height and leave one value. -/
def BalancedFrom : List Frame → Nat → Prop
  | [], height => height = 1
  | f :: frames, height => f.arity ≤ height ∧ BalancedFrom frames (height - f.arity + 1)

/-- The pending frames find their operands and leave one value. -/
def Balanced (m : Machine) : Prop := BalancedFrom m.frames m.values.length

theorem balanced_start (it : Interpreter) (n : Node) : (start it n).Balanced :=
  ⟨Nat.zero_le _, rfl⟩

theorem balanced_of_ofResult {result : Except Defect Token × Interpreter} {frames : List Frame}
    {values : List Token} {m : Machine} (h : BalancedFrom frames (values.length + 1))
    (hm : Outcome.ofResult result frames values = .running m) : m.Balanced := by
  obtain ⟨result, it⟩ := result
  cases result with
  | error defect => cases hm
  | ok v => cases hm; exact h

/-- **A step keeps the balance.** -/
theorem Balanced.next {m m' : Machine} (h : m.Balanced) (hm : m.step = .running m') :
    m'.Balanced := by
  unfold Balanced at h
  fun_cases step m with
  | case3 it t frames values => cases hm; exact h.2
  | case4 it op x frames values => cases hm; exact ⟨Nat.zero_le _, Nat.le_add_left .., h.2⟩
  | case5 it x op y frames values =>
    cases hm
    exact ⟨Nat.zero_le _, Nat.zero_le _, Nat.le_add_left .., h.2⟩
  | case6 it opening x closing frames values =>
    cases hm
    exact ⟨Nat.zero_le _, Nat.le_add_left .., h.2⟩
  | case8 it op frames x values => exact balanced_of_ofResult h.2 hm
  | case10 it op frames y x values => exact balanced_of_ofResult h.2 hm
  | case13 it frames x values => cases hm; exact h.2
  | case7 it n frames values hlit hun hbin hgroup =>
    rw [Machine.step] at hm
    · cases hm
    all_goals assumption
  | _ => cases hm

theorem Reaches.balanced {m m' : Machine} (h : m.Reaches m') (hm : m.Balanced) : m'.Balanced := by
  induction h with
  | refl => exact hm
  | step hstep _ ih => exact ih (hm.next hstep)

end Machine

/-- **The stack evaluator refines the recursive one**: the same value or defect and the same record.
Each machine on the way has the rest of the evaluation before it, its top frame finds its operands,
and one value is left in the end. -/
theorem evaluate_refines_meaning (it : Interpreter) (n : Node) :
    it.evaluate n = it.meaning n ∧
      (∃ last, (Machine.start it n).Reaches last ∧
        last.step = .ended (it.meaning n).1 (it.meaning n).2) ∧
      ∀ m, (Machine.start it n).Reaches m → m.run = it.evaluate n ∧
        (∀ f frames, m.frames = f :: frames → f.arity ≤ m.values.length) ∧
        (m.frames = [] → m.values.length = 1) := by
  have hrun : (Machine.start it n).run = it.meaning n := by
    show it.runFrames [.visit n] [] = _
    rw [Interpreter.runFrames_visit]
    cases h : it.meaning n with
    | mk result it' => cases result <;> simp [Interpreter.resume, Interpreter.runFrames]
  refine ⟨hrun, ?_, fun m hm => ?_⟩
  · rw [← hrun]
    exact Machine.exists_reaches_ended _
  · have hb := hm.balanced (Machine.balanced_start it n)
    obtain ⟨record, frames, values⟩ := m
    cases frames with
    | nil => exact ⟨hm.run_eq, fun _ _ h => (by cases h), fun _ => hb⟩
    | cons f frames =>
      refine ⟨hm.run_eq, fun g gs hg => ?_, fun h => (by cases h)⟩
      cases hg
      exact hb.1

end Scriptlet
