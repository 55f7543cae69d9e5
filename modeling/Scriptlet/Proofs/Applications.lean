import Scriptlet.Proofs.Failures

/-!
# Operators in the trace

At level three, the trace shows operators with their operands and results. It shows the binary ones:
a prefix operator is applied without a line.

* `Node.value`: the value of an expression, read off its shape.
* `Node.traceLine?`: the line that an operation leaves in the trace.
* `Interpreter.Logs`: a record comes of another by some lines of the trace. `applyUnary_logs`,
  `traceBinary_logs`: what single operators leave. `evaluate_logs`: what an expression leaves.

`trace_shows_binary_operations` says when that is a line for every operator.
-/

namespace Scriptlet

/-! ## Values -/

/-- What comes of an operator: its value, or `none` where there is no value. -/
def Token.ofOutcome : Except Refusal Token → Token
  | .ok t => t
  | .error _ => .nothing

theorem Foretold.wellFormed {value : Except Refusal Token} {foretold : Except Failure Kind}
    (h : Foretold value foretold) : (Token.ofOutcome value).WellFormed := by
  cases h with
  | value hwell => exact hwell
  | failure cause => rfl

/-- The value of an expression. -/
def Node.value (o : Options) : Node → Token
  | .literal t => t
  | .unary op x => .ofOutcome (unaryValue op (x.value o))
  | .binary x op y => .ofOutcome (o.binaryValue op (x.value o) (y.value o))
  | .grouping _ x _ => if o.nullGroupings then .nothing else x.value o
  | _ => .nothing

/-- The line that an operation leaves in the trace. A prefix operator leaves none. -/
def Node.traceLine? (o : Options) : Node → Option String
  | .binary x op y =>
    some (Interpreter.applicationMessage op (x.value o) (y.value o)
      ((Node.binary x op y).value o))
  | _ => none

namespace Interpreter

/-- The record `it'` comes of `it` by some lines of the trace, whatever it reports. -/
structure Logs (it it' : Interpreter) (lines : List String) : Prop where
  options : it'.options = it.options
  tracing : it'.tracing = it.tracing
  trace : it'.trace = it.trace ++ lines

variable {it it' it'' : Interpreter}

theorem Logs.refl (it : Interpreter) : it.Logs it [] := ⟨rfl, rfl, (List.append_nil _).symm⟩

theorem Logs.trans {lines lines' : List String} (h : it.Logs it' lines)
    (h' : it'.Logs it'' lines') : it.Logs it'' (lines ++ lines') := by
  constructor
  · exact h'.options.trans h.options
  · exact h'.tracing.trans h.tracing
  · rw [h'.trace, h.trace, List.append_assoc]

theorem Logs.traces {lines : List String} (h : it.Logs it' lines) (level : Int) :
    it'.traces level = it.traces level := by
  unfold Interpreter.traces
  rw [h.options, h.tracing]

/-! ## Operators -/

/-- An operator that goes as foretold settles on its outcome and leaves no line. -/
theorem settle_logs (it : Interpreter) (op : Token) {value : Except Refusal Token}
    {foretold : Except Failure Kind} (h : Foretold value foretold) :
    ∃ it', it.settle op value = (.ok (.ofOutcome value), it') ∧ it.Logs it' [] := by
  cases h with
  | value => exact ⟨it, rfl, .refl it⟩
  | failure cause => exact ⟨_, rfl, rfl, rfl, (List.append_nil _).symm⟩

theorem applyUnary_logs (it : Interpreter) (op : Token) {x : Token} (hx : x.WellFormed) :
    ∃ it', it.applyUnary op x = (.ok (.ofOutcome (unaryValue op x)), it') ∧ it.Logs it' [] :=
  it.settle_logs op (foretold_unaryValue op hx)

/-- **A binary operator leaves one line** where operators are traced. -/
theorem traceBinary_logs (htraces : it.traces 3 = true) (op : Token) {x y : Token}
    (hx : x.WellFormed) (hy : y.WellFormed) :
    ∃ it', it.traceBinary op x y = (.ok (.ofOutcome (it.options.binaryValue op x y)), it') ∧
      it.Logs it' [applicationMessage op x y (.ofOutcome (it.options.binaryValue op x y))] := by
  obtain ⟨it₁, hsettle, hlogs⟩ := it.settle_logs op (foretold_binaryValue it.options op hx hy)
  have htraces₁ : it₁.traces 3 = true := (hlogs.traces 3).trans htraces
  unfold traceBinary applyBinary
  rw [hsettle]
  dsimp only
  rw [if_pos htraces₁]
  refine ⟨_, rfl, ?_⟩
  have hdebug : it₁.Logs (it₁.debug 3 (applicationMessage op x y
      (.ofOutcome (it.options.binaryValue op x y))))
      [applicationMessage op x y (.ofOutcome (it.options.binaryValue op x y))] := by
    unfold debug
    rw [if_pos htraces₁]
    exact ⟨rfl, rfl, rfl⟩
  exact hlogs.trans hdebug

/-! ## Expressions -/

/-- **An expression leaves the lines of its operations**, in the order in which they are carried
out, and has its value. -/
theorem evaluate_logs {n : Node} (h : n.WellFormed) (htraces : it.traces 3 = true) :
    ∃ it', it.evaluate n = (.ok (n.value it.options), it') ∧ (n.value it.options).WellFormed ∧
      it.Logs it' (n.expressions.filterMap (Node.traceLine? it.options)) := by
  induction h generalizing it with
  | @literal t ht => exact ⟨it, it.evaluate_literal t, ht, .refl it⟩
  | @unary op x _ ih =>
    obtain ⟨it₁, hx, hwell, hlogs⟩ := ih htraces
    obtain ⟨it₂, happly, hnone⟩ := it₁.applyUnary_logs op hwell
    refine ⟨it₂, (evaluate_unary hx op).trans happly, (foretold_unaryValue op hwell).wellFormed, ?_⟩
    rw [Node.expressions, List.filterMap_append]
    exact hlogs.trans hnone
  | @binary op x y _ _ ihx ihy =>
    obtain ⟨it₁, hx, hleft, hlogs⟩ := ihx htraces
    have htraces₁ := (hlogs.traces 3).trans htraces
    obtain ⟨it₂, hy, hright, hlogs'⟩ := ihy htraces₁
    have htraces₂ := (hlogs'.traces 3).trans htraces₁
    rw [hlogs.options] at hy hright hlogs'
    obtain ⟨it₃, happly, hline⟩ := traceBinary_logs htraces₂ op hleft hright
    rw [hlogs'.options, hlogs.options] at happly hline
    refine ⟨it₃, (evaluate_binary hx hy op).trans happly,
      (foretold_binaryValue it.options op hleft hright).wellFormed, ?_⟩
    rw [Node.expressions, List.filterMap_append, List.filterMap_append]
    exact hlogs.trans (hlogs'.trans hline)
  | @grouping opening closing x _ ih =>
    obtain ⟨it₁, hx, hwell, hlogs⟩ := ih htraces
    have hvalue : it₁.groupValue (x.value it.options) =
        (Node.grouping opening x closing).value it.options := by
      rw [groupValue, hlogs.options, Node.value]
    refine ⟨it₁, ?_, ?_, ?_⟩
    · rw [evaluate_grouping hx opening closing, hvalue]
    · rw [Node.value]
      split
      · rfl
      · exact hwell
    · rw [Node.expressions, List.filterMap_append]
      exact hlogs.trans (.refl it₁)

end Interpreter

/-- What leaves a line is an operation. -/
theorem Node.filterMap_traceLine?_operations (o : Options) (n : Node) :
    n.operations.filterMap (traceLine? o) = n.expressions.filterMap (traceLine? o) := by
  rw [operations, List.filterMap_filter]
  refine congrArg (fun f => n.expressions.filterMap f) (funext fun m => ?_)
  cases m <;> rfl

theorem Node.traceLine?_isSome_iff (o : Options) (n : Node) :
    (n.traceLine? o).isSome = true ↔ ∃ x op y, n = .binary x op y := by
  cases n with
  | binary x op y => exact iff_of_true rfl ⟨x, op, y, rfl⟩
  | _ =>
    refine iff_of_false Bool.false_ne_true ?_
    rintro ⟨x, op, y, h⟩
    cases h

/-- **The trace shows the binary operations of an expression**, one line for each in the order in
which they are carried out, with the operator, the operands and the result. That is a line for every
operation exactly if there is no prefix operator. -/
theorem trace_shows_binary_operations (it : Interpreter) {n : Node} (h : n.WellFormed)
    (hlevel : 3 ≤ it.options.debugLevel) (hopen : it.tracing = true) :
    ∃ it' lines, it.evaluate n = (.ok (n.value it.options), it') ∧
      it'.trace = it.trace ++ lines ∧
      lines = n.operations.filterMap (Node.traceLine? it.options) ∧
      (lines.length = n.operations.length ↔
        ∀ m ∈ n.operations, ∃ x op y, m = .binary x op y) := by
  have htraces : it.traces 3 = true := by
    rw [Interpreter.traces, hopen, decide_eq_true hlevel]
    rfl
  obtain ⟨it', hevaluate, -, hlogs⟩ := Interpreter.evaluate_logs h htraces
  refine ⟨it', _, hevaluate, hlogs.trace, (n.filterMap_traceLine?_operations it.options).symm, ?_⟩
  rw [← Node.filterMap_traceLine?_operations, List.filterMap_length_eq_length]
  constructor
  · intro hlines m hm
    exact (Node.traceLine?_isSome_iff it.options m).mp (hlines m hm)
  · intro hbinary m hm
    exact (Node.traceLine?_isSome_iff it.options m).mpr (hbinary m hm)

/-- `true == false != true`: the left operation comes first. -/
theorem trace_shows_comparisons :
    let isTrue : Node := .literal ⟨.bool, "true", .truth true, 1⟩
    let isFalse : Node := .literal ⟨.bool, "false", .truth false, 1⟩
    let n : Node := .binary (.binary isTrue ⟨.equalEqual, "==", .null, 1⟩ isFalse)
      ⟨.bangEqual, "!=", .null, 1⟩ isTrue
    let it := Interpreter.ofOptions ⟨3, false, false⟩ {}
    n.WellFormed ∧ 3 ≤ it.options.debugLevel ∧ it.tracing = true ∧
      ∃ it', it.evaluate n = (.ok (.ofTruth true), it') ∧
        it'.trace = ["BOOL(True) == BOOL(False) -> BOOL(False)",
          "BOOL(False) != BOOL(True) -> BOOL(True)"] := by
  intro isTrue isFalse n it
  have hn : n.WellFormed := .binary (.binary (.literal rfl) (.literal rfl)) (.literal rfl)
  have hlevel : 3 ≤ it.options.debugLevel := by decide
  refine ⟨hn, hlevel, rfl, ?_⟩
  have hlines : n.operations.filterMap (Node.traceLine? it.options) =
      ["BOOL(True) == BOOL(False) -> BOOL(False)", "BOOL(False) != BOOL(True) -> BOOL(True)"] := by
    decide +kernel
  have hvalue : n.value it.options = .ofTruth true := by decide +kernel
  obtain ⟨it', lines, hevaluate, htrace, rfl, -⟩ := trace_shows_binary_operations it hn hlevel rfl
  rw [hvalue] at hevaluate
  rw [hlines] at htrace
  exact ⟨it', hevaluate, htrace⟩

/-- `!true` is an operation, and at level three the trace shows nothing of it. -/
theorem negation_leaves_no_line :
    let n : Node := .unary ⟨.bang, "!", .null, 1⟩ (.literal ⟨.bool, "true", .truth true, 1⟩)
    let it := Interpreter.ofOptions ⟨3, false, false⟩ {}
    n.WellFormed ∧ n.operations.length = 1 ∧ (it.evaluate n).1.toOption = some (.ofTruth false) ∧
      (it.evaluate n).2.trace = [] := by
  intro n it
  exact ⟨.unary (.literal rfl), by decide +kernel, by decide +kernel, by decide +kernel⟩

end Scriptlet
