import Mathlib.Data.List.Forall2
import Scriptlet.Proofs.Verdict

/-!
# Failures of a program

What a program reports is the list of the operators that fail in it, and that list does not depend
on the payloads of its literals.

* `Node.expressions`, `Node.operations`: the parts of a tree in the order in which they get their
  values.
* `Node.failures_verdict`: the failures of a tree are those of its operators, one after the other.
* `evaluate_operation`: an operator has the value `none` exactly if it makes a report.
* `Node.Alike`: trees that differ in the payloads and texts of their literals only.
  `Node.Alike.verdict_eq`: nothing else is foretold of them.
-/

namespace Scriptlet

namespace Node

/-- The expressions within a node, itself included, in the order in which they get their values:
operands from left to right, then the operator. -/
def expressions : Node → List Node
  | literal t => [literal t]
  | unary op x => x.expressions ++ [unary op x]
  | binary x op y => x.expressions ++ (y.expressions ++ [binary x op y])
  | grouping opening x closing => x.expressions ++ [grouping opening x closing]
  | print x => x.expressions
  | expression x => x.expressions
  | _ => []

/-- The operator of a prefix or binary operation. -/
def operator? : Node → Option Token
  | unary op _ => some op
  | binary _ op _ => some op
  | _ => none

/-- The operations within a node, in the order in which they are carried out. -/
def operations (n : Node) : List Node := n.expressions.filter (·.operator?.isSome)

theorem WellFormed.of_mem_expressions {n m : Node} (h : n.WellFormed) (hm : m ∈ n.expressions) :
    m.WellFormed := by
  induction h with
  | literal ht =>
    rw [List.mem_singleton.mp hm]
    exact .literal ht
  | unary hx ih =>
    rcases List.mem_append.mp hm with hm | hm
    · exact ih hm
    · rw [List.mem_singleton.mp hm]
      exact .unary hx
  | binary hx hy ihx ihy =>
    rcases List.mem_append.mp hm with hm | hm
    · exact ihx hm
    · rcases List.mem_append.mp hm with hm | hm
      · exact ihy hm
      · rw [List.mem_singleton.mp hm]
        exact .binary hx hy
  | grouping hx ih =>
    rcases List.mem_append.mp hm with hm | hm
    · exact ih hm
    · rw [List.mem_singleton.mp hm]
      exact .grouping hx

/-! ## Failures of single operators -/

/-- The failure of the operator at the root, if it fails. -/
def ownFailures (nullGroupings : Bool) : Node → List (Token × Failure)
  | unary op x =>
    (Verdict.ofOperator op (unaryKind op (x.verdict nullGroupings).kind)).failures
  | binary x op y =>
    (Verdict.ofOperator op
      (binaryKind op (x.verdict nullGroupings).kind (y.verdict nullGroupings).kind)).failures
  | _ => []

theorem ownFailures_cases (nullGroupings : Bool) (n : Node) : n.ownFailures nullGroupings = [] ∨
    ∃ op cause, n.operator? = some op ∧ n.ownFailures nullGroupings = [(op, cause)] := by
  have hoperator : ∀ (op : Token) (foretold : Except Failure Kind),
      (Verdict.ofOperator op foretold).failures = [] ∨
        ∃ cause, (Verdict.ofOperator op foretold).failures = [(op, cause)] := by
    intro op foretold
    cases foretold with
    | ok k => exact .inl rfl
    | error cause => exact .inr ⟨cause, rfl⟩
  cases n with
  | unary op x =>
    rcases hoperator op (unaryKind op (x.verdict nullGroupings).kind) with h | ⟨cause, h⟩
    · exact .inl h
    · exact .inr ⟨op, cause, rfl, h⟩
  | binary x op y =>
    rcases hoperator op (binaryKind op (x.verdict nullGroupings).kind
      (y.verdict nullGroupings).kind) with h | ⟨cause, h⟩
    · exact .inl h
    · exact .inr ⟨op, cause, rfl, h⟩
  | _ => exact .inl rfl

/-- **The failures of a tree are those of its operators**, in the order of their application. -/
theorem failures_verdict {n : Node} (h : n.WellFormed) (nullGroupings : Bool) :
    (n.verdict nullGroupings).failures = n.expressions.flatMap (ownFailures nullGroupings) := by
  induction h with
  | literal => rfl
  | unary _ ih =>
    rw [verdict, expressions, List.flatMap_append, ← ih, List.flatMap_singleton]
    rfl
  | binary _ _ ihx ihy =>
    rw [verdict, expressions, List.flatMap_append, List.flatMap_append, ← ihx, ← ihy,
      List.flatMap_singleton, ← List.append_assoc]
    rfl
  | @grouping opening closing x _ ih =>
    have hown : ownFailures nullGroupings (.grouping opening x closing) = [] := rfl
    rw [verdict, expressions, List.flatMap_append, ← ih, List.flatMap_singleton, hown,
      List.append_nil]
    cases nullGroupings with
    | true => rfl
    | false => rfl

end Node

namespace Interpreter

/-- The record behind the operands of an operation. -/
def afterOperands (it : Interpreter) : Node → Interpreter
  | .unary _ x => (it.evaluate x).2
  | .binary x _ y => ((it.evaluate x).2.evaluate y).2
  | _ => it

/-- Whether the value of an expression is the `none` that stands for a value that is missing. -/
def givesNothing (it : Interpreter) (n : Node) : Bool :=
  match (it.evaluate n).1 with
  | .ok v => decide (v = .nothing)
  | .error _ => false

theorem givesNothing_iff {it it' : Interpreter} {n : Node} {v : Token}
    (h : it.evaluate n = (.ok v, it')) : it.givesNothing n = true ↔ v = .nothing := by
  rw [givesNothing, h]
  exact decide_eq_true_iff

/-- **An operator gives `none` exactly if it makes a report**, and then it makes one. -/
theorem evaluate_operation (it : Interpreter) {n : Node} (h : n.WellFormed)
    (hoperator : n.operator?.isSome = true) :
    (it.afterOperands n).Adds (it.evaluate n).2
        (failureReports (n.ownFailures it.options.nullGroupings)) ∧
      (it.givesNothing n = true ↔ n.ownFailures it.options.nullGroupings ≠ []) := by
  cases h with
  | literal => cases hoperator
  | grouping => cases hoperator
  | @unary op x hx =>
    obtain ⟨v, it₁, hevaluate, hholds⟩ := it.evaluate_verdict hx
    obtain ⟨w, it₂, happly, hop, hnothing⟩ := it₁.applyUnary_foretold op hholds.wellFormed
    rw [hholds.kind] at hop hnothing
    have hresult := (evaluate_unary hevaluate op).trans happly
    rw [givesNothing_iff hresult, hresult, afterOperands, hevaluate]
    exact ⟨hop.adds, hnothing⟩
  | @binary op x y hx hy =>
    obtain ⟨v, it₁, hevaluate, hleft⟩ := it.evaluate_verdict hx
    obtain ⟨w, it₂, hevaluate', hright⟩ := it₁.evaluate_verdict hy
    obtain ⟨u, it₃, happly, hop, hnothing⟩ :=
      it₂.traceBinary_foretold op hleft.wellFormed hright.wellFormed
    rw [hleft.kind, hright.kind, hleft.adds.options] at hop hnothing
    have hresult := (evaluate_binary hevaluate hevaluate' op).trans happly
    rw [givesNothing_iff hresult, hresult, afterOperands, hevaluate, hevaluate']
    exact ⟨hop.adds, hnothing⟩

end Interpreter

/-! ## Reports of single operators -/

/-- The report is one of the evaluation, at the line of the operator if that has one. -/
def Node.ReportedBy (n : Node) (d : Diagnostic) : Prop :=
  ∃ op, n.operator? = some op ∧ d.stage = Diagnostic.evaluation ∧
    d.line = if op.line = 0 then none else some op.line

/-- Items that give one result each, if they are chosen, and else none. -/
theorem forall₂_filter_flatMap {α β : Type} {r : α → β → Prop} {p : α → Bool} {f : α → List β}
    {xs : List α}
    (h : ∀ x ∈ xs, p x = true ∧ (∃ y, f x = [y] ∧ r x y) ∨ p x = false ∧ f x = []) :
    List.Forall₂ r (xs.filter p) (xs.flatMap f) := by
  induction xs with
  | nil => exact .nil
  | cons x xs ih =>
    have hrest := ih fun y hy => h y (List.mem_cons_of_mem x hy)
    rcases h x List.mem_cons_self with ⟨hp, y, hy, hr⟩ | ⟨hp, hx⟩
    · rw [List.filter_cons_of_pos hp, List.flatMap_cons, hy]
      exact .cons hr hrest
    · rw [List.filter_cons_of_neg (by simp [hp]), List.flatMap_cons, hx]
      exact hrest

/-- The reports of a tree are those of the operators that give `none`, one by one and in order. -/
theorem Interpreter.failureReports_forall₂ (it : Interpreter) {n : Node} (h : n.WellFormed) :
    List.Forall₂ Node.ReportedBy (n.operations.filter it.givesNothing)
      (failureReports (n.verdict it.options.nullGroupings).failures) := by
  rw [Node.failures_verdict h, failureReports, List.map_flatMap, Node.operations,
    List.filter_filter]
  refine forall₂_filter_flatMap fun m hm => ?_
  cases hoperator : m.operator?.isSome with
  | false =>
    refine .inr ⟨by simp, ?_⟩
    rcases m.ownFailures_cases it.options.nullGroupings with hown | ⟨op, cause, hop, -⟩
    · rw [hown]
      rfl
    · rw [hop] at hoperator
      cases hoperator
  | true =>
    obtain ⟨-, hnothing⟩ := it.evaluate_operation (h.of_mem_expressions hm) hoperator
    rcases m.ownFailures_cases it.options.nullGroupings with hown | ⟨op, cause, hop, hown⟩
    · refine .inr ⟨?_, by rw [hown]; rfl⟩
      rw [hown] at hnothing
      simpa using hnothing
    · refine .inl ⟨?_, cause.diagnostic op.line, by rw [hown]; rfl, op, hop, rfl, rfl⟩
      rw [hown] at hnothing
      simpa using hnothing

/-- **Each failure is reported once, in order and at its operator.** An evaluation gives a value,
and its reports belong to the operations in it whose value is `none`, one by one, in the order in
which they are carried out. An operation makes no report of its own, or one, and the latter exactly
if its value is `none`. To print a value makes one more report exactly if nothing is printed. -/
theorem evaluate_reports_failures (it : Interpreter) {n : Node} (h : n.WellFormed) :
    (∃ v, (it.evaluate n).1 = .ok v) ∧
    (∃ new : List Diagnostic, (it.evaluate n).2.reports = it.reports ++ new ∧
      List.Forall₂ Node.ReportedBy (n.operations.filter it.givesNothing) new) ∧
    (∀ m ∈ n.operations, ∃ own : List Diagnostic,
      (it.evaluate m).2.reports = (it.afterOperands m).reports ++ own ∧ own.length ≤ 1 ∧
        (it.givesNothing m = true ↔ own ≠ [])) ∧
    (it.execute (.print n)).1 = .ok () ∧
    ∃ more : List Diagnostic,
      (it.execute (.print n)).2.reports = (it.evaluate n).2.reports ++ more ∧
      more.length ≤ 1 ∧ ((it.execute (.print n)).2.output = it.output ↔ more ≠ []) := by
  obtain ⟨v, it₁, it', hevaluate, hholds, hexecute, -, hreports, houtput⟩ := it.execute_print h
  rw [hexecute, hevaluate]
  refine ⟨⟨v, rfl⟩, ⟨_, hholds.adds.reports, it.failureReports_forall₂ h⟩, fun m hm => ?_, rfl,
    _, hreports, ?_, houtput.trans ?_⟩
  · obtain ⟨hmem, hoperator⟩ := List.mem_filter.mp hm
    obtain ⟨hadds, hnothing⟩ := it.evaluate_operation (h.of_mem_expressions hmem) hoperator
    refine ⟨_, hadds.reports, ?_, hnothing.trans ?_⟩
    · rcases m.ownFailures_cases it.options.nullGroupings with hown | ⟨op, cause, -, hown⟩
      · rw [hown]
        exact Nat.zero_le 1
      · rw [hown]
        exact Nat.le_refl 1
    · rw [failureReports, ne_eq, ne_eq, List.map_eq_nil_iff]
  · unfold Verdict.printReports
    split
    · exact Nat.zero_le 1
    · exact Nat.le_refl 1
  · unfold Verdict.printReports
    split
    · simp_all
    · simp_all

/-- In `-"a" + "a"` the sign fails on its line, and the sum, whose operator is on no line, fails
over what that gives. -/
theorem evaluate_reports_failures_sample :
    let a := Node.literal (.ofText "a")
    let n := Node.binary (.unary ⟨.minus, "-", .null, 2⟩ a) (.ofKind .plus) a
    let it := Interpreter.ofOptions {} {}
    n.WellFormed ∧ (it.evaluate n).2.reports.records.map Diagnostic.line = [some 2, none] ∧
      List.Forall₂ Node.ReportedBy (n.operations.filter it.givesNothing)
        (it.evaluate n).2.reports.records := by
  intro a n it
  have hn : n.WellFormed := .binary (.unary (.literal rfl)) (.literal rfl)
  obtain ⟨-, ⟨new, hnew, hreported⟩, -⟩ := evaluate_reports_failures it hn
  refine ⟨hn, by decide +kernel, ?_⟩
  rw [hnew, Diagnostics.records_append]
  exact hreported

/-! ## Trees that differ in payloads -/

/-- Literals of the same kind and line, each with a payload of the type that the kind demands. -/
structure Token.Alike (a b : Token) : Prop where
  kind : a.kind = b.kind
  line : a.line = b.line
  left : a.WellFormed
  right : b.WellFormed

/-- Expressions of the same shape: the same operators and groups over literals that are alike. -/
inductive Node.Alike : Node → Node → Prop
  | literal {t t' : Token} : t.Alike t' → Alike (.literal t) (.literal t')
  | unary {op : Token} {x x' : Node} : Alike x x' → Alike (.unary op x) (.unary op x')
  | binary {op : Token} {x x' y y' : Node} : Alike x x' → Alike y y' →
      Alike (.binary x op y) (.binary x' op y')
  | grouping {opening closing : Token} {x x' : Node} : Alike x x' →
      Alike (.grouping opening x closing) (.grouping opening x' closing)

/-- Statements of the same form over expressions that are alike. -/
inductive Node.AlikeStatement : Node → Node → Prop
  | print {e e' : Node} : e.Alike e' → AlikeStatement (.print e) (.print e')
  | expression {e e' : Node} : e.Alike e' → AlikeStatement (.expression e) (.expression e')

namespace Node

theorem Alike.wellFormed {n n' : Node} (h : n.Alike n') : n.WellFormed ∧ n'.WellFormed := by
  induction h with
  | literal ht => exact ⟨.literal ht.left, .literal ht.right⟩
  | unary _ ih => exact ⟨.unary ih.1, .unary ih.2⟩
  | binary _ _ ihx ihy => exact ⟨.binary ihx.1 ihy.1, .binary ihx.2 ihy.2⟩
  | grouping _ ih => exact ⟨.grouping ih.1, .grouping ih.2⟩

/-- **Of trees that are alike the same is foretold.** -/
theorem Alike.verdict_eq {n n' : Node} (h : n.Alike n') (nullGroupings : Bool) :
    n.verdict nullGroupings = n'.verdict nullGroupings := by
  induction h with
  | literal ht => rw [verdict, verdict, ht.kind, ht.line]
  | unary _ ih => rw [verdict, verdict, ih]
  | binary _ _ ihx ihy => rw [verdict, verdict, ihx, ihy]
  | grouping _ ih => rw [verdict, verdict, ih]

/-- Expressions at the same places of trees that are alike are alike. -/
theorem Alike.expressions {n n' : Node} (h : n.Alike n') :
    List.Forall₂ Alike n.expressions n'.expressions := by
  induction h with
  | literal ht => exact .cons (.literal ht) .nil
  | unary hx ih => exact List.rel_append ih (.cons (.unary hx) .nil)
  | binary hx hy ihx ihy =>
    exact List.rel_append ihx (List.rel_append ihy (.cons (.binary hx hy) .nil))
  | grouping hx ih => exact List.rel_append ih (.cons (.grouping hx) .nil)

namespace AlikeStatement

variable {n n' : Node}

theorem isStatement (h : n.AlikeStatement n') : n.IsStatement ∧ n'.IsStatement := by
  cases h with
  | print he => exact ⟨.print he.wellFormed.1, .print he.wellFormed.2⟩
  | expression he => exact ⟨.expression he.wellFormed.1, .expression he.wellFormed.2⟩

theorem statementReports_eq (h : n.AlikeStatement n') (nullGroupings : Bool) :
    n.statementReports nullGroupings = n'.statementReports nullGroupings := by
  cases h with
  | print he => rw [statementReports, statementReports, he.verdict_eq]
  | expression he => rw [statementReports, statementReports, he.verdict_eq]

theorem prints_eq (h : n.AlikeStatement n') (nullGroupings : Bool) :
    n.prints nullGroupings = n'.prints nullGroupings := by
  cases h with
  | print he => rw [prints, prints, he.verdict_eq]
  | expression he => rfl

theorem expressions (h : n.AlikeStatement n') :
    List.Forall₂ Alike n.expressions n'.expressions := by
  cases h with
  | print he => exact he.expressions
  | expression he => exact he.expressions

end AlikeStatement

end Node

theorem isStatement_of_alike {ns ns' : List Node} (h : List.Forall₂ Node.AlikeStatement ns ns') :
    (∀ n ∈ ns, n.IsStatement) ∧ ∀ n ∈ ns', n.IsStatement := by
  induction h with
  | nil => simp
  | cons hn _ ih =>
    exact ⟨List.forall_mem_cons.mpr ⟨hn.isStatement.1, ih.1⟩,
      List.forall_mem_cons.mpr ⟨hn.isStatement.2, ih.2⟩⟩

/-- What is the same for statements that are alike is the same all along programs that are. -/
theorem map_eq_of_alike {α : Type} {f : Node → α} (hf : ∀ n n', n.AlikeStatement n' → f n = f n')
    {ns ns' : List Node} (h : List.Forall₂ Node.AlikeStatement ns ns') : ns.map f = ns'.map f := by
  induction h with
  | nil => rfl
  | cons hn _ ih => rw [List.map_cons, List.map_cons, hf _ _ hn, ih]

namespace Interpreter

/-- Two expressions have values, and these are of the same kind. -/
def SameKind (it it' : Interpreter) (e e' : Node) : Prop :=
  ∃ v v', (it.evaluate e).1 = .ok v ∧ (it'.evaluate e').1 = .ok v' ∧ v.kind = v'.kind

/-- The statement at a place of a program prints something. -/
def PrintsAt (it : Interpreter) (ns : List Node) (i : Nat) : Prop :=
  (it.run (ns.take (i + 1))).2.output ≠ (it.run (ns.take i)).2.output

theorem sameKind_of_alike {it it' : Interpreter}
    (hnull : it.options.nullGroupings = it'.options.nullGroupings) {e e' : Node}
    (h : e.Alike e') : it.SameKind it' e e' := by
  obtain ⟨v, it₁, hevaluate, hholds⟩ := it.evaluate_verdict h.wellFormed.1
  obtain ⟨v', it₁', hevaluate', hholds'⟩ := it'.evaluate_verdict h.wellFormed.2
  refine ⟨v, v', by rw [hevaluate], by rw [hevaluate'], ?_⟩
  rw [hholds.kind, hholds'.kind, h.verdict_eq, hnull]

/-- A statement prints something exactly if that is foretold of it. -/
theorem printsAt_iff {ns : List Node} (h : ∀ n ∈ ns, n.IsStatement) (it : Interpreter) (i : Nat) :
    it.PrintsAt ns i ↔ (ns.map (Node.prints it.options.nullGroupings))[i]? = some true := by
  unfold PrintsAt
  rw [List.take_add_one, List.getElem?_map]
  obtain ⟨it₁, hrun, hoptions, -⟩ := it.run_verdict fun n hn => h n (List.mem_of_mem_take hn)
  cases hget : ns[i]? with
  | none => simp
  | some n =>
    obtain ⟨it₂, hexecute, -, -, houtput⟩ := it₁.execute_verdict (h n (List.mem_of_getElem? hget))
    rw [hoptions] at houtput
    have hlast : it₁.run [n] = (.ok (), it₂) := by
      rw [run, hexecute]
      rfl
    rw [run_append hrun, Option.toList_some, hlast, hrun, ne_eq, houtput]
    simp

end Interpreter

/-- **What fails depends on kinds only.** Take two programs of the same shape with the same
operators and groups, whose literals agree in kind and line, and run them with the same setting for
groups. Both are executed to the end and make the same reports, whatever their payloads and
whichever equality they use. Expressions at the same place have values of the same kind, and
statements at the same place either both print something or both do not. -/
theorem failures_depend_on_kinds {ns ns' : List Node}
    (h : List.Forall₂ Node.AlikeStatement ns ns') (it it' : Interpreter)
    (hnull : it.options.nullGroupings = it'.options.nullGroupings) :
    ((it.run ns).1 = .ok () ∧ (it'.run ns').1 = .ok ()) ∧
    (∃ new : List Diagnostic, (it.run ns).2.reports = it.reports ++ new ∧
      (it'.run ns').2.reports = it'.reports ++ new) ∧
    List.Forall₂ (it.SameKind it') (ns.flatMap Node.expressions) (ns'.flatMap Node.expressions) ∧
    ∀ i, it.PrintsAt ns i ↔ it'.PrintsAt ns' i := by
  obtain ⟨hns, hns'⟩ := isStatement_of_alike h
  obtain ⟨it₁, hrun, -, hreports⟩ := Interpreter.run_verdict hns it
  obtain ⟨it₁', hrun', -, hreports'⟩ := Interpreter.run_verdict hns' it'
  have hsame := map_eq_of_alike
    (fun _ _ halike => halike.statementReports_eq it'.options.nullGroupings) h
  rw [hrun, hrun']
  refine ⟨⟨rfl, rfl⟩, ⟨_, hreports, ?_⟩, ?_, fun i => ?_⟩
  · rw [hnull, List.flatMap_def, hsame, ← List.flatMap_def]
    exact hreports'
  · refine List.Forall₂.imp (fun _ _ => Interpreter.sameKind_of_alike hnull) ?_
    exact List.rel_flatMap h fun _ _ halike => halike.expressions
  · rw [it.printsAt_iff hns, it'.printsAt_iff hns', hnull,
      map_eq_of_alike (fun _ _ halike => halike.prints_eq it'.options.nullGroupings) h]

/-- `print "a" == none` and `-"a"` beside the same with an empty text, under the two equalities: the
comparison comes out differently, and the sign fails on its line both times. -/
theorem failures_depend_on_kinds_sample :
    let program (text : String) : List Node :=
      let leaf := Node.literal ⟨.string, "", .text text, 1⟩
      [.print (.binary leaf (.ofKind .equalEqual) (.literal .nothing)),
        .expression (.unary ⟨.minus, "-", .null, 2⟩ leaf)]
    let it := Interpreter.ofOptions {} {}
    let it' := Interpreter.ofOptions { cascadeEquality := true } {}
    List.Forall₂ Node.AlikeStatement (program "a") (program "") ∧
      it.options.nullGroupings = it'.options.nullGroupings ∧
      (it.run (program "a")).2.output = "false\n" ∧ (it'.run (program "")).2.output = "true\n" ∧
      (it.run (program "a")).2.reports.records.map Diagnostic.message =
        ["unary '-': expected number, got string"] ∧
      (it.run (program "a")).2.reports = (it'.run (program "")).2.reports := by
  intro program it it'
  have hleaf : (Token.mk .string "" (.text "a") 1).Alike ⟨.string, "", .text "", 1⟩ :=
    ⟨rfl, rfl, rfl, rfl⟩
  have halike : List.Forall₂ Node.AlikeStatement (program "a") (program "") :=
    .cons (.print (.binary (.literal hleaf) (.literal ⟨rfl, rfl, rfl, rfl⟩)))
      (.cons (.expression (.unary (.literal hleaf))) .nil)
  obtain ⟨-, ⟨new, hnew, hnew'⟩, -⟩ := failures_depend_on_kinds halike it it' rfl
  refine ⟨halike, rfl, by decide +kernel, by decide +kernel, by decide +kernel, ?_⟩
  rw [hnew, hnew']
  rfl

end Scriptlet
