import Scriptlet.Proofs.StackEvaluation
import Scriptlet.Proofs.Typing

/-!
# What fails is decided by kinds

Whether an operator fails, and why, depends on the kinds of its operands and not on their payloads.
So the failures of a tree can be told from the kinds of its leaves.

* `unaryKind`, `binaryKind`: the kind of what an operator gives, or why it fails.
  `foretold_unaryValue`, `foretold_binaryValue`: the operators do that on well-formed values.
* `Node.verdict`: the kind of a tree's value, and the operators that fail in it, in order.
* `evaluate_verdict`, `execute_verdict`, `run_verdict`: an evaluation, a statement and a program go
  as foretold, whatever the settings for tracing and for equality.
-/

namespace Scriptlet

/-! ## Operators on kinds -/

/-- The kind of the value of a prefix operator, or why it fails. -/
def unaryKind (op : Token) (k : Kind) : Except Failure Kind :=
  match op.kind with
  | .minus =>
    if k = .number then .ok .number else .error (.unaryOperand op.symbol (.wantsNumber k))
  | .bang | .kwNot =>
    if k.isLiteral then .ok .bool else .error (.unaryOperand op.symbol (.wantsTruth k))
  | _ => .error (.unsupportedUnary op.symbol)

/-- The kind of an operation on numbers, or the operand over which it fails. -/
def numericKind (op : Token) (k l result : Kind) : Except Failure Kind :=
  if k = .number then
    if l = .number then .ok result else .error (.binaryOperand op.symbol (.wantsNumber l))
  else .error (.binaryOperand op.symbol (.wantsNumber k))

/-- The kind of a sum, or why there is none. -/
def sumKind (k l : Kind) : Except Failure Kind :=
  if k = .number ∧ l = .number then .ok .number
  else if k = .string ∧ l = .string then .ok .string
  else .error (.sum k l)

/-- The kind of the value of a binary operator, or why it fails. -/
def binaryKind (op : Token) (k l : Kind) : Except Failure Kind :=
  match op.kind with
  | .plus => sumKind k l
  | .equalEqual | .bangEqual => .ok .bool
  | .minus | .star | .slash | .percent | .caret => numericKind op k l .number
  | .greater | .greaterEqual | .less | .lessEqual => numericKind op k l .bool
  | _ => .error (.unsupportedBinary op.symbol)

/-- What an operator gives is as foretold: a value of that kind, which is never `none`, or the
failure. -/
inductive Foretold : Except Refusal Token → Except Failure Kind → Prop
  | value {t : Token} {k : Kind} : t.WellFormed → t.kind = k → t.line = 0 → k ≠ .kwNone →
      Foretold (.ok t) (.ok k)
  | failure (cause : Failure) : Foretold (.error (.failure cause)) (.error cause)

theorem toNumber_of_number {t : Token} (h : t.WellFormed) (hk : t.kind = .number) :
    ∃ x, t.toNumber = .ok (.number x) := by
  obtain ⟨x, hx⟩ := h.payload_number hk
  exact ⟨x, by rw [Token.toNumber, if_pos hk, hx]⟩

theorem toNumber_of_ne {t : Token} (hk : t.kind ≠ .number) :
    t.toNumber = .error (.refused (.wantsNumber t.kind)) :=
  if_neg hk

theorem toTruth_of_isLiteral {t : Token} (h : t.WellFormed) (hk : t.kind.isLiteral = true) :
    ∃ b, t.toTruth = .ok (.truth b) := by
  rcases h.coerced_toTruth with hb | ⟨fault, hfault⟩
  · exact hb
  · -- only a kind that stands for no value is refused
    unfold Token.toTruth at hfault
    split at hfault
    · cases hfault
    · split at hfault
      · cases hfault
      · cases hfault
    · cases hfault
    · cases hfault
    · cases hfault
    · simp_all [Kind.isLiteral, Kind.literals]

theorem toTruth_of_not_isLiteral {t : Token} (hk : t.kind.isLiteral = false) :
    t.toTruth = .error (.refused (.wantsTruth t.kind)) := by
  have hother : ∀ k : Kind, k.isLiteral = true → t.kind ≠ k := by
    rintro k hliteral rfl
    rw [hk] at hliteral
    cases hliteral
  unfold Token.toTruth
  split
  · exact absurd ‹_› (hother _ rfl)
  · exact absurd ‹_› (hother _ rfl)
  · exact absurd ‹_› (hother _ rfl)
  · exact absurd ‹_› (hother _ rfl)
  · exact absurd ‹_› (hother _ rfl)
  · rfl

/-- **Prefix operators do what is foretold.** -/
theorem foretold_unaryValue (op : Token) {x : Token} (hx : x.WellFormed) :
    Foretold (unaryValue op x) (unaryKind op x.kind) := by
  have hnot : op.kind = .bang ∨ op.kind = .kwNot →
      Foretold (unaryValue op x) (unaryKind op x.kind) := by
    intro hop
    unfold unaryValue unaryKind
    cases hk : x.kind.isLiteral with
    | true =>
      obtain ⟨b, hb⟩ := toTruth_of_isLiteral hx hk
      rcases hop with hop | hop <;> rw [hop] <;> dsimp only <;> rw [hb] <;>
        exact .value rfl rfl rfl (by decide)
    | false =>
      have htruth := toTruth_of_not_isLiteral hk
      rcases hop with hop | hop <;> rw [hop] <;> dsimp only <;> rw [htruth] <;> exact .failure _
  cases hop : op.kind with
  | bang => exact hnot (.inl hop)
  | kwNot => exact hnot (.inr hop)
  | minus =>
    unfold unaryValue unaryKind
    rw [hop]
    dsimp only
    by_cases hk : x.kind = .number
    · obtain ⟨a, ha⟩ := toNumber_of_number hx hk
      rw [ha, if_pos hk]
      exact .value rfl rfl rfl (by decide)
    · rw [toNumber_of_ne hk, if_neg hk]
      exact .failure _
  | _ =>
    unfold unaryValue unaryKind
    rw [hop]
    exact .failure _

theorem foretold_sumValue {x y : Token} (hx : x.WellFormed) (hy : y.WellFormed) :
    Foretold (sumValue x y) (sumKind x.kind y.kind) := by
  unfold sumValue
  split
  · rename_i hkx hky
    obtain ⟨a, ha⟩ := hx.payload_number hkx
    obtain ⟨b, hb⟩ := hy.payload_number hky
    rw [ha, hb, sumKind, if_pos ⟨hkx, hky⟩]
    exact .value rfl rfl rfl (by decide)
  · rename_i hkx hky
    obtain ⟨s, hs⟩ := hx.payload_string hkx
    obtain ⟨t, ht⟩ := hy.payload_string hky
    rw [hs, ht, sumKind, hkx, hky]
    exact .value rfl rfl rfl (by decide)
  · rename_i hnumber hstring
    rw [sumKind, if_neg fun h => hnumber h.1 h.2, if_neg fun h => hstring h.1 h.2]
    exact .failure _

theorem foretold_numericValue {α : Type} (op : Token) {x y : Token} (hx : x.WellFormed)
    (hy : y.WellFormed) {f : Float → Float → Except Number.Trap α}
    (hf : ∀ a b, ∃ r, f a b = .ok r) {wrap : α → Token} {k : Kind}
    (hwrap : ∀ a, (wrap a).WellFormed ∧ (wrap a).kind = k ∧ (wrap a).line = 0)
    (hk : k ≠ .kwNone) :
    Foretold ((numericValue op x y f).map wrap) (numericKind op x.kind y.kind k) := by
  unfold numericValue numericKind
  dsimp only
  by_cases hkx : x.kind = .number
  · obtain ⟨a, ha⟩ := toNumber_of_number hx hkx
    rw [ha, if_pos hkx]
    by_cases hky : y.kind = .number
    · obtain ⟨b, hb⟩ := toNumber_of_number hy hky
      obtain ⟨r, hr⟩ := Document.exists_withNumbers hf op.kind a b
      rw [hb, if_pos hky]
      dsimp only
      rw [hr]
      obtain ⟨hwell, hkind, hline⟩ := hwrap r
      exact .value hwell hkind hline hk
    · rw [toNumber_of_ne hky, if_neg hky]
      exact .failure _
  · rw [toNumber_of_ne hkx, if_neg hkx]
    exact .failure _

/-- **Binary operators do what is foretold**, whatever the settings. -/
theorem foretold_binaryValue (o : Options) (op : Token) {x y : Token} (hx : x.WellFormed)
    (hy : y.WellFormed) : Foretold (o.binaryValue op x y) (binaryKind op x.kind y.kind) := by
  have hequal : ∀ f : Bool → Bool,
      Foretold (((o.equal x y).mapError .misuse).map fun b => .ofTruth (f b)) (.ok .bool) := by
    intro f
    obtain ⟨answer, hanswer⟩ := o.exists_equal hx hy
    rw [hanswer]
    exact .value rfl rfl rfl (by decide)
  have harithmetic : ∀ {f}, arithmetic? op.kind = some f →
      Foretold ((numericValue op x y f).map .ofNumber) (numericKind op x.kind y.kind .number) :=
    fun h => foretold_numericValue op hx hy (arithmetic?_total h) (fun _ => ⟨rfl, rfl, rfl⟩)
      (by decide)
  have hcomparison : ∀ {f}, comparison? op.kind = some f →
      Foretold ((numericValue op x y f).map .ofTruth) (numericKind op x.kind y.kind .bool) :=
    fun h => foretold_numericValue op hx hy (comparison?_total h) (fun _ => ⟨rfl, rfl, rfl⟩)
      (by decide)
  unfold Options.binaryValue binaryKind
  cases hk : op.kind with
  | plus => exact foretold_sumValue hx hy
  | equalEqual => exact hequal id
  | bangEqual => exact hequal not
  | minus | star | slash | percent | caret => exact harithmetic (by rw [hk]; rfl)
  | greater | greaterEqual | less | lessEqual => exact hcomparison (by rw [hk]; rfl)
  | _ => exact .failure _

/-! ## Trees -/

/-- An expression over well-formed leaves, with any operators. -/
inductive Node.WellFormed : Node → Prop
  | literal {t : Token} : t.WellFormed → WellFormed (.literal t)
  | unary {op : Token} {x : Node} : WellFormed x → WellFormed (.unary op x)
  | binary {op : Token} {x y : Node} : WellFormed x → WellFormed y → WellFormed (.binary x op y)
  | grouping {opening closing : Token} {x : Node} : WellFormed x →
      WellFormed (.grouping opening x closing)

/-- What can be told of an evaluation in advance. -/
structure Verdict where
  /-- The kind of the value. -/
  kind : Kind
  /-- The line of the value. Only literals have one. -/
  line : Int
  /-- The operators that fail, in the order in which they are applied, and why. -/
  failures : List (Token × Failure)

/-- The verdict on an operator alone. A failure gives `none`. -/
def Verdict.ofOperator (op : Token) : Except Failure Kind → Verdict
  | .ok k => ⟨k, 0, []⟩
  | .error cause => ⟨.kwNone, 0, [(op, cause)]⟩

/-- A verdict with the failures of the operands in front. -/
def Verdict.after (d : Verdict) (failures : List (Token × Failure)) : Verdict :=
  { d with failures := failures ++ d.failures }

/-- The verdict on a tree, from the kinds and lines of its leaves. -/
def Node.verdict (nullGroupings : Bool) : Node → Verdict
  | .literal t => ⟨t.kind, t.line, []⟩
  | .unary op x =>
    let inner := x.verdict nullGroupings
    (Verdict.ofOperator op (unaryKind op inner.kind)).after inner.failures
  | .binary x op y =>
    let left := x.verdict nullGroupings
    let right := y.verdict nullGroupings
    (Verdict.ofOperator op (binaryKind op left.kind right.kind)).after
      (left.failures ++ right.failures)
  | .grouping _ x _ =>
    let inner := x.verdict nullGroupings
    if nullGroupings then ⟨.kwNone, 0, inner.failures⟩ else inner
  | _ => ⟨.endOfInput, 0, []⟩

/-- The report of a failure at a line. Line zero is no line. -/
def Failure.diagnostic (cause : Failure) (line : Int) : Diagnostic :=
  ⟨Diagnostic.evaluation, cause.message, if line = 0 then none else some line⟩

/-- The reports of failures, each at its operator. -/
def failureReports (failures : List (Token × Failure)) : List Diagnostic :=
  failures.map fun f => f.2.diagnostic f.1.line

theorem failureReports_append (fs gs : List (Token × Failure)) :
    failureReports (fs ++ gs) = failureReports fs ++ failureReports gs :=
  List.map_append

/-! ## Evaluation -/

/-- The record `it'` comes of `it` by some reports. Nothing is printed, and the trace is left open
to grow. -/
structure Interpreter.Adds (it it' : Interpreter) (ds : List Diagnostic) : Prop where
  reports : it'.reports = it.reports ++ ds
  options : it'.options = it.options
  output : it'.output = it.output

namespace Interpreter

theorem Adds.refl (it : Interpreter) : it.Adds it [] := ⟨rfl, rfl, rfl⟩

theorem Adds.trans {it it' it'' : Interpreter} {ds es : List Diagnostic} (h : it.Adds it' ds)
    (h' : it'.Adds it'' es) : it.Adds it'' (ds ++ es) :=
  ⟨by rw [h'.reports, h.reports, Diagnostics.append_append], h'.options.trans h.options,
    h'.output.trans h.output⟩

theorem adds_report (it : Interpreter) (cause : Failure) (origin : Token) :
    it.Adds (it.report cause.message origin) [cause.diagnostic origin.line] :=
  ⟨rfl, rfl, rfl⟩

theorem adds_debug (it : Interpreter) (level : Int) (message : String) :
    it.Adds (it.debug level message) [] := by
  unfold debug
  split
  · exact ⟨rfl, rfl, rfl⟩
  · exact .refl it

end Interpreter

/-- An evaluation that gives `v` and leads from the record `it` to `it'` goes as foretold. -/
structure Verdict.Holds (d : Verdict) (it : Interpreter) (v : Token) (it' : Interpreter) :
    Prop where
  wellFormed : v.WellFormed
  kind : v.kind = d.kind
  line : v.line = d.line
  adds : it.Adds it' (failureReports d.failures)

theorem Verdict.Holds.after {d : Verdict} {it it' it'' : Interpreter} {v : Token}
    {failures : List (Token × Failure)} (h : d.Holds it' v it'')
    (hbefore : it.Adds it' (failureReports failures)) : (d.after failures).Holds it v it'' := by
  refine ⟨h.wellFormed, h.kind, h.line, ?_⟩
  rw [Verdict.after, failureReports_append]
  exact hbefore.trans h.adds

namespace Interpreter

/-- Evaluation with explicit stacks is evaluation by recursion. -/
theorem evaluate_eq_meaning (it : Interpreter) (n : Node) : it.evaluate n = it.meaning n := by
  rw [evaluate, runFrames_visit]
  generalize it.meaning n = result
  obtain ⟨value, it'⟩ := result
  cases value with
  | error defect => rfl
  | ok v => rw [resume, runFrames]

theorem evaluate_literal (it : Interpreter) (t : Token) :
    it.evaluate (.literal t) = (.ok t, it) := by
  rw [evaluate_eq_meaning, meaning]

theorem evaluate_unary {it it₁ : Interpreter} {x : Node} {v : Token}
    (hx : it.evaluate x = (.ok v, it₁)) (op : Token) :
    it.evaluate (.unary op x) = it₁.applyUnary op v := by
  rw [evaluate_eq_meaning] at hx ⊢
  rw [meaning, hx]

theorem evaluate_binary {it it₁ it₂ : Interpreter} {x y : Node} {v w : Token}
    (hx : it.evaluate x = (.ok v, it₁)) (hy : it₁.evaluate y = (.ok w, it₂)) (op : Token) :
    it.evaluate (.binary x op y) = it₂.traceBinary op v w := by
  rw [evaluate_eq_meaning] at hx hy ⊢
  rw [meaning, hx]
  dsimp only
  rw [hy]

theorem evaluate_grouping {it it₁ : Interpreter} {x : Node} {v : Token}
    (hx : it.evaluate x = (.ok v, it₁)) (opening closing : Token) :
    it.evaluate (.grouping opening x closing) = (.ok (it₁.groupValue v), it₁) := by
  rw [evaluate_eq_meaning] at hx ⊢
  rw [meaning, hx]

/-- **An operator settles as foretold.** Its value is `none` exactly if it fails. -/
theorem settle_foretold (it : Interpreter) (op : Token) {value : Except Refusal Token}
    {foretold : Except Failure Kind} (h : Foretold value foretold) :
    ∃ v it', it.settle op value = (.ok v, it') ∧
      (Verdict.ofOperator op foretold).Holds it v it' ∧
      (v = .nothing ↔ (Verdict.ofOperator op foretold).failures ≠ []) := by
  cases h with
  | @value t k hwell hkind hline hne =>
    refine ⟨t, it, rfl, ⟨hwell, hkind, hline, .refl it⟩, ?_⟩
    constructor
    · rintro rfl
      exact absurd hkind.symm hne
    · intro hfails
      exact absurd rfl hfails
  | failure cause =>
    refine ⟨.nothing, _, rfl, ⟨rfl, rfl, rfl, it.adds_report cause op⟩, ?_⟩
    simp [Verdict.ofOperator]

theorem applyUnary_foretold (it : Interpreter) (op : Token) {x : Token} (hx : x.WellFormed) :
    ∃ v it', it.applyUnary op x = (.ok v, it') ∧
      (Verdict.ofOperator op (unaryKind op x.kind)).Holds it v it' ∧
      (v = .nothing ↔ (Verdict.ofOperator op (unaryKind op x.kind)).failures ≠ []) :=
  it.settle_foretold op (foretold_unaryValue op hx)

theorem traceBinary_foretold (it : Interpreter) (op : Token) {x y : Token} (hx : x.WellFormed)
    (hy : y.WellFormed) :
    ∃ v it', it.traceBinary op x y = (.ok v, it') ∧
      (Verdict.ofOperator op (binaryKind op x.kind y.kind)).Holds it v it' ∧
      (v = .nothing ↔ (Verdict.ofOperator op (binaryKind op x.kind y.kind)).failures ≠ []) := by
  obtain ⟨v, it', hsettle, hholds, hnone⟩ :=
    it.settle_foretold op (foretold_binaryValue it.options op hx hy)
  unfold traceBinary applyBinary
  rw [hsettle]
  refine ⟨v, _, rfl, ⟨hholds.wellFormed, hholds.kind, hholds.line, ?_⟩, hnone⟩
  split
  · have := hholds.adds.trans (it'.adds_debug 3 (applicationMessage op x y v))
    rwa [List.append_nil] at this
  · exact hholds.adds

/-- **Evaluation goes as foretold.** -/
theorem evaluate_verdict (it : Interpreter) {n : Node} (h : n.WellFormed) :
    ∃ v it', it.evaluate n = (.ok v, it') ∧
      (n.verdict it.options.nullGroupings).Holds it v it' := by
  induction h generalizing it with
  | @literal t ht => exact ⟨t, it, it.evaluate_literal t, ht, rfl, rfl, .refl it⟩
  | @unary op x _ ih =>
    obtain ⟨v, it₁, hx, hholds⟩ := ih it
    obtain ⟨w, it₂, happly, hop, -⟩ := it₁.applyUnary_foretold op hholds.wellFormed
    rw [hholds.kind] at hop
    exact ⟨w, it₂, (evaluate_unary hx op).trans happly, hop.after hholds.adds⟩
  | @binary op x y _ _ ihx ihy =>
    obtain ⟨v, it₁, hx, hleft⟩ := ihx it
    obtain ⟨w, it₂, hy, hright⟩ := ihy it₁
    obtain ⟨u, it₃, happly, hop, -⟩ :=
      it₂.traceBinary_foretold op hleft.wellFormed hright.wellFormed
    rw [hleft.adds.options] at hright
    rw [hleft.kind, hright.kind] at hop
    refine ⟨u, it₃, (evaluate_binary hx hy op).trans happly, hop.after ?_⟩
    rw [failureReports_append]
    exact hleft.adds.trans hright.adds
  | @grouping opening closing x _ ih =>
    obtain ⟨v, it₁, hx, hholds⟩ := ih it
    refine ⟨it₁.groupValue v, it₁, evaluate_grouping hx opening closing, ?_⟩
    rw [groupValue, hholds.adds.options, Node.verdict]
    generalize it.options.nullGroupings = nullGroupings at hholds
    cases nullGroupings with
    | true => exact ⟨rfl, rfl, rfl, hholds.adds⟩
    | false => exact hholds

end Interpreter

/-! ## Statements -/

/-- The kinds whose values can be printed. -/
def Kind.isPrintable (k : Kind) : Bool := k == .string || k == .number || k == .bool || k == .kwNone

theorem toText_of_isPrintable {t : Token} (h : t.WellFormed) (hk : t.kind.isPrintable = true) :
    ∃ text, t.toText = .ok text := by
  rcases h.coerced_toText with ⟨text, htext⟩ | ⟨fault, hfault⟩
  · exact ⟨_, htext⟩
  · have hnumber : t.kind ≠ .number := by
      intro hkind
      obtain ⟨x, hx⟩ := h.payload_number hkind
      rw [Token.toText_number hkind hx] at hfault
      cases hfault
    -- only a kind that cannot be printed is refused
    unfold Token.toText at hfault
    split at hfault
    · cases hfault
    · exact absurd ‹_› hnumber
    · cases hfault
    · cases hfault
    · simp_all [Kind.isPrintable]

theorem toText_of_not_isPrintable {t : Token} (hk : t.kind.isPrintable = false) :
    t.toText = .error (.refused (.wantsText t.kind)) := by
  have hother : ∀ k : Kind, k.isPrintable = true → t.kind ≠ k := by
    rintro k hprintable rfl
    rw [hk] at hprintable
    cases hprintable
  unfold Token.toText
  split
  · exact absurd ‹_› (hother _ rfl)
  · exact absurd ‹_› (hother _ rfl)
  · exact absurd ‹_› (hother _ rfl)
  · exact absurd ‹_› (hother _ rfl)
  · rfl

/-- A statement over a well-formed expression. -/
inductive Node.IsStatement : Node → Prop
  | print {e : Node} : e.WellFormed → IsStatement (.print e)
  | expression {e : Node} : e.WellFormed → IsStatement (.expression e)

/-- The report that the value cannot be printed, if that is so. -/
def Verdict.printReports (d : Verdict) : List Diagnostic :=
  if d.kind.isPrintable then [] else [(Failure.unprintable (.wantsText d.kind)).diagnostic d.line]

/-- The reports of a statement. -/
def Node.statementReports (nullGroupings : Bool) : Node → List Diagnostic
  | .print e =>
    failureReports (e.verdict nullGroupings).failures ++ (e.verdict nullGroupings).printReports
  | .expression e => failureReports (e.verdict nullGroupings).failures
  | _ => []

/-- Whether a statement prints anything. -/
def Node.prints (nullGroupings : Bool) : Node → Bool
  | .print e => (e.verdict nullGroupings).kind.isPrintable
  | _ => false

namespace Interpreter

theorem output_printLine_ne (it : Interpreter) (text : String) :
    (it.printLine text).output ≠ it.output := by
  intro h
  have hlength := congrArg String.length h
  simp only [printLine, String.length_append] at hlength
  have : "\n".length = 1 := rfl
  omega

/-- **A printing statement goes as foretold**: after the evaluation, it prints a line or makes one
report. -/
theorem execute_print (it : Interpreter) {e : Node} (h : e.WellFormed) :
    ∃ v it₁ it', it.evaluate e = (.ok v, it₁) ∧
      (e.verdict it.options.nullGroupings).Holds it v it₁ ∧
      it.execute (.print e) = (.ok (), it') ∧ it'.options = it.options ∧
      it'.reports = it₁.reports ++ (e.verdict it.options.nullGroupings).printReports ∧
      (it'.output = it.output ↔ (e.verdict it.options.nullGroupings).kind.isPrintable = false) := by
  obtain ⟨v, it₁, hevaluate, hholds⟩ := it.evaluate_verdict h
  unfold execute Verdict.printReports
  dsimp only
  rw [hevaluate, ← hholds.kind, ← hholds.line]
  dsimp only
  cases hk : v.kind.isPrintable with
  | true =>
    obtain ⟨text, htext⟩ := toText_of_isPrintable hholds.wellFormed hk
    rw [htext]
    refine ⟨v, it₁, _, rfl, hholds, rfl, hholds.adds.options, rfl, ?_⟩
    have hne := it₁.output_printLine_ne text.display
    rw [hholds.adds.output] at hne
    simpa using hne
  | false =>
    rw [toText_of_not_isPrintable hk]
    exact ⟨v, it₁, _, rfl, hholds, rfl, hholds.adds.options, rfl,
      by simp [report, hholds.adds.output]⟩

/-- **Statements go as foretold.** -/
theorem execute_verdict (it : Interpreter) {n : Node} (h : n.IsStatement) :
    ∃ it', it.execute n = (.ok (), it') ∧ it'.options = it.options ∧
      it'.reports = it.reports ++ n.statementReports it.options.nullGroupings ∧
      (it'.output = it.output ↔ n.prints it.options.nullGroupings = false) := by
  cases h with
  | print he =>
    obtain ⟨v, it₁, it', -, hholds, hexecute, hoptions, hreports, houtput⟩ := it.execute_print he
    refine ⟨it', hexecute, hoptions, ?_, houtput⟩
    rw [hreports, hholds.adds.reports, ← Diagnostics.append_append]
    rfl
  | expression he =>
    obtain ⟨v, it₁, hevaluate, hholds⟩ := it.evaluate_verdict he
    refine ⟨it₁, ?_, hholds.adds.options, hholds.adds.reports, ?_⟩
    · unfold execute
      dsimp only
      rw [hevaluate]
    · simp [Node.prints, hholds.adds.output]

/-- **Programs go as foretold**, statement by statement. -/
theorem run_verdict {ns : List Node} (h : ∀ n ∈ ns, n.IsStatement) (it : Interpreter) :
    ∃ it', it.run ns = (.ok (), it') ∧ it'.options = it.options ∧
      it'.reports = it.reports ++ ns.flatMap (Node.statementReports it.options.nullGroupings) := by
  induction ns generalizing it with
  | nil => exact ⟨it, rfl, rfl, rfl⟩
  | cons n ns ih =>
    obtain ⟨hn, hns⟩ := List.forall_mem_cons.mp h
    obtain ⟨it₁, hexecute, hoptions, hreports, -⟩ := it.execute_verdict hn
    obtain ⟨it', hrun, hoptions', hreports'⟩ := ih hns it₁
    refine ⟨it', ?_, hoptions'.trans hoptions, ?_⟩
    · rw [run, hexecute]
      exact hrun
    · rw [hreports', hreports, hoptions, List.flatMap_cons, Diagnostics.append_append]

/-- Statements behind others are executed after them. -/
theorem run_append {it it' : Interpreter} {ns : List Node} (h : it.run ns = (.ok (), it'))
    (ms : List Node) : it.run (ns ++ ms) = it'.run ms := by
  induction ns generalizing it with
  | nil =>
    cases h
    rfl
  | cons n ns ih =>
    rw [run] at h
    rw [List.cons_append, run]
    generalize it.execute n = executed at h ⊢
    obtain ⟨result, it₁⟩ := executed
    cases result with
    | error defect => cases h
    | ok _ => exact ih h

end Interpreter

end Scriptlet
