import Scriptlet.Proofs.Derivation
import Scriptlet.Proofs.Verdict

/-!
# Lines do not matter

Lines are carried from tokens to trees and reports, and nothing else depends on them.

* `Token.unlined`, `Node.unlined`, `Issue.unlined`: what is left when lines are forgotten. Tokens
  that no text stands for have no line to begin with.
* `Rule.Unlined`: a rule reads the same when lines are forgotten. `parseProgram_unlined` is what
  follows for programs.
* `fst_evaluate_unlined`: so do values, and `run_unlined`: what is printed is the same.
* `Interpreter.printed`: what statements print, on every record (`run_prints`), lines aside
  (`printed_unlined`), and one after the other (`printed_append`).
-/

namespace Scriptlet

/-- A token with its line forgotten. -/
def Token.unlined (t : Token) : Token := { t with line := 0 }

@[simp] theorem Token.kind_unlined (t : Token) : t.unlined.kind = t.kind := rfl

/-- An expression or statement with the lines of its tokens forgotten. -/
def Node.unlined : Node → Node
  | .literal t => .literal t.unlined
  | .unary op x => .unary op.unlined x.unlined
  | .binary x op y => .binary x.unlined op.unlined y.unlined
  | .grouping opening x closing => .grouping opening.unlined x.unlined closing.unlined
  | .print e => .print e.unlined
  | .expression e => .expression e.unlined
  | n => n

/-- An issue with its line forgotten, though not that it has one. -/
def Issue.unlined (i : Issue) : Issue := { i with line := i.line.map fun _ => 0 }

/-- What has been read, with all lines forgotten. -/
def Parsed.unlined {α : Type} (f : α → α) (parsed : Parsed α) : Parsed α :=
  ⟨f parsed.value, parsed.rest.map Token.unlined, parsed.issues.map Issue.unlined⟩

/-! ## Reading -/

theorem expect_unlined (k : Kind) (ts : List Token) :
    expect k (ts.map Token.unlined) = (expect k ts).map Issue.unlined := by
  have hany : (ts.map Token.unlined).any (fun t => t.kind == k) = ts.any fun t => t.kind == k :=
    List.any_map
  unfold expect
  rw [hany]
  split
  · rfl
  · cases ts with
    | nil => rfl
    | cons t ts => rfl

theorem skipBlockNewline_unlined (closer : Kind) (ts : List Token) :
    skipBlockNewline closer (ts.map Token.unlined) =
      (skipBlockNewline closer ts).map Token.unlined := by
  cases ts with
  | nil => rfl
  | cons a ts =>
    cases ts with
    | nil => rfl
    | cons b ts =>
      simp only [List.map_cons, skipBlockNewline]
      rw [Token.kind_unlined, Token.kind_unlined]
      split
      · rfl
      · rfl

theorem closeGroup_unlined (closer : Kind) (ts : List Token) :
    closeGroup closer (ts.map Token.unlined) = (closeGroup closer ts).unlined Token.unlined := by
  unfold closeGroup
  rw [skipBlockNewline_unlined]
  generalize skipBlockNewline closer ts = us
  dsimp only
  rw [expect_unlined]
  cases us with
  | nil => rfl
  | cons t us =>
    by_cases ht : t.kind = closer
    · simp only [List.map_cons, Token.kind_unlined, if_pos ht, Parsed.unlined]
    · simp only [List.map_cons, Token.kind_unlined, if_neg ht, Parsed.unlined]
      rfl

namespace Rule

/-- The rule reads the same when lines are forgotten. -/
def Unlined (r : Rule) : Prop :=
  ∀ ts, r.run (ts.map Token.unlined) = (r.run ts).unlined Node.unlined

variable {r : Rule}

theorem Unlined.primary (h : r.Unlined) : (primary r).Unlined := by
  intro ts
  cases ts with
  | nil => rfl
  | cons t ts =>
    unfold Rule.primary
    simp only [List.map_cons]
    rw [Token.kind_unlined]
    by_cases hliteral : t.kind.isLiteral = true
    · rw [if_pos hliteral, if_pos hliteral]
      rfl
    · rw [if_neg hliteral, if_neg hliteral]
      cases closer? t.kind with
      | none => rfl
      | some closer =>
        dsimp only
        rw [h ts]
        simp only [Parsed.unlined, closeGroup_unlined, List.map_append, Node.unlined]

theorem Unlined.prefixed (h : r.Unlined) (operators : List Kind) :
    (r.prefixed operators).Unlined := by
  have hsigns : ∀ (signs : List Token) (n : Node),
      (signs.map Token.unlined).foldr Node.unary n.unlined =
        (signs.foldr Node.unary n).unlined := by
    intro signs n
    induction signs with
    | nil => rfl
    | cons t signs ih =>
      rw [List.map_cons, List.foldr_cons, ih]
      rfl
  intro ts
  unfold Rule.prefixed
  dsimp only
  rw [List.takeWhile_map, List.dropWhile_map, h]
  simp only [Parsed.unlined, hsigns]
  rfl

theorem Unlined.chainFrom (h : r.Unlined) (operators : List Kind) (left : Node)
    (issues : List Issue) (ts : List Token) :
    chainFrom r operators left.unlined (issues.map Issue.unlined) (ts.map Token.unlined) =
      (chainFrom r operators left issues ts).unlined Node.unlined := by
  fun_induction Rule.chainFrom r operators left issues ts with
  | case1 left issues =>
    rw [List.map_nil, Rule.chainFrom]
    rfl
  | case2 left issues t ts hop right ih =>
    rw [List.map_cons, Rule.chainFrom, Token.kind_unlined, if_pos hop, h ts]
    rw [List.map_append] at ih
    exact ih
  | case3 left issues t ts hop =>
    rw [List.map_cons, Rule.chainFrom, Token.kind_unlined, if_neg hop]
    rfl

theorem Unlined.chain (h : r.Unlined) (operators : List Kind) : (r.chain operators).Unlined := by
  intro ts
  unfold Rule.chain
  dsimp only
  rw [h ts]
  exact h.chainFrom operators _ _ _

theorem unlined_expression (depth : Nat) : (expression depth).Unlined := by
  induction depth with
  | zero => exact fun ts => rfl
  | succ depth ih =>
    exact ((((((ih.primary.prefixed prefixOperators).chain Level.exponent.operators).chain
      Level.factor.operators).chain Level.term.operators).chain Level.comparison.operators).chain
      Level.equality.operators)

end Rule

theorem parseExpression_unlined (ts : List Token) :
    parseExpression (ts.map Token.unlined) = (parseExpression ts).unlined Node.unlined := by
  unfold parseExpression
  rw [List.length_map]
  exact Rule.unlined_expression _ ts

theorem skipNewline_unlined (ts : List Token) :
    skipNewline (ts.map Token.unlined) = (skipNewline ts).map Token.unlined := by
  cases ts with
  | nil => rfl
  | cons t ts =>
    simp only [List.map_cons, skipNewline]
    rw [Token.kind_unlined]
    split
    · rfl
    · rfl

theorem parseStatement_unlined (ts : List Token) :
    parseStatement (ts.map Token.unlined) = (parseStatement ts).unlined Node.unlined := by
  cases ts with
  | nil =>
    have hexpression : parseExpression [] = (parseExpression []).unlined Node.unlined :=
      parseExpression_unlined []
    have hstatement := congrArg
      (fun e : Parsed Node => Parsed.mk (Node.expression e.value) (skipNewline e.rest) e.issues)
      hexpression
    simp only [Parsed.unlined, skipNewline_unlined] at hstatement
    exact hstatement
  | cons t ts =>
    have hexpression := parseExpression_unlined (t :: ts)
    unfold parseStatement
    simp only [List.map_cons] at hexpression ⊢
    rw [Token.kind_unlined]
    by_cases ht : t.kind = .kwPrint
    · rw [if_pos ht, if_pos ht, parseExpression_unlined]
      simp only [Parsed.unlined, skipNewline_unlined, expect_unlined, List.map_append, Node.unlined]
    · rw [if_neg ht, if_neg ht, hexpression]
      simp only [Parsed.unlined, skipNewline_unlined, Node.unlined]

/-- **Programs are read the same when lines are forgotten.** -/
theorem parseProgram_unlined (ts : List Token) :
    parseProgram (ts.map Token.unlined) = (parseProgram ts).unlined (List.map Node.unlined) := by
  fun_induction parseProgram ts with
  | case1 t next more statement hlt program ih =>
    have hstatement : parseStatement ((t :: next :: more).map Token.unlined) =
        statement.unlined Node.unlined := parseStatement_unlined _
    have hlt' : (parseStatement ((t :: next :: more).map Token.unlined)).rest.length <
        ((t :: next :: more).map Token.unlined).length := by
      rw [hstatement, Parsed.unlined, List.length_map, List.length_map]
      exact hlt
    simp only [List.map_cons] at hstatement hlt' ⊢
    rw [parseProgram, dif_pos hlt', hstatement]
    simp only [Parsed.unlined] at ih ⊢
    rw [ih, List.map_append, List.map_cons]
  | case2 t next more statement hlt program ih =>
    have hstatement : parseStatement ((t :: next :: more).map Token.unlined) =
        statement.unlined Node.unlined := parseStatement_unlined _
    have hlt' : ¬ (parseStatement ((t :: next :: more).map Token.unlined)).rest.length <
        ((t :: next :: more).map Token.unlined).length := by
      rw [hstatement, Parsed.unlined, List.length_map, List.length_map]
      exact hlt
    simp only [List.map_cons] at hstatement hlt' ih ⊢
    rw [parseProgram, dif_neg hlt', hstatement]
    simp only [Parsed.unlined] at ih ⊢
    rw [ih, List.map_append, List.map_cons]
    rfl
  | case3 ts hshort =>
    cases ts with
    | nil => rw [List.map_nil, parseProgram.eq_def]; rfl
    | cons t ts =>
      cases ts with
      | nil => rw [List.map_cons, List.map_nil, parseProgram.eq_def]; rfl
      | cons u ts => exact absurd rfl (hshort t u ts)

/-! ## Evaluating -/

theorem Node.WellFormed.unlined {n : Node} (h : n.WellFormed) : n.unlined.WellFormed := by
  induction h with
  | literal ht => exact .literal ht
  | unary _ ih => exact .unary ih
  | binary _ _ ihx ihy => exact .binary ihx ihy
  | grouping _ ih => exact .grouping ih

theorem Token.unlined_eq {t : Token} (h : t.line = 0) : t.unlined = t := by
  rw [Token.unlined, ← h]

namespace Interpreter

/-- What an operator gives has no line. -/
theorem fst_settle_unlined (it it' : Interpreter) (op op' : Token) {value : Except Refusal Token}
    {foretold : Except Failure Kind} (h : Foretold value foretold) :
    (it'.settle op' value).1 = (it.settle op value).1.map Token.unlined := by
  cases h with
  | @value t k hwell hkind hline hne => exact congrArg Except.ok (Token.unlined_eq hline).symm
  | failure cause => rfl

theorem fst_traceBinary (it : Interpreter) (op x y : Token) :
    (it.traceBinary op x y).1 = (it.applyBinary op x y).1 := by
  unfold traceBinary
  generalize it.applyBinary op x y = applied
  obtain ⟨result, it'⟩ := applied
  cases result with
  | error defect => rfl
  | ok v => rfl

/-- **A value is the same when lines are forgotten**, whatever the record. -/
theorem fst_evaluate_unlined {n : Node} (h : n.WellFormed) {it it' : Interpreter}
    (hoptions : it'.options = it.options) :
    (it'.evaluate n.unlined).1 = (it.evaluate n).1.map Token.unlined := by
  induction h generalizing it it' with
  | @literal t ht =>
    rw [Node.unlined, evaluate_literal, evaluate_literal]
    rfl
  | @unary op x hx ih =>
    obtain ⟨v, it₁, hv, hholds⟩ := it.evaluate_verdict hx
    obtain ⟨v', it₁', hv', -⟩ := it'.evaluate_verdict hx.unlined
    have hsame := ih hoptions
    rw [hv, hv'] at hsame
    cases hsame
    rw [Node.unlined, evaluate_unary hv, evaluate_unary hv']
    exact fst_settle_unlined it₁ it₁' op op.unlined (foretold_unaryValue op hholds.wellFormed)
  | @binary op x y hx hy ihx ihy =>
    obtain ⟨v, it₁, hv, hleft⟩ := it.evaluate_verdict hx
    obtain ⟨v', it₁', hv', hleft'⟩ := it'.evaluate_verdict hx.unlined
    have hoptions₁ : it₁'.options = it₁.options :=
      (hleft'.adds.options.trans hoptions).trans hleft.adds.options.symm
    obtain ⟨w, it₂, hw, hright⟩ := it₁.evaluate_verdict hy
    obtain ⟨w', it₂', hw', hright'⟩ := it₁'.evaluate_verdict hy.unlined
    have hoptions₂ : it₂'.options = it₂.options :=
      (hright'.adds.options.trans hoptions₁).trans hright.adds.options.symm
    have hsame := ihx hoptions
    have hsame' := ihy hoptions₁
    rw [hv, hv'] at hsame
    rw [hw, hw'] at hsame'
    cases hsame
    cases hsame'
    rw [Node.unlined, evaluate_binary hv hw, evaluate_binary hv' hw', fst_traceBinary,
      fst_traceBinary, applyBinary, applyBinary, hoptions₂]
    exact fst_settle_unlined it₂ it₂' op op.unlined
      (foretold_binaryValue it₂.options op hleft.wellFormed hright.wellFormed)
  | @grouping opening closing x hx ih =>
    obtain ⟨v, it₁, hv, hholds⟩ := it.evaluate_verdict hx
    obtain ⟨v', it₁', hv', hholds'⟩ := it'.evaluate_verdict hx.unlined
    have hsame := ih hoptions
    rw [hv, hv'] at hsame
    cases hsame
    rw [Node.unlined, evaluate_grouping hv, evaluate_grouping hv']
    have hnull : it₁'.options.nullGroupings = it₁.options.nullGroupings := by
      rw [hholds'.adds.options, hholds.adds.options, hoptions]
    unfold groupValue
    rw [hnull]
    cases it₁.options.nullGroupings with
    | true => rfl
    | false => rfl

/-! ## Printing -/

/-- The record `it'` comes of `it` by printing `text`, whatever is reported and traced. -/
structure Prints (it it' : Interpreter) (text : String) : Prop where
  options : it'.options = it.options
  output : it'.output = it.output ++ text

theorem Prints.trans {it it' it'' : Interpreter} {text text' : String} (h : it.Prints it' text)
    (h' : it'.Prints it'' text') : it.Prints it'' (text ++ text') :=
  ⟨h'.options.trans h.options, by rw [h'.output, h.output, String.append_assoc]⟩

theorem Adds.prints {it it' : Interpreter} {ds : List Diagnostic} (h : it.Adds it' ds) :
    it.Prints it' "" :=
  ⟨h.options, by rw [h.output, String.append_empty]⟩

theorem Adds.prints_then {it it' it'' : Interpreter} {ds : List Diagnostic} {text : String}
    (h : it.Adds it' ds) (h' : it'.Prints it'' text) : it.Prints it'' text :=
  ⟨h'.options.trans h.options, by rw [h'.output, h.output]⟩

theorem execute_unlined {n : Node} (h : n.IsStatement) {it it' : Interpreter}
    (hoptions : it'.options = it.options) :
    ∃ text it₁ it₁', it.execute n = (.ok (), it₁) ∧ it'.execute n.unlined = (.ok (), it₁') ∧
      it.Prints it₁ text ∧ it'.Prints it₁' text := by
  cases h with
  | @print e he =>
    obtain ⟨v, it₁, hv, hholds⟩ := it.evaluate_verdict he
    obtain ⟨v', it₁', hv', hholds'⟩ := it'.evaluate_verdict he.unlined
    have hsame := fst_evaluate_unlined he hoptions
    rw [hv, hv'] at hsame
    cases hsame
    have htext : v.unlined.toText = v.toText := rfl
    unfold execute Node.unlined
    dsimp only
    rw [hv, hv']
    dsimp only
    rw [htext]
    cases hk : v.kind.isPrintable with
    | true =>
      obtain ⟨text, htext⟩ := toText_of_isPrintable hholds.wellFormed hk
      rw [htext]
      refine ⟨text.display ++ "\n", _, _, rfl, rfl, ⟨hholds.adds.options, ?_⟩,
        ⟨hholds'.adds.options, ?_⟩⟩
      · rw [printLine, hholds.adds.output, String.append_assoc]
      · rw [printLine, hholds'.adds.output, String.append_assoc]
    | false =>
      rw [toText_of_not_isPrintable hk]
      exact ⟨"", _, _, rfl, rfl, (hholds.adds.trans (it₁.adds_report _ v)).prints,
        (hholds'.adds.trans (it₁'.adds_report _ v.unlined)).prints⟩
  | @expression e he =>
    obtain ⟨v, it₁, hv, hholds⟩ := it.evaluate_verdict he
    obtain ⟨v', it₁', hv', hholds'⟩ := it'.evaluate_verdict he.unlined
    refine ⟨"", it₁, it₁', ?_, ?_, hholds.adds.prints, hholds'.adds.prints⟩
    · unfold execute
      dsimp only
      rw [hv]
    · unfold execute Node.unlined
      dsimp only
      rw [hv']

/-- **What statements print is the same when lines are forgotten**, whatever the record. -/
theorem run_unlined {ns : List Node} (h : ∀ n ∈ ns, n.IsStatement) {it it' : Interpreter}
    (hoptions : it'.options = it.options) :
    ∃ text it₁ it₁', it.run ns = (.ok (), it₁) ∧
      it'.run (ns.map Node.unlined) = (.ok (), it₁') ∧
      it.Prints it₁ text ∧ it'.Prints it₁' text := by
  induction ns generalizing it it' with
  | nil => exact ⟨"", it, it', rfl, rfl, (Adds.refl it).prints, (Adds.refl it').prints⟩
  | cons n ns ih =>
    obtain ⟨hn, hns⟩ := List.forall_mem_cons.mp h
    obtain ⟨text, it₁, it₁', hexecute, hexecute', hprints, hprints'⟩ := execute_unlined hn hoptions
    have hoptions₁ : it₁'.options = it₁.options :=
      (hprints'.options.trans hoptions).trans hprints.options.symm
    obtain ⟨later, it₂, it₂', hrun, hrun', hlater, hlater'⟩ := ih hns hoptions₁
    refine ⟨text ++ later, it₂, it₂', ?_, ?_, hprints.trans hlater, hprints'.trans hlater'⟩
    · rw [run, hexecute]
      exact hrun
    · rw [List.map_cons, run, hexecute']
      exact hrun'

/-- What statements print. -/
def printed (o : Options) (ns : List Node) : String := ((ofOptions o {}).run ns).2.output

theorem printed_unlined {ns : List Node} (h : ∀ n ∈ ns, n.IsStatement) (o : Options) :
    printed o (ns.map Node.unlined) = printed o ns := by
  have hoptions : (ofOptions o {}).options = (ofOptions o {}).options := rfl
  obtain ⟨text, it₁, it₁', hrun, hrun', hprints, hprints'⟩ := run_unlined h hoptions
  rw [printed, printed, hrun, hrun', hprints.output, hprints'.output]

/-- Statements print the same on every record with the same settings. -/
theorem run_prints (it : Interpreter) {ns : List Node} (h : ∀ n ∈ ns, n.IsStatement) :
    ∃ it', it.run ns = (.ok (), it') ∧ it.Prints it' (printed it.options ns) := by
  have hoptions : (ofOptions it.options {}).options = it.options := rfl
  obtain ⟨text, it₁, it₁', hrun, hrun', hprints, hprints'⟩ := run_unlined h hoptions
  have htext : printed it.options ns = text := by
    rw [← printed_unlined h, printed, hrun', hprints'.output]
    exact String.empty_append
  rw [htext]
  exact ⟨it₁, hrun, hprints⟩

/-- **What statements print is what they print one after the other.** -/
theorem printed_append {ns ms : List Node} (hns : ∀ n ∈ ns, n.IsStatement)
    (hms : ∀ n ∈ ms, n.IsStatement) (o : Options) :
    printed o (ns ++ ms) = printed o ns ++ printed o ms := by
  obtain ⟨it₁, hrun, hprints⟩ := (ofOptions o {}).run_prints hns
  obtain ⟨it₂, hrun', hprints'⟩ := it₁.run_prints hms
  have hoptions : it₁.options = o := hprints.options
  have houtput : it₁.output = printed o ns := hprints.output.trans String.empty_append
  have hboth : (ofOptions o {}).run (ns ++ ms) = (.ok (), it₂) := (run_append hrun ms).trans hrun'
  rw [printed, hboth, hprints'.output, houtput, hoptions]

end Interpreter

end Scriptlet
