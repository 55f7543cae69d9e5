import Scriptlet.Eval.Program
import Scriptlet.Proofs.Consumption
import Scriptlet.Proofs.Descent
import Scriptlet.Proofs.StackEvaluation
import Scriptlet.Proofs.Typing

/-!
# Safety of a run

What the stages hand on to one another is typed, and so no run ends with a defect.

* `Scanner.wellFormed_tokenize`: tokens have the payloads that their kinds demand.
* `exists_typed_of_mem`: statements are made from typed expressions.
* `Machine.Typed`: what is pending and what has been computed is typed, and no report blames an
  operator. `Machine.Typed.step`: a typed machine whose frames find their operands goes on to a
  typed machine, or ends with a well-formed value (progress and preservation in one).
* `Interpreter.evaluate_typed`, `execute_typed`, `run_typed`: so do expressions, statements and
  programs.

`runProgram_ends_without_defect` puts the stages together for every source.
-/

namespace Scriptlet

/-! ## Reports -/

/-- The reports `after` continue the reports `before`, and no new one blames an operator. -/
def Continues (before after : Diagnostics) : Prop :=
  ∃ new : List Diagnostic, after = before ++ new ∧ ∀ d ∈ new, isUnsupported d.message = false

namespace Continues

theorem refl (g : Diagnostics) : Continues g g := ⟨[], rfl, by simp⟩

theorem trans {g g' g'' : Diagnostics} (h : Continues g g') (h' : Continues g' g'') :
    Continues g g'' := by
  obtain ⟨new, rfl, hnew⟩ := h
  obtain ⟨newer, rfl, hnewer⟩ := h'
  refine ⟨new ++ newer, (Diagnostics.append_append ..).symm, fun d hd => ?_⟩
  exact (List.mem_append.mp hd).elim (hnew d) (hnewer d)

theorem report {cause : Failure} (h : cause.blamesOperator = false) (it : Interpreter)
    (origin : Token) : Continues it.reports (it.report cause.message origin).reports := by
  refine ⟨[_], rfl, fun d hd => ?_⟩
  rw [List.mem_singleton.mp hd]
  exact cause.isUnsupported_message h

end Continues

/-! ## Tokens and trees -/

/-- Laying a line out forgets no width. -/
theorem Margin.widths_layOut {m : Margin} (h : m.widths ≠ []) (width : Nat) :
    (m.layOut width).after.widths ≠ [] := by
  unfold Margin.layOut
  split
  · exact List.cons_ne_nil _ _
  · dsimp only
    generalize unwind width m.widths none _ = unwound
    split
    · exact List.cons_ne_nil _ _
    · exact h

namespace Scanner

/-- **The tokens of a source are well formed.** -/
theorem wellFormed_tokenize (s : Scanner) : ∀ t ∈ s.tokenize.tokens, t.WellFormed := by
  obtain ⟨ts, ms, ds, htokens, hmarkers, -, hrecorded⟩ := tokenize_recorded s
  intro t ht
  rw [htokens] at ht
  rcases List.mem_append.mp ht with ht | ht
  · exact (hrecorded.wellFormed t ht).1
  · exact (hmarkers t ht).1.wellFormed

theorem continues_tokenize (s : Scanner) : Continues s.reports s.tokenize.reports := by
  obtain ⟨ts, ms, ds, -, -, hreports, hrecorded⟩ := tokenize_recorded s
  refine ⟨ds, hreports, fun d hd => ?_⟩
  obtain ⟨f, before, rfl⟩ := hrecorded.exists_fault d hd
  exact f.isUnsupported_message

/-- There is always a width to compare the next line with. -/
theorem widths_round {s : Scanner} (h : s.widths ≠ []) : s.round.widths ≠ [] := by
  have hmargin : s.round.widths = s.begun.margin.widths :=
    congrArg Margin.widths (sameBlocks_round s).margin
  rw [hmargin, margin_begun]
  split
  · exact Margin.widths_layOut h _
  · exact h

theorem widths_rounds (s : Scanner) : s.widths ≠ [] → ∀ r ∈ s.rounds, r.widths ≠ [] := by
  induction s using rounds_induction with
  | ended s hend =>
    intro _ r hr
    rw [rounds, if_pos hend] at hr
    cases hr
  | next s hrest ih =>
    intro h r hr
    rw [rounds, if_neg hrest] at hr
    rcases List.mem_cons.mp hr with rfl | hr
    · exact h
    · exact ih (widths_round h) r hr

end Scanner

/-- **Statements are made from typed expressions**: no other nodes, with well-formed leaves and with
the operators of the grammar. -/
theorem exists_typed_of_mem {ts : List Token} (h : ∀ t ∈ ts, t.WellFormed) {n : Node}
    (hn : n ∈ (parseProgram ts).value) :
    ∃ e, (n = .print e ∨ n = .expression e) ∧ e.Grammatical Token.WellFormed := by
  obtain ⟨us, e, rest, issues, hus, hderives, hn⟩ := exists_derives_of_mem hn
  have hmissing : (Token.ofKind .endOfInput).WellFormed := rfl
  exact ⟨e, hn, (hderives.grammatical hmissing fun t ht _ => h t (hus.subset ht)).1⟩

theorem continues_parse (p : Parser) : Continues p.reports p.parse.2.reports := by
  refine ⟨_, p.parse_eq.2.1, fun d hd => ?_⟩
  obtain ⟨i, -, rfl⟩ := List.mem_map.mp hd
  exact i.complaint.isUnsupported_message

/-! ## Evaluation -/

/-- A pending step over typed expressions and operators of the grammar. -/
def Frame.Typed : Frame → Prop
  | visit n => n.Grammatical Token.WellFormed
  | unary op => op.kind ∈ prefixOperators
  | binary op => ∃ l : Level, op.kind ∈ l.operators
  | grouping => True

namespace Interpreter

theorem reports_debug (it : Interpreter) (level : Int) (message : String) :
    (it.debug level message).reports = it.reports := by
  unfold debug
  split
  · rfl
  · rfl

/-- A regular result is a well-formed value in the end. -/
theorem settle_typed (it : Interpreter) (op : Token) {value : Except Refusal Token}
    (h : Regular value) : ∃ v it', it.settle op value = (.ok v, it') ∧ v.WellFormed ∧
      Continues it.reports it'.reports := by
  cases h with
  | value ht => exact ⟨_, it, rfl, ht, .refl _⟩
  | failure hcause => exact ⟨.nothing, _, rfl, rfl, .report hcause it op⟩

theorem applyUnary_typed (it : Interpreter) {op x : Token} (hop : op.kind ∈ prefixOperators)
    (hx : x.WellFormed) : ∃ v it', it.applyUnary op x = (.ok v, it') ∧ v.WellFormed ∧
      Continues it.reports it'.reports :=
  it.settle_typed op (regular_unaryValue hop hx)

theorem traceBinary_typed (it : Interpreter) {l : Level} {op x y : Token}
    (hop : op.kind ∈ l.operators) (hx : x.WellFormed) (hy : y.WellFormed) :
    ∃ v it', it.traceBinary op x y = (.ok v, it') ∧ v.WellFormed ∧
      Continues it.reports it'.reports := by
  obtain ⟨v, it', hsettle, hv, hreports⟩ :=
    it.settle_typed op (regular_binaryValue it.options hop hx hy)
  unfold traceBinary applyBinary
  rw [hsettle]
  refine ⟨v, _, rfl, hv, ?_⟩
  split
  · rw [reports_debug]
    exact hreports
  · exact hreports

end Interpreter

namespace Machine

/-- What is pending and what has been computed is typed, and no report made after `before` blames an
operator. -/
structure Typed (before : Diagnostics) (m : Machine) : Prop where
  frames : ∀ f ∈ m.frames, f.Typed
  values : ∀ v ∈ m.values, v.WellFormed
  reports : Continues before m.record.reports

variable {before : Diagnostics}

theorem typed_start (it : Interpreter) {n : Node} (h : n.Grammatical Token.WellFormed) :
    (start it n).Typed it.reports where
  frames f hf := by rw [List.mem_singleton.mp hf]; exact h
  values v hv := by cases hv
  reports := .refl _

/-- The result of an operator goes on the values. -/
theorem typed_ofResult {result : Except Defect Token × Interpreter} {it : Interpreter}
    {frames : List Frame} {values : List Token}
    (hresult : ∃ v it', result = (.ok v, it') ∧ v.WellFormed ∧ Continues it.reports it'.reports)
    (hreports : Continues before it.reports) (hframes : ∀ f ∈ frames, f.Typed)
    (hvalues : ∀ v ∈ values, v.WellFormed) :
    ∃ m, Outcome.ofResult result frames values = .running m ∧ m.Typed before := by
  obtain ⟨v, it', rfl, hv, hmore⟩ := hresult
  refine ⟨_, rfl, hframes, ?_, hreports.trans hmore⟩
  intro w hw
  rcases List.mem_cons.mp hw with rfl | hw
  · exact hv
  · exact hvalues w hw

/-- **Progress and preservation.** A typed machine whose frames find their operands goes on to a
typed machine, or ends with a well-formed value. -/
theorem Typed.step {m : Machine} (h : m.Typed before) (hbalanced : m.Balanced) :
    (∃ m', m.step = .running m' ∧ m'.Typed before) ∨
      ∃ v it, m.step = .ended (.ok v) it ∧ v.WellFormed ∧ Continues before it.reports := by
  obtain ⟨hframes, hvalues, hreports⟩ := h
  unfold Balanced at hbalanced
  fun_cases Machine.step m with
  | case1 it v values => exact .inr ⟨v, it, rfl, hvalues v List.mem_cons_self, hreports⟩
  | case2 it => cases hbalanced
  | case3 it t frames values =>
    obtain ⟨htop, htail⟩ := List.forall_mem_cons.mp hframes
    cases htop with
    | literal ht =>
      exact .inl ⟨_, rfl, htail, List.forall_mem_cons.mpr ⟨ht, hvalues⟩, hreports⟩
  | case4 it op x frames values =>
    obtain ⟨htop, htail⟩ := List.forall_mem_cons.mp hframes
    cases htop with
    | unary hop _ hx =>
      refine .inl ⟨_, rfl, List.forall_mem_cons.mpr ⟨hx, ?_⟩, hvalues, hreports⟩
      exact List.forall_mem_cons.mpr ⟨hop, htail⟩
  | case5 it x op y frames values =>
    obtain ⟨htop, htail⟩ := List.forall_mem_cons.mp hframes
    cases htop with
    | @binary l _ _ _ hop _ _ hx hy =>
      refine .inl ⟨_, rfl, List.forall_mem_cons.mpr ⟨hx, ?_⟩, hvalues, hreports⟩
      exact List.forall_mem_cons.mpr ⟨hy, List.forall_mem_cons.mpr ⟨⟨l, hop⟩, htail⟩⟩
  | case6 it opening x closing frames values =>
    obtain ⟨htop, htail⟩ := List.forall_mem_cons.mp hframes
    cases htop with
    | grouping _ hx =>
      refine .inl ⟨_, rfl, List.forall_mem_cons.mpr ⟨hx, ?_⟩, hvalues, hreports⟩
      exact List.forall_mem_cons.mpr ⟨trivial, htail⟩
  | case7 it n frames values hlit hun hbin hgroup =>
    -- a typed expression is of one of the forms above
    cases (List.forall_mem_cons.mp hframes).1 with
    | literal => exact (hlit _ rfl).elim
    | unary => exact (hun _ _ rfl).elim
    | binary => exact (hbin _ _ _ rfl).elim
    | grouping => exact (hgroup _ _ _ rfl).elim
  | case8 it op frames x values =>
    obtain ⟨hop, htail⟩ := List.forall_mem_cons.mp hframes
    obtain ⟨hx, hbelow⟩ := List.forall_mem_cons.mp hvalues
    exact .inl (typed_ofResult (it.applyUnary_typed hop hx) hreports htail hbelow)
  | case10 it op frames y x values =>
    obtain ⟨⟨l, hop⟩, htail⟩ := List.forall_mem_cons.mp hframes
    obtain ⟨hy, hbelow⟩ := List.forall_mem_cons.mp hvalues
    obtain ⟨hx, hbelow⟩ := List.forall_mem_cons.mp hbelow
    exact .inl (typed_ofResult (it.traceBinary_typed hop hx hy) hreports htail hbelow)
  | case13 it frames x values =>
    obtain ⟨-, htail⟩ := List.forall_mem_cons.mp hframes
    obtain ⟨hx, hbelow⟩ := List.forall_mem_cons.mp hvalues
    have hgroup : (it.groupValue x).WellFormed := by
      unfold Interpreter.groupValue
      split
      · exact rfl
      · exact hx
    exact .inl ⟨_, rfl, htail, List.forall_mem_cons.mpr ⟨hgroup, hbelow⟩, hreports⟩
  -- an operator that finds no operand is out of balance
  | case9 it op frames => exact absurd hbalanced.1 (Nat.not_succ_le_zero 0)
  | case11 it op frames y => exact absurd hbalanced.1 (Nat.not_succ_le_self 1)
  | case12 it op frames => exact absurd hbalanced.1 (Nat.not_succ_le_zero 1)
  | case14 it frames => exact absurd hbalanced.1 (Nat.not_succ_le_zero 0)

/-- **A run stays typed.** -/
theorem Reaches.typed {m m' : Machine} (h : m.Reaches m') (htyped : m.Typed before)
    (hbalanced : m.Balanced) : m'.Typed before := by
  induction h with
  | refl => exact htyped
  | @step a b c hstep _ ih =>
    rcases htyped.step hbalanced with ⟨b', hb', hnext⟩ | ⟨v, it, hended, -⟩
    · obtain rfl : b = b' := by
        rw [hstep] at hb'
        exact Outcome.running.inj hb'
      exact ih hnext (hbalanced.next hstep)
    · rw [hstep] at hended
      cases hended

end Machine

namespace Interpreter

/-- A typed expression has a well-formed value. -/
theorem evaluate_typed (it : Interpreter) {n : Node} (h : n.Grammatical Token.WellFormed) :
    ∃ v it', it.evaluate n = (.ok v, it') ∧ v.WellFormed ∧ Continues it.reports it'.reports := by
  have hstart := Machine.typed_start it h
  have hbalanced := Machine.balanced_start it n
  obtain ⟨last, hreaches, hended⟩ := Machine.exists_reaches_ended (Machine.start it n)
  have hlast := hreaches.typed hstart hbalanced
  rcases hlast.step (hreaches.balanced hbalanced) with ⟨m, hm, -⟩ | ⟨v, it', hv, hwell, hreports⟩
  · rw [hended] at hm
    cases hm
  · rw [hended] at hv
    obtain ⟨hresult, hrecord⟩ := Outcome.ended.inj hv
    exact ⟨v, it', Prod.ext hresult hrecord, hwell, hreports⟩

/-- A statement over a typed expression is executed. -/
theorem execute_typed (it : Interpreter) {n e : Node} (hn : n = .print e ∨ n = .expression e)
    (he : e.Grammatical Token.WellFormed) :
    ∃ it', it.execute n = (.ok (), it') ∧ Continues it.reports it'.reports := by
  obtain ⟨v, it', hevaluate, hv, hreports⟩ := it.evaluate_typed he
  rcases hn with rfl | rfl
  · unfold execute
    dsimp only
    rw [hevaluate]
    dsimp only
    rcases hv.coerced_toText with ⟨text, htext⟩ | ⟨fault, hfault⟩
    · rw [htext]
      exact ⟨_, rfl, hreports⟩
    · rw [hfault]
      exact ⟨_, rfl, hreports.trans (.report rfl it' v)⟩
  · unfold execute
    dsimp only
    rw [hevaluate]
    exact ⟨it', rfl, hreports⟩

/-- Statements over typed expressions are executed, all of them. -/
theorem run_typed {ns : List Node} (h : ∀ n ∈ ns, ∃ e, (n = .print e ∨ n = .expression e) ∧
    e.Grammatical Token.WellFormed) (it : Interpreter) :
    ∃ it', it.run ns = (.ok (), it') ∧ Continues it.reports it'.reports := by
  induction ns generalizing it with
  | nil => exact ⟨it, rfl, .refl _⟩
  | cons n ns ih =>
    obtain ⟨⟨e, hn, he⟩, hrest⟩ := List.forall_mem_cons.mp h
    obtain ⟨it', hexecute, hreports⟩ := it.execute_typed hn he
    obtain ⟨it'', hrun, hreports'⟩ := ih hrest it'
    rw [run, hexecute]
    exact ⟨it'', hrun, hreports.trans hreports'⟩

/-! ## Whole runs -/

theorem reports_traceTokens (it : Interpreter) (ts : List Token) :
    (it.traceTokens ts).reports = it.reports := by
  unfold traceTokens
  dsimp only
  split
  · rw [reports_debug, reports_debug]
  · rw [reports_debug]

theorem reports_traceStatements (it : Interpreter) (ns : List Node) :
    (it.traceStatements ns).reports = it.reports := by
  have hfold : ∀ it : Interpreter,
      (ns.foldl (fun it n => it.debug 2 n.raw.toDocument.json) it).reports = it.reports := by
    induction ns with
    | nil => exact fun _ => rfl
    | cons n ns ih =>
      intro it
      rw [List.foldl_cons, ih, reports_debug]
  unfold traceStatements
  dsimp only
  split
  · rw [hfold, reports_debug]
  · rw [reports_debug]

theorem runTokens_typed (it : Interpreter) {ts : List Token} (h : ∀ t ∈ ts, t.WellFormed) :
    ∃ done it', it.runTokens ts = (.ok done, it') ∧ Continues it.reports it'.reports := by
  have hparse := continues_parse (Parser.ofTokens ts it.reports)
  have htyped : ∀ n ∈ (Parser.ofTokens ts it.reports).parse.1, ∃ e,
      (n = .print e ∨ n = .expression e) ∧ e.Grammatical Token.WellFormed :=
    fun n hn => exists_typed_of_mem h hn
  unfold runTokens
  generalize (Parser.ofTokens ts it.reports).parse = parsed at hparse htyped
  obtain ⟨statements, parser⟩ := parsed
  have hstart : Continues it.reports
      ((it.withReports parser.reports).traceStatements statements).reports := by
    rw [reports_traceStatements]
    exact hparse
  dsimp only
  split
  · exact ⟨false, _, rfl, hstart⟩
  · obtain ⟨it', hrun, hreports⟩ := run_typed htyped
      ((it.withReports parser.reports).traceStatements statements)
    rw [hrun]
    exact ⟨true, it', rfl, hstart.trans hreports⟩

theorem runSource_typed (it : Interpreter) (source : String) :
    ∃ done it', it.runSource source = (.ok done, it') ∧ Continues it.reports it'.reports := by
  have hscan := (Scanner.ofSource source it.reports).continues_tokenize
  have hwell := (Scanner.ofSource source it.reports).wellFormed_tokenize
  unfold runSource
  generalize (Scanner.ofSource source it.reports).tokenize = scanner at hscan hwell
  have hstart : Continues it.reports
      ((it.withReports scanner.reports).traceTokens scanner.tokens).reports := by
    rw [reports_traceTokens]
    exact hscan
  dsimp only
  split
  · exact ⟨false, _, rfl, hstart⟩
  · split
    · exact ⟨true, _, rfl, hstart⟩
    · obtain ⟨done, it', hrun, hreports⟩ := runTokens_typed
        ((it.withReports scanner.reports).traceTokens scanner.tokens) hwell
      exact ⟨done, it', hrun, hstart.trans hreports⟩

end Interpreter

/-- **No run ends with a defect.** Whatever the source and the settings, the run tells whether the
program was executed, and no new report blames an operator. On the way, every token is well formed,
there is always a width to compare a line with, the methods of the descent read the program without
a step off the list of tokens, the trees are typed expressions under statements, and an evaluation
goes only through well-formed values and never from a machine to a defect. -/
theorem runProgram_ends_without_defect (source : String) (o : Options)
    (earlier : Diagnostics) :
    let s := Scanner.ofSource source earlier
    let p := Parser.ofTokens s.tokenize.tokens s.tokenize.reports
    (∃ done, (runProgram source o earlier).1 = .ok done) ∧
    (∃ new : List Diagnostic, (runProgram source o earlier).2.reports = earlier ++ new ∧
      ∀ d ∈ new, isUnsupported d.message = false) ∧
    (∀ t ∈ s.tokenize.tokens, t.WellFormed) ∧ (∀ r ∈ s.rounds, r.widths ≠ []) ∧
    Descent.program.Gives p p.parse.1 p.parse.2 ∧ p.parse.2.rest <:+ p.tokens ∧
    ∀ n ∈ p.parse.1, ∃ e, (n = .print e ∨ n = .expression e) ∧ e.Grammatical Token.WellFormed ∧
      ∀ it m, (Machine.start it e).Reaches m → (∀ v ∈ m.values, v.WellFormed) ∧
        ∀ defect it', m.step ≠ .ended (.error defect) it' := by
  intro s p
  obtain ⟨done, it, hrun, hreports⟩ := (Interpreter.ofOptions o earlier).runSource_typed source
  refine ⟨⟨done, ?_⟩, ?_, s.wellFormed_tokenize, s.widths_rounds (List.cons_ne_nil 0 []),
    Descent.gives_program p, ?_, fun n hn => ?_⟩
  · unfold runProgram
    rw [hrun]
  · unfold runProgram
    rw [hrun]
    exact hreports
  · obtain ⟨used, -, hused, -⟩ :=
      parseProgram_accounted s.tokenize.tokens (line_ne_zero s.one_le_line_tokenize)
    exact ⟨used, hused.symm⟩
  · obtain ⟨e, hn, he⟩ := exists_typed_of_mem s.wellFormed_tokenize hn
    refine ⟨e, hn, he, fun it m hm => ?_⟩
    have hbalanced := Machine.balanced_start it e
    have htyped := hm.typed (Machine.typed_start it he) hbalanced
    refine ⟨htyped.values, fun defect it' hdefect => ?_⟩
    rcases htyped.step (hm.balanced hbalanced) with ⟨m', hm', -⟩ | ⟨v, it'', hended, -⟩
    · rw [hdefect] at hm'
      cases hm'
    · rw [hdefect] at hended
      cases hended

/-- `print -a` and a parenthesis that misses its inside: the sign is applied to a name, which fails,
and a missing expression cannot be printed. -/
theorem sample_ends_without_defect :
    let source := "print -a\nprint ()\n"
    let s := Scanner.ofSource source {}
    let name : Token := ⟨.identifier, "a", .text "a", 1⟩
    name ∈ s.tokenize.tokens ∧ name.WellFormed ∧
      (runProgram source {} {}).2.reports.records.map Diagnostic.message =
        ["unary '-': expected number, got identifier",
         "cannot print value: cannot convert eof to string"] ∧
      ∃ done, (runProgram source {} {}).1 = .ok done := by
  intro source s name
  have hname : name ∈ s.tokenize.tokens := by decide +kernel
  obtain ⟨hdone, -, hwell, -⟩ := runProgram_ends_without_defect source {} {}
  exact ⟨hname, hwell name hname, by decide +kernel, hdone⟩

end Scriptlet
