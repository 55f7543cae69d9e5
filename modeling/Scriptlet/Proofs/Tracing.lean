import Scriptlet.Proofs.OneLine
import Scriptlet.Proofs.Stages

/-!
# Tracing is an observer

Two runs that differ in the level of the trace alone do the same, and the closer one traces what the
other traces, and more. Every message keeps to one line.

* `Interpreter.Watched`: a record, and the same one watched at least as closely. `Agree`: two runs
  with the same result that lead to such records. Every step of a run keeps this (`agree_settle` for
  operators, `agree_meaning` for trees, `agree_run` for statements, `agree_runSource` for sources).
* `Node.Traceable`: the operators of a tree are shown on one line. `traceable_of_mem`: those of a
  source are.
* `Interpreter.Tidy`: all that is traced is on one line. Every step keeps this too.

`tracing_observes` puts both together for every source and any two levels.
-/

namespace Scriptlet

namespace Interpreter

/-! ## Two runs side by side -/

/-- The record `it'` is that of `it`, watched at least as closely. -/
structure Watched (it it' : Interpreter) : Prop where
  cascade : it'.options.cascadeEquality = it.options.cascadeEquality
  groupings : it'.options.nullGroupings = it.options.nullGroupings
  level : it.options.debugLevel ≤ it'.options.debugLevel
  tracing : it.tracing = true → it'.tracing = true
  output : it'.output = it.output
  reports : it'.reports = it.reports
  trace : it.trace.Sublist it'.trace

/-- Two runs give the same, and the second is watched at least as closely. -/
def Agree {α : Type} (r r' : α × Interpreter) : Prop := r'.1 = r.1 ∧ r.2.Watched r'.2

/-- What the second run comes to. -/
theorem Agree.exists_eq {α : Type} {r r' : α × Interpreter} (h : Agree r r') {result : α}
    {it : Interpreter} (hr : r = (result, it)) : ∃ it', r' = (result, it') ∧ it.Watched it' := by
  subst hr
  obtain ⟨result', it'⟩ := r'
  obtain ⟨rfl, hwatched⟩ : result' = result ∧ it.Watched it' := h
  exact ⟨it', rfl, hwatched⟩

variable {it it' : Interpreter}

theorem watched_ofOptions {level level' : Int} (h : level ≤ level') (cascade groupings : Bool)
    (reports : Diagnostics) :
    (ofOptions ⟨level, cascade, groupings⟩ reports).Watched
      (ofOptions ⟨level', cascade, groupings⟩ reports) := by
  refine ⟨rfl, rfl, h, fun htracing => ?_, rfl, rfl, .refl _⟩
  have hpos : 0 < level := of_decide_eq_true htracing
  exact decide_eq_true (Int.lt_of_lt_of_le hpos h)

theorem Watched.traces (h : it.Watched it') {level : Int} (ht : it.traces level = true) :
    it'.traces level = true := by
  rw [Interpreter.traces, Bool.and_eq_true, decide_eq_true_eq] at ht ⊢
  exact ⟨Int.le_trans ht.1 h.level, h.tracing ht.2⟩

theorem Watched.debug (h : it.Watched it') (level : Int) (message : String) :
    (it.debug level message).Watched (it'.debug level message) := by
  obtain ⟨hcascade, hgroupings, hlevel, htracing, houtput, hreports, htrace⟩ := h
  unfold Interpreter.debug
  cases ht : it.traces level with
  | true =>
    rw [Watched.traces ⟨hcascade, hgroupings, hlevel, htracing, houtput, hreports, htrace⟩ ht]
    exact ⟨hcascade, hgroupings, hlevel, htracing, houtput, hreports, htrace.append (.refl _)⟩
  | false =>
    cases it'.traces level with
    | true =>
      exact ⟨hcascade, hgroupings, hlevel, htracing, houtput, hreports,
        htrace.trans (List.sublist_append_left _ _)⟩
    | false => exact ⟨hcascade, hgroupings, hlevel, htracing, houtput, hreports, htrace⟩

theorem Watched.withReports (h : it.Watched it') (reports : Diagnostics) :
    (it.withReports reports).Watched (it'.withReports reports) :=
  { h with reports := rfl }

theorem Watched.report (h : it.Watched it') (message : String) (origin : Token) :
    (it.report message origin).Watched (it'.report message origin) :=
  { h with reports := congrArg (Diagnostics.report · _) h.reports }

theorem Watched.printLine (h : it.Watched it') (text : String) :
    (it.printLine text).Watched (it'.printLine text) :=
  { h with output := congrArg (· ++ text ++ "\n") h.output }

/-! ## Steps of an evaluation -/

theorem agree_settle (h : it.Watched it') (op : Token) (value : Except Refusal Token) :
    Agree (it.settle op value) (it'.settle op value) := by
  unfold settle
  split
  · exact ⟨rfl, h⟩
  · exact ⟨rfl, h.report _ _⟩
  · exact ⟨rfl, h⟩

theorem Watched.binaryValue (h : it.Watched it') (op x y : Token) :
    it'.options.binaryValue op x y = it.options.binaryValue op x y := by
  unfold Options.binaryValue Options.equal
  rw [h.cascade]

/-- A message that is made only where it is traced is a message that is traced. -/
theorem debug_if_traces (it : Interpreter) (level : Int) (message : String) :
    (if it.traces level then it.debug level message else it) = it.debug level message := by
  unfold debug
  cases it.traces level with
  | true => rfl
  | false => rfl

theorem agree_traceBinary (h : it.Watched it') (op x y : Token) :
    Agree (it.traceBinary op x y) (it'.traceBinary op x y) := by
  unfold traceBinary applyBinary
  rw [h.binaryValue]
  cases hsettle : it.settle op (it.options.binaryValue op x y) with
  | mk result it₁ =>
  obtain ⟨it₁', hsettle', hwatched⟩ := (agree_settle h op _).exists_eq hsettle
  rw [hsettle']
  cases result with
  | ok v =>
    dsimp only
    rw [debug_if_traces, debug_if_traces]
    exact ⟨rfl, hwatched.debug _ _⟩
  | error defect => exact ⟨rfl, hwatched⟩

/-- **Trees have the same value, however closely they are watched.** -/
theorem agree_meaning (n : Node) (h : it.Watched it') : Agree (it.meaning n) (it'.meaning n) := by
  fun_induction meaning it n generalizing it' with
  | case1 it t =>
    rw [meaning]
    exact ⟨rfl, h⟩
  | case2 it op x defect it₁ hx ih =>
    obtain ⟨it₁', hx', hwatched⟩ := (ih h).exists_eq hx
    rw [meaning, hx']
    exact ⟨rfl, hwatched⟩
  | case3 it op x v it₁ hx ih =>
    obtain ⟨it₁', hx', hwatched⟩ := (ih h).exists_eq hx
    rw [meaning, hx']
    exact agree_settle hwatched op (unaryValue op v)
  | case4 it x op y defect it₁ hx ih =>
    obtain ⟨it₁', hx', hwatched⟩ := (ih h).exists_eq hx
    rw [meaning, hx']
    exact ⟨rfl, hwatched⟩
  | case5 it x op y v it₁ hx defect it₂ hy ihx ihy =>
    obtain ⟨it₁', hx', hwatched⟩ := (ihx h).exists_eq hx
    obtain ⟨it₂', hy', hwatched'⟩ := (ihy hwatched).exists_eq hy
    rw [meaning, hx']
    dsimp only
    rw [hy']
    exact ⟨rfl, hwatched'⟩
  | case6 it x op y v it₁ hx w it₂ hy ihx ihy =>
    obtain ⟨it₁', hx', hwatched⟩ := (ihx h).exists_eq hx
    obtain ⟨it₂', hy', hwatched'⟩ := (ihy hwatched).exists_eq hy
    rw [meaning, hx']
    dsimp only
    rw [hy']
    exact agree_traceBinary hwatched' op v w
  | case7 it opening x closing defect it₁ hx ih =>
    obtain ⟨it₁', hx', hwatched⟩ := (ih h).exists_eq hx
    rw [meaning, hx']
    exact ⟨rfl, hwatched⟩
  | case8 it opening x closing v it₁ hx ih =>
    obtain ⟨it₁', hx', hwatched⟩ := (ih h).exists_eq hx
    have hgroup : it₁'.groupValue v = it₁.groupValue v := by
      unfold groupValue
      rw [hwatched.groupings]
    rw [meaning, hx']
    exact ⟨congrArg Except.ok hgroup, hwatched⟩
  | case9 it n hliteral hunary hbinary hgrouping =>
    rw [meaning.eq_5 it' n hliteral hunary hbinary hgrouping]
    exact ⟨rfl, h⟩

theorem agree_evaluate (h : it.Watched it') (n : Node) :
    Agree (it.evaluate n) (it'.evaluate n) := by
  rw [evaluate_eq_meaning, evaluate_eq_meaning]
  exact agree_meaning n h

theorem agree_execute (h : it.Watched it') (n : Node) :
    Agree (it.execute n) (it'.execute n) := by
  unfold execute
  split
  · rename_i e
    cases he : it.evaluate e with
    | mk result it₁ =>
    obtain ⟨it₁', he', hwatched⟩ := (agree_evaluate h e).exists_eq he
    rw [he']
    cases result with
    | error defect => exact ⟨rfl, hwatched⟩
    | ok value =>
      dsimp only
      split
      · exact ⟨rfl, hwatched.printLine _⟩
      · split
        · exact ⟨rfl, hwatched.report _ _⟩
        · exact ⟨rfl, hwatched⟩
  · rename_i e
    cases he : it.evaluate e with
    | mk result it₁ =>
    obtain ⟨it₁', he', hwatched⟩ := (agree_evaluate h e).exists_eq he
    rw [he']
    cases result with
    | error defect => exact ⟨rfl, hwatched⟩
    | ok value => exact ⟨rfl, hwatched⟩
  · exact ⟨rfl, h⟩

/-- **Statements do the same, however closely they are watched.** -/
theorem agree_run (h : it.Watched it') (ns : List Node) : Agree (it.run ns) (it'.run ns) := by
  induction ns generalizing it it' with
  | nil => exact ⟨rfl, h⟩
  | cons n ns ih =>
    cases hn : it.execute n with
    | mk result it₁ =>
    obtain ⟨it₁', hn', hwatched⟩ := (agree_execute h n).exists_eq hn
    rw [run, run, hn, hn']
    cases result with
    | ok _ => exact ih hwatched
    | error defect => exact ⟨rfl, hwatched⟩

/-! ## Stages of a run -/

theorem Watched.foldl_debug (h : it.Watched it') (level : Int) (messages : List String) :
    (messages.foldl (fun it m => it.debug level m) it).Watched
      (messages.foldl (fun it m => it.debug level m) it') := by
  induction messages generalizing it it' with
  | nil => exact h
  | cons m messages ih => exact ih (h.debug level m)

theorem foldl_debug_of_not_traces {level : Int} (h : it.traces level = false)
    (messages : List String) : messages.foldl (fun it m => it.debug level m) it = it := by
  induction messages with
  | nil => rfl
  | cons m messages ih =>
    have hm : it.debug level m = it := by
      rw [debug, h]
      rfl
    rw [List.foldl_cons, hm, ih]

theorem traceTokens_eq (it : Interpreter) (ts : List Token) :
    it.traceTokens ts = (it.debug 1 ("tokenize: " ++ toString ts.length ++ " tokens")).debug 2
      (" ".intercalate (ts.map Token.inspect)) :=
  debug_if_traces _ _ _

theorem traceStatements_eq (it : Interpreter) (ns : List Node) :
    it.traceStatements ns = (ns.map fun n => n.raw.toDocument.json).foldl (fun it m => it.debug 2 m)
      (it.debug 1 ("parse: " ++ toString ns.length ++ " statements")) := by
  unfold traceStatements
  dsimp only
  rw [List.foldl_map]
  generalize it.debug 1 ("parse: " ++ toString ns.length ++ " statements") = it₁
  cases ht : it₁.traces 2 with
  | true => rfl
  | false =>
    have hnone := foldl_debug_of_not_traces ht (ns.map fun n => n.raw.toDocument.json)
    rw [List.foldl_map] at hnone
    exact hnone.symm

theorem agree_runTokens (h : it.Watched it') (ts : List Token) :
    Agree (it.runTokens ts) (it'.runTokens ts) := by
  unfold runTokens
  rw [h.reports]
  generalize (Parser.ofTokens ts it.reports).parse = parsed
  obtain ⟨statements, parser⟩ := parsed
  have hwatched := (h.withReports parser.reports).debug 1
    ("parse: " ++ toString statements.length ++ " statements")
  have htraced := hwatched.foldl_debug 2 (statements.map fun n => n.raw.toDocument.json)
  rw [← traceStatements_eq, ← traceStatements_eq] at htraced
  dsimp only
  split
  · exact ⟨rfl, htraced⟩
  · cases hrun : ((it.withReports parser.reports).traceStatements statements).run statements with
    | mk result it₁ =>
    obtain ⟨it₁', hrun', hwatched'⟩ := (agree_run htraced statements).exists_eq hrun
    rw [hrun']
    cases result with
    | ok _ => exact ⟨rfl, hwatched'⟩
    | error defect => exact ⟨rfl, hwatched'⟩

/-- **Sources do the same, however closely they are watched.** -/
theorem agree_runSource (h : it.Watched it') (source : String) :
    Agree (it.runSource source) (it'.runSource source) := by
  unfold runSource
  rw [h.reports]
  generalize (Scanner.ofSource source it.reports).tokenize = scanner
  have htraced := (((h.withReports scanner.reports).debug 1
    ("tokenize: " ++ toString scanner.tokens.length ++ " tokens")).debug 2
    (" ".intercalate (scanner.tokens.map Token.inspect)))
  rw [← traceTokens_eq, ← traceTokens_eq] at htraced
  dsimp only
  split
  · exact ⟨rfl, htraced⟩
  split
  · exact ⟨rfl, htraced⟩
  · exact agree_runTokens htraced scanner.tokens

end Interpreter

/-! ## Messages on one line -/

/-- The operators of binary nodes are shown on one line. -/
inductive Node.Traceable : Node → Prop
  | literal (t : Token) : Traceable (.literal t)
  | unary {op : Token} {x : Node} : Traceable x → Traceable (.unary op x)
  | binary {op : Token} {x y : Node} : OneLine op.symbol → Traceable x → Traceable y →
      Traceable (.binary x op y)
  | grouping {opening closing : Token} {x : Node} : Traceable x →
      Traceable (.grouping opening x closing)

/-- What is derived from tokens whose operators are shown on one line is traceable. -/
theorem Derives.traceable {r : Nat} {ts rest : List Token} {n : Node} {issues : List Issue}
    (h : Derives r ts n rest issues)
    (hsymbol : ∀ t ∈ ts, ∀ l : Level, t.kind ∈ l.operators → OneLine t.symbol) : n.Traceable := by
  induction h with
  | missing ts => exact .literal _
  | literal ts ht => exact .literal _
  | unary hop _ ih => exact .unary (ih fun t ht => hsymbol t (List.mem_cons_of_mem _ ht))
  | closed hclose _ _ ih => exact .grouping (ih fun t ht => hsymbol t (List.mem_cons_of_mem _ ht))
  | unclosed hclose _ ih => exact .grouping (ih fun t ht => hsymbol t (List.mem_cons_of_mem _ ht))
  | @binary l op ts us rest x y _ _ hop hx _ ihx ihy =>
    have hsub : ∀ t ∈ op :: us, t ∈ ts := fun t ht => hx.suffix.subset ht
    exact .binary (hsymbol op (hsub op List.mem_cons_self) l hop) (ihx hsymbol)
      (ihy fun t ht => hsymbol t (hsub t (List.mem_cons_of_mem op ht)))
  | operand _ ih => exact ih hsymbol

/-- A symbol that a text leaves is spelled as its kind is. -/
theorem Item.Leaves.spelled {line : Nat} {text rest : List Char} {item : Item} {ts : List Token}
    {ds : List Diagnostic} (h : item.Leaves line text ts ds) (hreads : Reads text item rest) :
    ∀ t ∈ ts, t.kind ∈ Kind.symbols → t.lexeme = t.kind.spelling := by
  have htoken : ∀ k p, item = .token k p → ∀ t ∈ [(⟨k, String.ofList text, p, line⟩ : Token)],
      t.kind ∈ Kind.symbols → t.lexeme = t.kind.spelling := by
    rintro k p rfl t ht hk
    rw [List.mem_singleton.mp ht] at hk ⊢
    cases hreads with
    | token hlexeme => exact String.toList_inj.mp (by simp [(hlexeme.of_mem_symbols hk).1])
  cases h with
  | token k p => exact htoken k p rfl
  | @unopened k f p => exact htoken k p rfl
  | comment => simp
  | newline =>
    intro t ht hk
    rw [List.mem_singleton.mp ht] at hk
    exact absurd hk (show Kind.newline ∉ Kind.symbols by decide)
  | unmarked => simp
  | flaw f => simp

theorem Recorded.spelled {number : List Char → Nat} {before text : List Char} {ts : List Token}
    {ds : List Diagnostic} (h : Recorded number before text ts ds) :
    ∀ t ∈ ts, t.kind ∈ Kind.symbols → t.lexeme = t.kind.spelling := by
  induction h with
  | done => simp
  | @item before blanks text rest item marks ts ts' faults ds ds' _ hreads hmarks _ hleaves _ ih =>
    intro t ht hk
    simp only [List.mem_append] at ht
    rcases ht with (ht | ht) | ht
    · obtain ⟨k, rfl | rfl, rfl⟩ := hmarks.marks t ht
      · exact absurd hk (show Kind.indent ∉ Kind.symbols by decide)
      · exact absurd hk (show Kind.dedent ∉ Kind.symbols by decide)
    · exact hleaves.spelled hreads t ht hk
    · exact ih t ht hk

/-- The operators of a source are shown on one line. -/
theorem Scanner.oneLine_symbol_tokenize (s : Scanner) :
    ∀ t ∈ s.tokenize.tokens, ∀ l : Level, t.kind ∈ l.operators → OneLine t.symbol := by
  have hoperators : ∀ l : Level, ∀ k ∈ l.operators,
      k ∈ Kind.symbols ∧ k.isLayout = false ∧ OneLine k.spelling := by
    intro l
    cases l <;> decide +kernel
  obtain ⟨ts, ms, ds, htokens, hmarkers, -, hrecorded⟩ := tokenize_recorded s
  intro t ht l hk
  obtain ⟨hsymbol, hlayout, hspelling⟩ := hoperators l _ hk
  rw [htokens] at ht
  rcases List.mem_append.mp ht with ht | ht
  · unfold Token.symbol
    rw [hrecorded.spelled t ht hsymbol, ite_self]
    exact hspelling
  · rw [(hmarkers t ht).1.1] at hlayout
    cases hlayout

/-- What is parsed from a source is traceable. -/
theorem traceable_of_mem {ts : List Token}
    (h : ∀ t ∈ ts, ∀ l : Level, t.kind ∈ l.operators → OneLine t.symbol) {n : Node}
    (hn : n ∈ (parseProgram ts).value) :
    ∃ e : Node, (n = .print e ∨ n = .expression e) ∧ e.Traceable := by
  obtain ⟨us, e, rest, issues, hus, hderives, hn⟩ := exists_derives_of_mem hn
  exact ⟨e, hn, hderives.traceable fun t ht => h t (hus.subset ht)⟩

namespace Interpreter

/-- All that is traced is on one line. -/
def Tidy (it : Interpreter) : Prop := ∀ m ∈ it.trace, OneLine m

variable {it : Interpreter}

theorem Tidy.debug (h : it.Tidy) (level : Int) {message : String} (hmessage : OneLine message) :
    (it.debug level message).Tidy := by
  unfold Interpreter.debug
  split
  · exact List.forall_mem_append.mpr ⟨h, List.forall_mem_singleton.mpr hmessage⟩
  · exact h

theorem Tidy.foldl_debug (h : it.Tidy) (level : Int) {messages : List String}
    (hmessages : ∀ m ∈ messages, OneLine m) :
    (messages.foldl (fun it m => it.debug level m) it).Tidy := by
  induction messages generalizing it with
  | nil => exact h
  | cons m messages ih =>
    obtain ⟨hm, hmessages⟩ := List.forall_mem_cons.mp hmessages
    exact ih (h.debug level hm) hmessages

theorem trace_settle (it : Interpreter) (op : Token) (value : Except Refusal Token) :
    (it.settle op value).2.trace = it.trace := by
  unfold settle
  split
  · rfl
  · rfl
  · rfl

theorem Tidy.traceBinary (h : it.Tidy) {op : Token} (hop : OneLine op.symbol) (x y : Token) :
    (it.traceBinary op x y).2.Tidy := by
  have hmessage : ∀ result, OneLine (applicationMessage op x y result) := fun result =>
    .append (.append (.append (.append (.append (.append x.oneLine_inspect (by decide)) hop)
      (by decide)) y.oneLine_inspect) (by decide)) result.oneLine_inspect
  have htrace : (it.settle op (it.options.binaryValue op x y)).2.Tidy := by
    unfold Tidy
    rw [trace_settle]
    exact h
  unfold Interpreter.traceBinary applyBinary
  generalize it.settle op (it.options.binaryValue op x y) = r at htrace
  obtain ⟨result, it₁⟩ := r
  cases result with
  | ok v =>
    dsimp only
    rw [debug_if_traces]
    exact Tidy.debug htrace 3 (hmessage v)
  | error defect => exact htrace

/-- **Trees are traced on one line for each operator.** -/
theorem Tidy.meaning (h : it.Tidy) {n : Node} (hn : n.Traceable) : (it.meaning n).2.Tidy := by
  induction hn generalizing it with
  | literal t =>
    rw [Interpreter.meaning]
    exact h
  | @unary op x _ ih =>
    have hx := ih h
    rw [Interpreter.meaning]
    generalize it.meaning x = r at hx
    obtain ⟨result, it₁⟩ := r
    cases result with
    | ok v =>
      show (it₁.settle op (unaryValue op v)).2.Tidy
      unfold Tidy
      rw [trace_settle]
      exact hx
    | error defect => exact hx
  | @binary op x y hop _ _ ihx ihy =>
    have hx := ihx h
    rw [Interpreter.meaning]
    generalize it.meaning x = r at hx
    obtain ⟨result, it₁⟩ := r
    cases result with
    | error defect => exact hx
    | ok v =>
      have hy := ihy hx
      dsimp only at hy ⊢
      generalize it₁.meaning y = r at hy
      obtain ⟨result, it₂⟩ := r
      cases result with
      | error defect => exact hy
      | ok w => exact Tidy.traceBinary hy hop v w
  | @grouping opening closing x _ ih =>
    have hx := ih h
    rw [Interpreter.meaning]
    generalize it.meaning x = r at hx
    obtain ⟨result, it₁⟩ := r
    cases result with
    | ok v => exact hx
    | error defect => exact hx

theorem Tidy.execute (h : it.Tidy) {n e : Node} (hn : n = .print e ∨ n = .expression e)
    (he : e.Traceable) : (it.execute n).2.Tidy := by
  have hvalue : (it.evaluate e).2.Tidy := by
    rw [evaluate_eq_meaning]
    exact h.meaning he
  unfold Interpreter.execute
  rcases hn with rfl | rfl
  · dsimp only
    generalize it.evaluate e = r at hvalue
    obtain ⟨result, it₁⟩ := r
    cases result with
    | error defect => exact hvalue
    | ok v =>
      dsimp only
      split
      · exact hvalue
      · split
        · exact hvalue
        · exact hvalue
  · dsimp only
    generalize it.evaluate e = r at hvalue
    obtain ⟨result, it₁⟩ := r
    cases result with
    | error defect => exact hvalue
    | ok v => exact hvalue

theorem Tidy.run (h : it.Tidy) {ns : List Node}
    (hns : ∀ n ∈ ns, ∃ e : Node, (n = .print e ∨ n = .expression e) ∧ e.Traceable) :
    (it.run ns).2.Tidy := by
  induction ns generalizing it with
  | nil => exact h
  | cons n ns ih =>
    obtain ⟨⟨e, hn, he⟩, hns⟩ := List.forall_mem_cons.mp hns
    have hexecuted := h.execute hn he
    rw [Interpreter.run]
    generalize it.execute n = r at hexecuted
    obtain ⟨result, it₁⟩ := r
    cases result with
    | ok _ => exact ih hexecuted hns
    | error defect => exact hexecuted

theorem Tidy.runTokens (h : it.Tidy) {ts : List Token}
    (hts : ∀ t ∈ ts, ∀ l : Level, t.kind ∈ l.operators → OneLine t.symbol) :
    (it.runTokens ts).2.Tidy := by
  obtain ⟨hvalue, -⟩ := (Parser.ofTokens ts it.reports).parse_eq
  unfold Interpreter.runTokens
  generalize (Parser.ofTokens ts it.reports).parse = parsed at hvalue
  obtain ⟨statements, parser⟩ := parsed
  have hstatements : ∀ n ∈ statements,
      ∃ e : Node, (n = .print e ∨ n = .expression e) ∧ e.Traceable := by
    intro n hn
    rw [show statements = (parseProgram ts).value from hvalue] at hn
    exact traceable_of_mem hts hn
  have hcount : OneLine ("parse: " ++ toString statements.length ++ " statements") :=
    .append (.append (by decide) (oneLine_toString_nat _)) (by decide)
  have hjson : ∀ m ∈ statements.map fun n => n.raw.toDocument.json, OneLine m := by
    intro m hm
    obtain ⟨n, -, rfl⟩ := List.mem_map.mp hm
    exact Document.oneLine_json _
  have hbefore : (it.withReports parser.reports).Tidy := h
  have htraced := (hbefore.debug 1 hcount).foldl_debug 2 hjson
  rw [← traceStatements_eq] at htraced
  dsimp only
  split
  · exact htraced
  · have hrun := htraced.run hstatements
    generalize ((it.withReports parser.reports).traceStatements statements).run statements = r
      at hrun
    obtain ⟨result, it₁⟩ := r
    cases result with
    | ok _ => exact hrun
    | error defect => exact hrun

/-- **All that a run traces is on one line.** -/
theorem Tidy.runSource (h : it.Tidy) (source : String) : (it.runSource source).2.Tidy := by
  have hsymbols := (Scanner.ofSource source it.reports).oneLine_symbol_tokenize
  unfold Interpreter.runSource
  generalize (Scanner.ofSource source it.reports).tokenize = scanner at hsymbols
  have hcount : OneLine ("tokenize: " ++ toString scanner.tokens.length ++ " tokens") :=
    .append (.append (by decide) (oneLine_toString_nat _)) (by decide)
  have hshown : OneLine (" ".intercalate (scanner.tokens.map Token.inspect)) := by
    refine .intercalate (by decide) fun m hm => ?_
    obtain ⟨t, -, rfl⟩ := List.mem_map.mp hm
    exact t.oneLine_inspect
  have hbefore : (it.withReports scanner.reports).Tidy := h
  have htraced := (hbefore.debug 1 hcount).debug 2 hshown
  rw [← traceTokens_eq] at htraced
  dsimp only
  split
  · exact htraced
  split
  · exact htraced
  · exact htraced.runTokens hsymbols

/-! ## The text of the trace -/

/-- The trace as it is written: its messages, each with a line end behind it. -/
def traceText (it : Interpreter) : String := String.join (it.trace.map (· ++ "\n"))

/-- The lines of the trace, read off its text. Behind the last line end there is an empty one. -/
def traceLines (it : Interpreter) : List (List Char) := it.traceText.toList.splitOn '\n'

/-- One line of the trace is one message. -/
theorem Tidy.traceLines_eq (h : it.Tidy) : it.traceLines = it.trace.map String.toList ++ [[]] := by
  unfold traceLines traceText
  rw [String.toList_join, List.flatMap_map]
  unfold Tidy at h
  generalize it.trace = messages at h
  induction messages with
  | nil => rfl
  | cons m messages ih =>
    obtain ⟨hm, hmessages⟩ := List.forall_mem_cons.mp h
    have hplain : ∀ c ∈ m.toList, (c == '\n') = false := by
      intro c hc
      rw [beq_eq_false_iff_ne]
      rintro rfl
      exact hm hc
    rw [List.flatMap_cons, String.toList_append, List.append_assoc]
    exact (List.splitOnP_append_cons_of_forall_mem hplain '\n' rfl _).trans
      (congrArg (m.toList :: ·) (ih hmessages))

end Interpreter

/-- **Tracing is an observer.** Of two runs that differ in the level of the trace alone, both have
the same result, print the same and make the same reports, and the lines of the trace at the lower
level are among those at the higher level, in the same order. At every level each message is on
one line, and so one line of the trace is one message. -/
theorem tracing_observes (source : String) (o : Options) (earlier : Diagnostics) :
    (∀ level level' : Int, level ≤ level' →
      (runProgram source { o with debugLevel := level' } earlier).1 =
        (runProgram source { o with debugLevel := level } earlier).1 ∧
      (runProgram source { o with debugLevel := level' } earlier).2.output =
        (runProgram source { o with debugLevel := level } earlier).2.output ∧
      (runProgram source { o with debugLevel := level' } earlier).2.reports =
        (runProgram source { o with debugLevel := level } earlier).2.reports ∧
      (runProgram source { o with debugLevel := level } earlier).2.traceLines.Sublist
        (runProgram source { o with debugLevel := level' } earlier).2.traceLines) ∧
    ∀ level : Int,
      (∀ m ∈ (runProgram source { o with debugLevel := level } earlier).2.trace,
        '\n' ∉ m.toList) ∧
      (runProgram source { o with debugLevel := level } earlier).2.traceLines =
        (runProgram source { o with debugLevel := level } earlier).2.trace.map String.toList ++
          [[]] := by
  have htidy : ∀ level : Int,
      (runProgram source { o with debugLevel := level } earlier).2.Tidy := by
    intro level
    have hstart : (Interpreter.ofOptions { o with debugLevel := level } earlier).Tidy := by
      simp [Interpreter.Tidy, Interpreter.ofOptions]
    exact hstart.runSource source
  refine ⟨fun level level' h => ?_, fun level => ⟨htidy level, (htidy level).traceLines_eq⟩⟩
  have hwatched := Interpreter.watched_ofOptions h o.cascadeEquality o.nullGroupings earlier
  obtain ⟨hresult, hrecord⟩ := Interpreter.agree_runSource hwatched source
  refine ⟨hresult, hrecord.output, hrecord.reports, ?_⟩
  rw [(htidy level).traceLines_eq, (htidy level').traceLines_eq]
  exact (hrecord.trace.map _).append (.refl _)

/-- A line end in a value is printed as such, and is traced by its escape. -/
theorem tracing_observes_sample :
    (runProgram "print 'a\\n' + 'b'\n" { debugLevel := 3 } {}).2.output = "a\nb\n" ∧
      (runProgram "print 'a\\n' + 'b'\n" { debugLevel := 1 } {}).2.traceLines.Sublist
        (runProgram "print 'a\\n' + 'b'\n" { debugLevel := 3 } {}).2.traceLines ∧
      (runProgram "print 'a\\n' + 'b'\n" { debugLevel := 3 } {}).2.trace.getLast? =
        some "STRING('a\\n') + STRING('b') -> STRING('a\\nb')" := by
  obtain ⟨-, houtput, -, hlines⟩ :=
    (tracing_observes "print 'a\\n' + 'b'\n" {} {}).1 1 3 (by decide)
  exact ⟨houtput.trans (by decide +kernel), hlines, by decide +kernel⟩

end Scriptlet
