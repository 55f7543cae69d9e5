import Scriptlet.Proofs.Concatenation
import Scriptlet.Proofs.Locality
import Scriptlet.Proofs.Stages
import Scriptlet.Proofs.Unlined

/-!
# Flat programs compose

A program in whole lines, without blocks, leaves nothing behind that a program behind it could
notice. So the two run one after the other.

* `Accepted`: a source is scanned and parsed without reports. `runProgram_accepts_iff`: that is when
  it is executed, and `output_runProgram`: then it prints what its statements print.
* `Scanner.Fresh.wholeLines`: a flat source has its tokens in whole lines.

`flat_programs_compose` puts the scanner, the grammar and the evaluation together.
-/

namespace Scriptlet

/-! ## Accepted sources -/

/-- The source is scanned and parsed without a report. -/
structure Accepted (source : String) : Prop where
  scanned : (Scanner.ofSource source {}).tokenize.failed = false
  parsed : (parseProgram (Scanner.ofSource source {}).tokenize.tokens).issues = []

namespace Interpreter

theorem runTokens_prints (it : Interpreter) {ts : List Token} (hwell : ∀ t ∈ ts, t.WellFormed)
    (h : (parseProgram ts).issues = []) :
    ∃ it', it.runTokens ts = (.ok true, it') ∧
      it.Prints it' (printed it.options (parseProgram ts).value) := by
  obtain ⟨it₁, hadds, hrun⟩ := it.runTokens_of_no_issues h
  obtain ⟨it', hrun', hprints⟩ := it₁.run_prints fun n hn => isStatement_of_mem hwell hn
  refine ⟨it', hrun it' hrun', ?_⟩
  rw [hadds.options] at hprints
  exact hadds.prints_then hprints

/-- What is scanned does not depend on the record. -/
theorem runSource_alone (it : Interpreter) (source : String) :
    ∃ it₁ new, it.Adds it₁ new ∧ it.runSource source =
      if (Scanner.ofSource source {}).tokenize.failed then (.ok false, it₁)
      else if (Scanner.ofSource source {}).tokenize.tokens.isEmpty then (.ok true, it₁)
      else it₁.runTokens (Scanner.ofSource source {}).tokenize.tokens := by
  obtain ⟨htokens, hfailed⟩ := Scanner.tokenize_earlier source.toList it.reports
  obtain ⟨it₁, new, hadds, -, -, hrun⟩ := it.runSource_eq source
  refine ⟨it₁, new, hadds, hrun.trans ?_⟩
  unfold Scanner.ofSource
  rw [hfailed, htokens]

theorem fst_runSource_of_not_accepted (it : Interpreter) {source : String}
    (h : ¬ Accepted source) : (it.runSource source).1 = .ok false := by
  obtain ⟨it₁, new, -, hrun⟩ := it.runSource_alone source
  rw [hrun]
  cases hscan : (Scanner.ofSource source {}).tokenize.failed with
  | true => rfl
  | false =>
    have hparse : (parseProgram (Scanner.ofSource source {}).tokenize.tokens).issues ≠ [] :=
      fun hparse => h ⟨hscan, hparse⟩
    cases htokens : (Scanner.ofSource source {}).tokenize.tokens with
    | nil =>
      rw [htokens, parseProgram.eq_def] at hparse
      exact absurd rfl hparse
    | cons t ts =>
      rw [htokens] at hparse
      obtain ⟨it₂, hrun', -⟩ := it₁.runTokens_of_issues hparse
      exact congrArg Prod.fst hrun'

theorem runSource_prints (it : Interpreter) {source : String} (h : Accepted source) :
    ∃ it', it.runSource source = (.ok true, it') ∧
      it.Prints it' (printed it.options
        (parseProgram (Scanner.ofSource source {}).tokenize.tokens).value) := by
  obtain ⟨it₁, new, hadds, hrun⟩ := it.runSource_alone source
  have hwell := (Scanner.ofSource source {}).wellFormed_tokenize
  have hparse := h.parsed
  rw [hrun, h.scanned]
  cases htokens : (Scanner.ofSource source {}).tokenize.tokens with
  | nil =>
    refine ⟨it₁, rfl, ?_⟩
    rw [parseProgram.eq_def]
    exact hadds.prints
  | cons t ts =>
    rw [htokens] at hwell hparse
    obtain ⟨it', hrun', hprints⟩ := it₁.runTokens_prints hwell hparse
    rw [hadds.options] at hprints
    exact ⟨it', hrun', hadds.prints_then hprints⟩

end Interpreter

/-- **A source is executed exactly if it is accepted**, whatever the settings. -/
theorem runProgram_accepts_iff (source : String) (o : Options) (earlier : Diagnostics) :
    (runProgram source o earlier).1 = .ok true ↔ Accepted source := by
  unfold runProgram
  constructor
  · intro h
    by_contra hnot
    have hfalse := (Interpreter.ofOptions o earlier).fst_runSource_of_not_accepted hnot
    cases hfalse.symm.trans h
  · intro h
    obtain ⟨it', hrun, -⟩ := (Interpreter.ofOptions o earlier).runSource_prints h
    rw [hrun]

/-- A source that is accepted prints what its statements print. -/
theorem output_runProgram {source : String} (h : Accepted source) (o : Options)
    (earlier : Diagnostics) :
    (runProgram source o earlier).2.output = Interpreter.printed o
      (parseProgram (Scanner.ofSource source {}).tokenize.tokens).value := by
  obtain ⟨it', hrun, hprints⟩ := (Interpreter.ofOptions o earlier).runSource_prints h
  unfold runProgram
  rw [hrun]
  exact hprints.output.trans String.empty_append

/-! ## Flat sources -/

/-- **The tokens of a flat source are in whole lines.** -/
theorem Scanner.Fresh.wholeLines {source : List Char} (h : (ofChars source {}).scanAll.Fresh)
    (hflat : ∀ t ∈ (ofChars source {}).tokenize.tokens, t.kind ≠ .indent) :
    WholeLines (ofChars source {}).tokenize.tokens := by
  have hspaced := (ofChars source {}).spaced_tokenize
  refine ⟨hflat, ?_, ?_, ?_⟩
  · rw [tokens, List.head?_reverse]
    exact hspaced.first
  · rw [tokens, List.isChain_reverse]
    exact hspaced.apart
  · have hfinish : (ofChars source {}).tokenize = (ofChars source {}).scanAll := h.finish_eq
    rw [hfinish, tokens, List.getLast?_reverse]
    exact h.head

/-- Lines aside, tokens are what they are further on. -/
theorem map_unlined_onward (lines : Nat) (ts : List Token) :
    (ts.map (Token.onward lines)).map Token.unlined = ts.map Token.unlined := by
  rw [List.map_map]
  rfl

/-- What is parsed from tokens further on is the same, lines aside. -/
theorem parseProgram_onward (lines : Nat) (ts : List Token) :
    (parseProgram (ts.map (Token.onward lines))).unlined (List.map Node.unlined) =
      (parseProgram ts).unlined (List.map Node.unlined) := by
  rw [← parseProgram_unlined, ← parseProgram_unlined, map_unlined_onward]

theorem issues_parseProgram_onward (lines : Nat) (ts : List Token) :
    (parseProgram (ts.map (Token.onward lines))).issues = [] ↔ (parseProgram ts).issues = [] := by
  have hissues := congrArg Parsed.issues (parseProgram_onward lines ts)
  simp only [Parsed.unlined] at hissues
  rw [← List.map_eq_nil_iff (f := Issue.unlined), hissues, List.map_eq_nil_iff]

theorem wellFormed_onward {ts : List Token} (h : ∀ t ∈ ts, t.WellFormed) (lines : Nat) :
    ∀ t ∈ ts.map (Token.onward lines), t.WellFormed := by
  intro t ht
  obtain ⟨u, hu, rfl⟩ := List.mem_map.mp ht
  exact h u hu

theorem printed_onward {ts : List Token} (h : ∀ t ∈ ts, t.WellFormed) (lines : Nat) (o : Options) :
    Interpreter.printed o (parseProgram (ts.map (Token.onward lines))).value =
      Interpreter.printed o (parseProgram ts).value := by
  have hvalue := congrArg Parsed.value (parseProgram_onward lines ts)
  simp only [Parsed.unlined] at hvalue
  rw [← Interpreter.printed_unlined fun n hn => isStatement_of_mem (wellFormed_onward h lines) hn,
    hvalue, Interpreter.printed_unlined fun n hn => isStatement_of_mem h hn]

/-- **Flat programs compose.** Let `p` be a source that is executed, that is empty or ends with a
line end, that opens no block, and at whose end no parenthesis or bracket is open. Behind it, every
source `q` is scanned to the tokens that it has alone, all of them by the same number of lines
further on. The two together are executed exactly if `q` alone is, and then they print what `p`
prints and after that what `q` prints. -/
theorem flat_programs_compose {p : String} {o' : Options} {earlier' : Diagnostics}
    (haccepted : (runProgram p o' earlier').1 = .ok true)
    (hends : p = "" ∨ p.toList.getLast? = some '\n')
    (hflat : ∀ t ∈ (Scanner.ofSource p {}).tokenize.tokens, t.kind ≠ .indent)
    (hparens : (Scanner.ofSource p {}).tokenize.openParens = 0)
    (hbrackets : (Scanner.ofSource p {}).tokenize.openBrackets = 0)
    (q : String) (o : Options) (earlier : Diagnostics) :
    (∃ lines, (Scanner.ofSource (p ++ q) {}).tokenize.tokens =
      (Scanner.ofSource p {}).tokenize.tokens ++
        (Scanner.ofSource q {}).tokenize.tokens.map (Token.onward lines)) ∧
    ((runProgram (p ++ q) o earlier).1 = .ok true ↔ (runProgram q o earlier).1 = .ok true) ∧
    ((runProgram (p ++ q) o earlier).1 = .ok true →
      (runProgram (p ++ q) o earlier).2.output =
        (runProgram p o earlier).2.output ++ (runProgram q o earlier).2.output) := by
  have hp := (runProgram_accepts_iff p o' earlier').mp haccepted
  have hline : Scanner.EndsLine p.toList := by
    rcases hends with rfl | hlast
    · exact fun c hc => by cases hc
    · intro c hc
      rw [hlast] at hc
      exact (Option.some.inj hc).symm
  have hfresh := Scanner.fresh_scanAll hline hp.scanned hflat hparens hbrackets
  have hlines : WholeLines (Scanner.ofSource p {}).tokenize.tokens := hfresh.wholeLines hflat
  obtain ⟨lines, htokens, hfailed⟩ : ∃ lines,
      (Scanner.ofSource (p ++ q) {}).tokenize.tokens = (Scanner.ofSource p {}).tokenize.tokens ++
        (Scanner.ofSource q {}).tokenize.tokens.map (Token.onward lines) ∧
      (Scanner.ofSource (p ++ q) {}).tokenize.failed =
        (Scanner.ofSource q {}).tokenize.failed := by
    rw [Scanner.ofSource, String.toList_append]
    exact hfresh.tokenize_append hline q.toList {}
  have hparse := hlines.parseProgram_append hp.parsed
    ((Scanner.ofSource q {}).tokenize.tokens.map (Token.onward lines))
  have hissues : (parseProgram (Scanner.ofSource (p ++ q) {}).tokenize.tokens).issues = [] ↔
      (parseProgram (Scanner.ofSource q {}).tokenize.tokens).issues = [] := by
    rw [htokens, hparse]
    exact issues_parseProgram_onward lines _
  have htogether : Accepted (p ++ q) ↔ Accepted q :=
    ⟨fun h => ⟨hfailed.symm.trans h.scanned, hissues.mp h.parsed⟩,
      fun h => ⟨hfailed.trans h.scanned, hissues.mpr h.parsed⟩⟩
  rw [runProgram_accepts_iff, runProgram_accepts_iff]
  refine ⟨⟨lines, htokens⟩, htogether, fun hpq => ?_⟩
  have hwell := (Scanner.ofSource p {}).wellFormed_tokenize
  have hwell' := (Scanner.ofSource q {}).wellFormed_tokenize
  rw [output_runProgram hpq, output_runProgram hp, output_runProgram (htogether.mp hpq), htokens,
    hparse, Interpreter.printed_append (fun n hn => isStatement_of_mem hwell hn)
      (fun n hn => isStatement_of_mem (wellFormed_onward hwell' lines) hn),
    printed_onward hwell' lines]

/-- A line that prints a group and ends with a comment, and behind it a program without a line
end. -/
theorem flat_programs_compose_sample :
    let p := "print (\"a\") # first\n"
    let q := "print \"b\""
    (runProgram (p ++ q) {} {}).1 = .ok true ∧
      (runProgram (p ++ q) {} {}).2.output =
        (runProgram p {} {}).2.output ++ (runProgram q {} {}).2.output := by
  intro p q
  have hp : (runProgram p {} {}).1 = .ok true :=
    (runProgram_accepts_iff p {} {}).mpr ⟨by decide +kernel, by decide +kernel⟩
  have hq : (runProgram q {} {}).1 = .ok true :=
    (runProgram_accepts_iff q {} {}).mpr ⟨by decide +kernel, by decide +kernel⟩
  obtain ⟨-, htogether, houtput⟩ := flat_programs_compose hp (.inr (by decide)) (by decide +kernel)
    (by decide +kernel) (by decide +kernel) q {} {}
  exact ⟨htogether.mpr hq, houtput (htogether.mpr hq)⟩

end Scriptlet
