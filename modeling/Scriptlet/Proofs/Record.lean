import Scriptlet.Proofs.Lossless

/-!
# What a scan leaves behind

Any source, faulty or not, is read as items with white space between. Each item leaves tokens and
reports, and so does the layout in front of a line.

* `Item.Leaves`, `LayoutLeaves`: what one item and one layout leave on their line.
* `Recorded`: the tokens and reports of a text in order, numbered by a function of what stands in
  front of each item.
* `Scanner.round_leaves`: a round leaves what its item and its layout leave, on the line at which
  the round starts.
-/

namespace Scriptlet

/-- The report of a fault on a line. -/
def ScanFault.diagnostic (f : ScanFault) (line : Nat) : Diagnostic :=
  ⟨Diagnostic.lexing, f.message, some line⟩

/-- Closing kinds, with the fault of one that closes nothing. -/
def unopenedFaults : List (Kind × ScanFault) :=
  [(.rightParen, .closingParen), (.rightBracket, .closingBracket)]

/-- The tokens and reports that an item leaves on its line. -/
inductive Item.Leaves (line : Nat) (text : List Char) :
    Item → List Token → List Diagnostic → Prop
  | token (k : Kind) (p : Document) :
      Leaves line text (.token k p) [⟨k, String.ofList text, p, line⟩] []
  | unopened {k : Kind} {f : ScanFault} (p : Document) : (k, f) ∈ unopenedFaults →
      Leaves line text (.token k p) [⟨k, String.ofList text, p, line⟩] [f.diagnostic line]
  | comment : Leaves line text .comment [] []
  | newline : Leaves line text .newline [⟨.newline, "", .null, line⟩] []
  /-- A line end inside a group, or behind a line that has no tokens. -/
  | unmarked : Leaves line text .newline [] []
  | flaw (f : ScanFault) : Leaves line text (.flaw f) [] [f.diagnostic line]

/-- The tokens and reports that a layout leaves in front of a line. -/
structure LayoutLeaves (line : Nat) (marks : List Token) (faults : List Diagnostic) : Prop where
  marks : ∀ t ∈ marks, ∃ k : Kind, (k = .indent ∨ k = .dedent) ∧ t = ⟨k, "", .null, line⟩
  faults : faults = [] ∨ faults = [ScanFault.indentation.diagnostic line]

/-- Nothing stands in front, or a line end does. -/
def AtLineStart (before : List Char) : Prop := ∀ c ∈ before.getLast?, c = '\n'

/-- `Recorded number before text ts ds`: the text, with `before` in front of it, is read item by
item, and leaves the tokens `ts` and the reports `ds`. What an item leaves is on the line that
`number` gives for the text in front of it; for a layout that is the text in front of the line. -/
inductive Recorded (number : List Char → Nat) :
    List Char → List Char → List Token → List Diagnostic → Prop
  | done {before text : List Char} : (∀ c ∈ text, Scanner.isInlineBlank c = true) →
      Recorded number before text [] []
  | item {before blanks text rest : List Char} {item : Item} {marks ts ts' : List Token}
      {faults ds ds' : List Diagnostic} : (∀ c ∈ blanks, Scanner.isInlineBlank c = true) →
      Reads text item rest → LayoutLeaves (number before) marks faults →
      (marks = [] ∧ faults = [] ∨ AtLineStart before) →
      item.Leaves (number (before ++ blanks)) text ts ds →
      Recorded number (before ++ (blanks ++ text)) rest ts' ds' →
      Recorded number before (blanks ++ (text ++ rest)) (marks ++ ts ++ ts') (faults ++ ds ++ ds')

/-! ## Facts about everything that is recorded -/

theorem Kind.admits_null {k : Kind} (h : k ∈ Kind.keywords ∨ k ∈ Kind.symbols ∨ k.isLayout = true) :
    k.admits .null = true := by
  revert h
  cases k <;> decide

theorem Lexeme.admits {k : Kind} {text : List Char} {p : Document} (h : Lexeme k text p) :
    k.admits p = true := by
  cases h with
  | keyword hk => exact Kind.admits_null (.inl hk)
  | symbol hk => exact Kind.admits_null (.inr (.inl hk))
  | truth => rfl
  | name => rfl
  | number => rfl
  | string => rfl

theorem Token.IsMarker.wellFormed {t : Token} (h : t.IsMarker) : t.WellFormed := by
  obtain ⟨hlayout, -, hpayload⟩ := h
  show t.kind.admits t.payload = true
  rw [hpayload]
  exact Kind.admits_null (.inr (.inr hlayout))

theorem LayoutLeaves.isMarker {line : Nat} {marks : List Token} {faults : List Diagnostic}
    (h : LayoutLeaves line marks faults) : ∀ t ∈ marks, t.IsMarker := by
  intro t ht
  obtain ⟨k, rfl | rfl, rfl⟩ := h.marks t ht
  · exact ⟨rfl, rfl, rfl⟩
  · exact ⟨rfl, rfl, rfl⟩

/-- A token that a text leaves is well formed, and a report is that of a fault. -/
theorem Item.Leaves.wellFormed {line : Nat} {text rest : List Char} {item : Item} {ts : List Token}
    {ds : List Diagnostic} (h : item.Leaves line text ts ds) (hreads : Reads text item rest) :
    (∀ t ∈ ts, t.WellFormed ∧ t.line = line) ∧
      ∀ d ∈ ds, ∃ f : ScanFault, d = f.diagnostic line := by
  have htoken : ∀ k p, item = .token k p →
      ∀ t ∈ [(⟨k, String.ofList text, p, line⟩ : Token)], t.WellFormed ∧ t.line = line := by
    rintro k p rfl t ht
    rw [List.mem_singleton.mp ht]
    cases hreads with
    | token hlex => exact ⟨hlex.admits, rfl⟩
  cases h with
  | token k p => exact ⟨htoken k p rfl, by simp⟩
  | @unopened k f p =>
    refine ⟨htoken k p rfl, ?_⟩
    intro d hd
    exact ⟨f, List.mem_singleton.mp hd⟩
  | comment => exact ⟨by simp, by simp⟩
  | newline =>
    refine ⟨?_, by simp⟩
    intro t ht
    rw [List.mem_singleton.mp ht]
    exact ⟨(Scanner.isMarker_newline line).wellFormed, rfl⟩
  | unmarked => exact ⟨by simp, by simp⟩
  | flaw f =>
    refine ⟨by simp, ?_⟩
    intro d hd
    exact ⟨f, List.mem_singleton.mp hd⟩

namespace Recorded

variable {number : List Char → Nat} {before text : List Char} {ts : List Token}
  {ds : List Diagnostic}

/-- **Every token that is recorded is well formed** and has the number of some place. -/
theorem wellFormed (h : Recorded number before text ts ds) :
    ∀ t ∈ ts, t.WellFormed ∧ ∃ before, t.line = number before := by
  induction h with
  | done => simp
  | @item before blanks text rest item marks ts ts' faults ds ds' _ hreads hlayout _ hleaves _ ih =>
    intro t ht
    simp only [List.mem_append] at ht
    rcases ht with (ht | ht) | ht
    · obtain ⟨k, -, rfl⟩ := hlayout.marks t ht
      exact ⟨(hlayout.isMarker _ ht).wellFormed, before, rfl⟩
    · obtain ⟨hwell, hline⟩ := (hleaves.wellFormed hreads).1 t ht
      exact ⟨hwell, before ++ blanks, hline⟩
    · exact ih t ht

/-- Every report that is recorded is that of a fault. -/
theorem exists_fault (h : Recorded number before text ts ds) :
    ∀ d ∈ ds, ∃ (f : ScanFault) (before : List Char), d = f.diagnostic (number before) := by
  induction h with
  | done => simp
  | @item before blanks text rest item marks ts ts' faults ds ds' _ hreads hlayout _ hleaves _ ih =>
    intro d hd
    simp only [List.mem_append] at hd
    rcases hd with (hd | hd) | hd
    · rcases hlayout.faults with rfl | rfl
      · cases hd
      · exact ⟨.indentation, before, List.mem_singleton.mp hd⟩
    · obtain ⟨f, hf⟩ := (hleaves.wellFormed hreads).2 d hd
      exact ⟨f, before ++ blanks, hf⟩
    · exact ih d hd

/-- A token with a text stands where its text does, and has the number of that place. -/
theorem exists_front (h : Recorded number before text ts ds) : ∀ t ∈ ts, t.lexeme ≠ "" →
    ∃ front rest, before ++ text = front ++ (t.lexeme.toList ++ rest) ∧ t.line = number front := by
  induction h with
  | done => simp
  | @item before blanks text rest item marks ts ts' faults ds ds' _ _ hlayout _ hleaves _ ih =>
    intro t ht hlexeme
    simp only [List.mem_append] at ht
    rcases ht with (ht | ht) | ht
    · exact absurd (hlayout.isMarker t ht).2.1 hlexeme
    · refine ⟨before ++ blanks, rest, ?_⟩
      cases hleaves with
      | token => cases List.mem_singleton.mp ht; simp
      | unopened => cases List.mem_singleton.mp ht; simp
      | newline => exact absurd (by rw [List.mem_singleton.mp ht]) hlexeme
      | comment => cases ht
      | unmarked => cases ht
      | flaw => cases ht
    · obtain ⟨front, after, hfront, hline⟩ := ih t ht hlexeme
      exact ⟨front, after, by simpa using hfront, hline⟩

/-- Two ways to number places that agree in front of every part of a text record the same. -/
theorem congr {number' : List Char → Nat} (h : Recorded number before text ts ds)
    (heq : ∀ front, front <+: before ++ text → number front = number' front) :
    Recorded number' before text ts ds := by
  induction h with
  | done htext => exact .done htext
  | @item before blanks text rest item _ _ _ _ _ _ hblanks hreads hlayout hstart hleaves _ ih =>
    rw [heq before (List.prefix_append _ _)] at hlayout
    have hblanks' : before ++ blanks <+: before ++ (blanks ++ (text ++ rest)) := by
      rw [← List.append_assoc]
      exact List.prefix_append _ _
    rw [heq (before ++ blanks) hblanks'] at hleaves
    refine .item hblanks hreads hlayout hstart hleaves (ih ?_)
    intro front hfront
    exact heq front (by simpa using hfront)

end Recorded

namespace Scanner

/-! ## What a round leaves -/

/-- What closes a group leaves the report that none is open, or no report. -/
theorem reports_close (s : Scanner) (e : Enclosure) : (s.close e).reports = s.reports ∨
    ∃ f, (e.closer, f) ∈ unopenedFaults ∧
      (s.close e).reports = s.reports ++ [f.diagnostic s.tokenLine] := by
  rcases s.close_cases e with ⟨n, -, h⟩ | ⟨-, h⟩
  · rw [h]
    exact .inl rfl
  · rw [h]
    exact .inr ⟨e.unopened, by cases e <;> decide, rfl⟩

/-- What closes a group stays in its line. -/
theorem close_frame (s : Scanner) (e : Enclosure) : (s.close e).tokenLine = s.tokenLine ∧
    (s.close e).line = s.line ∧ (s.close e).atLineStart = s.atLineStart := by
  rcases s.close_cases e with ⟨n, -, h⟩ | ⟨-, h⟩
  · rw [h]
    exact ⟨rfl, rfl, rfl⟩
  · rw [h]
    exact ⟨rfl, rfl, rfl⟩

/-- A line end is marked or not. -/
theorem endLine_cases (s : Scanner) : s.endLine = { s.breakLine with atLineStart := true } ∨
    s.endLine = { (s.mark .newline).breakLine with atLineStart := true } := by
  unfold endLine
  dsimp only
  split
  · exact .inl rfl
  · exact .inr rfl

theorem reports_perform_token (s : Scanner) (text : List Char) (k : Kind) (p : Document) :
    (s.perform text (.token k p)).reports = s.reports ∨ ∃ f, (k, f) ∈ unopenedFaults ∧
      (s.perform text (.token k p)).reports = s.reports ++ [f.diagnostic s.tokenLine] := by
  by_cases hk : k ∈ Kind.brackets
  · simp only [Kind.brackets, List.mem_cons, List.not_mem_nil, or_false] at hk
    rcases hk with rfl | rfl | rfl | rfl
    · exact .inl rfl
    · exact reports_close s .paren
    · exact .inl rfl
    · exact reports_close s .bracket
  · rw [perform_token s text p hk]
    exact .inl rfl

/-- What an item leaves once its text has been passed. -/
theorem perform_leaves (s : Scanner) {text rest : List Char} {item : Item}
    (h : Reads text item rest) : ∃ ts ds, item.Leaves s.tokenLine text ts ds ∧
      (s.perform text item).emitted = ts.reverse ++ s.emitted ∧
      (s.perform text item).reports = s.reports ++ ds := by
  cases h with
  | @token k _ _ p hlex =>
    have hemitted := emitted_perform_token s hlex
    rcases reports_perform_token s text k p with hreports | ⟨f, hf, hreports⟩
    · exact ⟨_, [], .token k p, hemitted, hreports⟩
    · exact ⟨_, _, .unopened p hf, hemitted, hreports⟩
  | comment => exact ⟨[], [], .comment, rfl, rfl⟩
  | newline =>
    have hperform : s.perform ['\n'] .newline = s.endLine := rfl
    rcases endLine_cases s with h | h
    · rw [hperform, h]
      exact ⟨[], [], .unmarked, rfl, rfl⟩
    · rw [hperform, h]
      exact ⟨_, [], .newline, rfl, rfl⟩
  | numeral => exact ⟨[], _, .flaw _, rfl, rfl⟩
  | openString => exact ⟨[], _, .flaw _, rfl, rfl⟩
  | unknown => exact ⟨[], _, .flaw _, rfl, rfl⟩

/-- What the layout of a line leaves before anything of the line is read. -/
theorem begun_leaves (s : Scanner) : ∃ marks faults, LayoutLeaves s.line marks faults ∧
    (marks = [] ∧ faults = [] ∨ s.atLineStart = true) ∧
    s.begun.emitted = marks.reverse ++ s.emitted ∧ s.begun.reports = s.reports ++ faults := by
  refine ⟨(s.layouts.flatMap Layout.marks).map fun k => ⟨k, "", .null, s.line⟩,
    if s.layouts.all Layout.matched then [] else [ScanFault.indentation.diagnostic s.line],
    ⟨?_, ?_⟩, ?_, emitted_begun s, ?_⟩
  · intro t ht
    obtain ⟨k, hk, rfl⟩ := List.mem_map.mp ht
    exact ⟨k, mem_marks_layouts hk, rfl⟩
  · split
    · exact .inl rfl
    · exact .inr rfl
  · unfold layouts
    cases hstart : s.startsLine with
    | false => exact .inl ⟨rfl, rfl⟩
    | true =>
      simp only [startsLine, Bool.and_eq_true] at hstart
      exact .inr hstart.1.1
  · unfold begun layouts laidOut
    cases s.startsLine with
    | false => rfl
    | true =>
      cases hmatched : (s.margin.layOut (indentation s.rest)).matched with
      | false =>
        simp [hmatched, fault, report, laid, markLine, ScanFault.diagnostic,
          Diagnostics.append_singleton]
      | true => simp [hmatched, laid, markLine]

/-- Items leave the token line as it is, and only a line end leads to the start of a line. -/
theorem perform_frame (s : Scanner) (text : List Char) (item : Item) :
    (s.perform text item).tokenLine = s.tokenLine ∧
      (item ≠ .newline → (s.perform text item).atLineStart = s.atLineStart) := by
  unfold perform
  split
  · exact ⟨rfl, fun _ => rfl⟩
  · exact ⟨(close_frame s .paren).1, fun _ => (close_frame s .paren).2.2⟩
  · exact ⟨rfl, fun _ => rfl⟩
  · exact ⟨(close_frame s .bracket).1, fun _ => (close_frame s .bracket).2.2⟩
  · exact ⟨rfl, fun _ => rfl⟩
  · exact ⟨rfl, fun _ => rfl⟩
  · rcases endLine_cases s with h | h
    · rw [h]
      exact ⟨rfl, fun hne => absurd rfl hne⟩
    · rw [h]
      exact ⟨rfl, fun hne => absurd rfl hne⟩
  · exact ⟨rfl, fun _ => rfl⟩

/-- From a round on, tokens carry the line at which the round started. -/
theorem tokenLine_round (s : Scanner) : s.round.tokenLine = s.line := by
  rcases round_cases s with ⟨pos, column, start, -, hround⟩ |
    ⟨blanks, text, item, rest, pos, line, column, -, -, -, -, hround⟩
  · rw [hround]
    exact (line_begun s).2
  · rw [hround, (perform_frame _ text item).1]
    exact (line_begun s).2

/-- A round over white space leaves nothing: there is no line to lay out. -/
theorem begun_of_blank {s : Scanner} (h : ∀ c ∈ s.rest, isInlineBlank c = true) :
    s.begun = s.markLine := by
  have hempty : s.atEmptyLine = true := by
    unfold atEmptyLine
    rw [List.dropWhile_eq_nil_iff.mpr h]
  simp [begun, startsLine, hempty]

/-- **What a round leaves.** Either only white space remains, or an item is read, and the layout
and the item leave tokens and reports on the line at which the round starts. -/
theorem round_leaves (s : Scanner) :
    ((∀ c ∈ s.rest, isInlineBlank c = true) ∧ s.round.rest = [] ∧
      s.round.emitted = s.emitted ∧ s.round.reports = s.reports) ∨
    ∃ blanks text item rest marks ts faults ds, s.rest = blanks ++ (text ++ rest) ∧
      (∀ c ∈ blanks, isInlineBlank c = true) ∧ Reads text item rest ∧ s.round.rest = rest ∧
      LayoutLeaves s.line marks faults ∧ (marks = [] ∧ faults = [] ∨ s.atLineStart = true) ∧
      item.Leaves s.line text ts ds ∧ (s.round.atLineStart = true → item = .newline) ∧
      s.round.emitted = (marks ++ ts).reverse ++ s.emitted ∧
      s.round.reports = s.reports ++ (faults ++ ds) := by
  rcases round_cases s with ⟨pos, column, start, hblank, hround⟩ |
    ⟨blanks, text, item, rest, pos, line, column, hsplit, hblank, -, hreads, hround⟩
  · rw [begun_of_blank hblank] at hround
    rw [hround]
    exact .inl ⟨hblank, rfl, rfl, rfl⟩
  · obtain ⟨marks, faults, hlayout, hstart, hemitted, hreports⟩ := begun_leaves s
    obtain ⟨ts, ds, hleaves, hemitted', hreports'⟩ :=
      perform_leaves (s.begun.placed rest pos line column false) hreads
    have hline : (s.begun.placed rest pos line column false).tokenLine = s.line := (line_begun s).2
    rw [hline] at hleaves
    refine .inr ⟨blanks, text, item, rest, marks, ts, faults, ds, hsplit, hblank, hreads, ?_,
      hlayout, hstart, hleaves, ?_, ?_, ?_⟩
    · rw [hround, rest_perform]
      rfl
    · intro hbreak
      by_contra hne
      rw [hround, (perform_frame _ text item).2 hne] at hbreak
      cases hbreak
    · rw [hround, hemitted', List.reverse_append, List.append_assoc, ← hemitted]
      rfl
    · rw [hround, hreports', Diagnostics.append_append, ← hreports]
      rfl

/-! ## The end of the source -/

/-- The end of the source leaves markers on the last line that was read from. -/
theorem finish_leaves (s : Scanner) : s.finish.reports = s.reports ∧
    ∃ ms, s.finish.tokens = s.tokens ++ ms ∧ ∀ t ∈ ms, t.IsMarker ∧ t.line = s.tokenLine := by
  have hclose : ∀ u : Scanner, (closeBlocks u.openBlocks u).reports = u.reports ∧
      (closeBlocks u.openBlocks u).tokens =
        u.tokens ++ List.replicate u.openBlocks ⟨.dedent, "", .null, u.tokenLine⟩ := by
    intro u
    rw [closeBlocks_eq]
    exact ⟨rfl, by simp [tokens]⟩
  have hmarker : ∀ n, ∀ t ∈ List.replicate n (⟨.dedent, "", .null, s.tokenLine⟩ : Token),
      t.IsMarker ∧ t.line = s.tokenLine := by
    intro n t ht
    refine ⟨isMarker_of_mem_replicate ht, ?_⟩
    rw [List.eq_of_mem_replicate ht]
  unfold finish
  dsimp only
  split
  · obtain ⟨hreports, htokens⟩ := hclose s
    exact ⟨hreports, _, htokens, hmarker s.openBlocks⟩
  · obtain ⟨hreports, htokens⟩ := hclose (s.mark .newline)
    refine ⟨hreports, ⟨.newline, "", .null, s.tokenLine⟩ ::
      List.replicate s.openBlocks ⟨.dedent, "", .null, s.tokenLine⟩, ?_, ?_⟩
    · rw [htokens]
      simp [tokens, mark, add]
    · intro t ht
      rcases List.mem_cons.mp ht with rfl | ht
      · exact ⟨isMarker_newline s.tokenLine, rfl⟩
      · exact hmarker _ t ht

/-- The last token of a source ends a line or a block. -/
theorem getLast?_tokenize (s : Scanner) :
    ∀ t ∈ s.tokenize.tokens.getLast?, t.kind = .newline ∨ t.kind = .dedent := by
  have hfinish : ∀ u : Scanner, (u.emitted.isEmpty || u.endsWith .newline) = true →
      ∀ t ∈ (closeBlocks u.openBlocks u).tokens.getLast?, t.kind = .newline ∨ t.kind = .dedent := by
    intro u hu t ht
    rw [closeBlocks_eq, tokens, List.getLast?_reverse] at ht
    cases hblocks : u.openBlocks with
    | succ n =>
      rw [hblocks] at ht
      cases ht
      exact .inr rfl
    | zero =>
      rw [hblocks] at ht
      cases hemitted : u.emitted with
      | nil =>
        rw [hemitted] at ht
        cases ht
      | cons v vs =>
        rw [hemitted] at ht
        cases ht
        simp only [hemitted, endsWith, List.isEmpty_cons, Bool.false_or, List.head?_cons,
          Option.any_some, beq_iff_eq] at hu
        exact .inl hu
  unfold tokenize finish
  dsimp only
  split
  · rename_i h
    exact hfinish _ h
  · exact hfinish _ rfl

end Scanner

end Scriptlet
