import Scriptlet.Proofs.Munch
import Scriptlet.Proofs.SourceLines
import Scriptlet.Proofs.Unlined

/-!
# Two scans side by side

What a scan records depends on the items it reads and on the widths of the lines, and on nothing
else of the text.

* `SameRecord`: two scanners have recorded the same, with or without lines. Steps that do the same
  on both sides keep it: `SameRecord.perform`, `SameRecord.finish`.
* `Abreast`: two scanners that will also lay the next line out in the same way, with the same marks
  in front of it (`Abreast.begun`).
  `Abreast.round`: they stay so if they read the same item.
* `Abreast.scanAll`: with the same text before them, they do so to the end.
-/

namespace Scriptlet

/-- A token as it is compared, with or without its line. -/
def Token.seen (lined : Bool) (t : Token) : Token := if lined then t else t.unlined

/-- A report with its line forgotten, though not that it has one. -/
def Diagnostic.unlined (d : Diagnostic) : Diagnostic := { d with line := d.line.map fun _ => 0 }

/-- Reports as they are compared: with all that has been written of them, or without their lines. -/
def Diagnostics.seen (lined : Bool) (g : Diagnostics) : Diagnostics :=
  if lined then g else { records := g.records.map Diagnostic.unlined }

theorem Token.kind_seen (lined : Bool) (t : Token) : (t.seen lined).kind = t.kind := by
  cases lined
  · rfl
  · rfl

namespace Scanner

variable {lined : Bool} {s t : Scanner}

/-- The two have recorded the same and are in the same groups. The flag tells whether lines are
compared as well. -/
structure SameRecord (lined : Bool) (s t : Scanner) : Prop where
  failed : s.failed = t.failed
  openParens : s.openParens = t.openParens
  openBrackets : s.openBrackets = t.openBrackets
  tokenLine : lined = true → s.tokenLine = t.tokenLine
  emitted : s.emitted.map (Token.seen lined) = t.emitted.map (Token.seen lined)
  reports : s.reports.seen lined = t.reports.seen lined

namespace SameRecord

theorem refl (lined : Bool) (s : Scanner) : SameRecord lined s s :=
  ⟨rfl, rfl, rfl, fun _ => rfl, rfl, rfl⟩

theorem symm (h : SameRecord lined s t) : SameRecord lined t s :=
  ⟨h.failed.symm, h.openParens.symm, h.openBrackets.symm, fun hlined => (h.tokenLine hlined).symm,
    h.emitted.symm, h.reports.symm⟩

theorem trans {u : Scanner} (h : SameRecord lined s t) (h' : SameRecord lined t u) :
    SameRecord lined s u :=
  ⟨h.failed.trans h'.failed, h.openParens.trans h'.openParens,
    h.openBrackets.trans h'.openBrackets,
    fun hlined => (h.tokenLine hlined).trans (h'.tokenLine hlined), h.emitted.trans h'.emitted,
    h.reports.trans h'.reports⟩

theorem tokens (h : SameRecord lined s t) :
    s.tokens.map (Token.seen lined) = t.tokens.map (Token.seen lined) := by
  rw [Scanner.tokens, Scanner.tokens, List.map_reverse, List.map_reverse, h.emitted]

/-- With lines compared, nothing is left out. -/
theorem outcome (h : SameRecord true s t) :
    s.tokens = t.tokens ∧ s.reports = t.reports ∧ s.failed = t.failed := by
  have htoken : Token.seen true = id := rfl
  have htokens := h.tokens
  rw [htoken, List.map_id, List.map_id] at htokens
  exact ⟨htokens, h.reports, h.failed⟩

theorem add (h : SameRecord lined s t) (k : Kind) (l : String) (p : Document) :
    SameRecord lined (s.add k l p) (t.add k l p) := by
  refine ⟨h.failed, h.openParens, h.openBrackets, h.tokenLine, ?_, h.reports⟩
  have htoken : Token.seen lined ⟨k, l, p, s.tokenLine⟩ =
      Token.seen lined ⟨k, l, p, t.tokenLine⟩ := by
    cases lined with
    | false => rfl
    | true => rw [h.tokenLine rfl]
  simp only [Scanner.add, List.map_cons, htoken, h.emitted]

theorem fault (h : SameRecord lined s t) (f : ScanFault) :
    SameRecord lined (s.fault f) (t.fault f) := by
  refine ⟨rfl, h.openParens, h.openBrackets, h.tokenLine, h.emitted, ?_⟩
  cases lined with
  | false =>
    have hrecords : s.reports.records.map Diagnostic.unlined =
        t.reports.records.map Diagnostic.unlined := congrArg Diagnostics.records h.reports
    simp [Scanner.fault, report, Diagnostics.seen, hrecords, Diagnostic.unlined]
  | true =>
    have hreports : s.reports = t.reports := h.reports
    rw [Scanner.fault, Scanner.fault, report, report, hreports, h.tokenLine rfl]

theorem markLine (h : SameRecord lined s t) (hline : lined = true → s.line = t.line) :
    SameRecord lined s.markLine t.markLine :=
  ⟨h.failed, h.openParens, h.openBrackets, hline, h.emitted, h.reports⟩

theorem nested (h : SameRecord lined s t) : s.nested = t.nested := by
  rw [Scanner.nested, Scanner.nested, h.openParens, h.openBrackets]

theorem isEmpty (h : SameRecord lined s t) : s.emitted.isEmpty = t.emitted.isEmpty := by
  have := congrArg List.isEmpty h.emitted
  rwa [List.isEmpty_map, List.isEmpty_map] at this

theorem endsWith (h : SameRecord lined s t) (k : Kind) : s.endsWith k = t.endsWith k := by
  have hany (u : Scanner) : u.endsWith k =
      (u.emitted.map (Token.seen lined)).head?.any fun t => t.kind == k := by
    rw [List.head?_map, Option.any_map]
    simp only [Scanner.endsWith, Token.kind_seen]
  rw [hany, hany, h.emitted]

theorem openCount (h : SameRecord lined s t) (e : Enclosure) : s.openCount e = t.openCount e := by
  cases e with
  | paren => exact h.openParens
  | bracket => exact h.openBrackets

theorem withOpen (h : SameRecord lined s t) (e : Enclosure) (n : Nat) :
    SameRecord lined (s.withOpen e n) (t.withOpen e n) := by
  refine ⟨h.failed, ?_, ?_, h.tokenLine, h.emitted, h.reports⟩
  · rw [Scanner.withOpen, Scanner.withOpen, h.openParens]
  · rw [Scanner.withOpen, Scanner.withOpen, h.openBrackets]

theorem close (h : SameRecord lined s t) (e : Enclosure) :
    SameRecord lined (s.close e) (t.close e) := by
  unfold Scanner.close
  rw [h.openCount]
  cases t.openCount e with
  | zero => exact (h.fault e.unopened).add _ _ _
  | succ n => exact (h.withOpen e n).add _ _ _

theorem endLine (h : SameRecord lined s t) : SameRecord lined s.endLine t.endLine := by
  unfold Scanner.endLine
  rw [h.isEmpty, h.endsWith, h.nested]
  dsimp only
  split
  · exact ⟨h.failed, h.openParens, h.openBrackets, h.tokenLine, h.emitted, h.reports⟩
  · have hmark := h.add .newline "" .null
    exact ⟨hmark.failed, hmark.openParens, hmark.openBrackets, hmark.tokenLine, hmark.emitted,
      hmark.reports⟩

/-- **The same item leaves the same.** -/
theorem perform (h : SameRecord lined s t) (text : List Char) (item : Item) :
    SameRecord lined (s.perform text item) (t.perform text item) := by
  unfold Scanner.perform
  split
  · have hadd := h.add .leftParen "(" .null
    exact ⟨hadd.failed, congrArg (· + 1) h.openParens, hadd.openBrackets, hadd.tokenLine,
      hadd.emitted, hadd.reports⟩
  · exact h.close .paren
  · have hadd := h.add .leftBracket "[" .null
    exact ⟨hadd.failed, hadd.openParens, congrArg (· + 1) h.openBrackets, hadd.tokenLine,
      hadd.emitted, hadd.reports⟩
  · exact h.close .bracket
  · exact h.add _ _ _
  · exact h
  · exact h.endLine
  · exact h.fault _

theorem placed (h : SameRecord lined s t) (rest rest' : List Char)
    (pos pos' line line' column column' : Nat) (start start' : Bool) :
    SameRecord lined (s.placed rest pos line column start)
      (t.placed rest' pos' line' column' start') :=
  ⟨h.failed, h.openParens, h.openBrackets, h.tokenLine, h.emitted, h.reports⟩

/-- The same layout leaves the same. -/
theorem laidOut (h : SameRecord lined s t) (l : Layout) :
    SameRecord lined (s.laidOut l) (t.laidOut l) := by
  have hlaid : SameRecord lined (s.laid l) (t.laid l) := by
    refine ⟨h.failed, h.openParens, h.openBrackets, h.tokenLine, ?_, h.reports⟩
    have hmarks : (fun k => Token.seen lined ⟨k, "", .null, s.tokenLine⟩) =
        fun k => Token.seen lined ⟨k, "", .null, t.tokenLine⟩ := by
      cases lined with
      | false => rfl
      | true => rw [h.tokenLine rfl]
    simp only [laid, List.map_append, List.map_reverse, List.map_map, Function.comp_def, hmarks,
      h.emitted]
  unfold Scanner.laidOut
  split
  · exact hlaid
  · exact hlaid.fault _

theorem closeBlocks (h : SameRecord lined s t) (n : Nat) :
    SameRecord lined (closeBlocks n s) (closeBlocks n t) := by
  induction n generalizing s t with
  | zero => exact h
  | succ n ih =>
    have hmark := h.add .dedent "" .null
    exact ih ⟨hmark.failed, hmark.openParens, hmark.openBrackets, hmark.tokenLine, hmark.emitted,
      hmark.reports⟩

/-- The end of the source leaves the same if as many blocks are open. -/
theorem finish (h : SameRecord lined s t) (hblocks : s.openBlocks = t.openBlocks) :
    SameRecord lined s.finish t.finish := by
  unfold Scanner.finish
  rw [h.isEmpty, h.endsWith]
  dsimp only
  split
  · rw [hblocks]
    exact h.closeBlocks _
  · have hopen : (s.mark .newline).openBlocks = (t.mark .newline).openBlocks := hblocks
    rw [hopen]
    exact (h.add .newline "" .null).closeBlocks _

end SameRecord

/-- A line end that is not marked leaves nothing. -/
theorem sameRecord_endLine (h : (s.emitted.isEmpty || s.endsWith .newline || s.nested) = true) :
    SameRecord false s s.endLine := by
  rw [endLine, if_pos h]
  exact ⟨rfl, rfl, rfl, by simp, rfl, rfl⟩

/-! ## Rounds -/

/-- The two have recorded the same, and the next line will be laid out in the same way. -/
structure Abreast (lined : Bool) (s t : Scanner) : Prop extends SameRecord lined s t where
  line : lined = true → s.line = t.line
  margin : s.margin = t.margin
  atLineStart : s.atLineStart = t.atLineStart

/-- The width of a line ends where the line goes on with something else than blanks. -/
theorem indentation_append {c : Char} (hc : isInlineBlank c = false) (blanks cs : List Char) :
    indentation (blanks ++ c :: cs) = indentation blanks := by
  have hindent : isIndentChar c = false := by
    by_contra h
    rw [Bool.not_eq_false] at h
    rw [isInlineBlank_of_isIndentChar h] at hc
    cases hc
  have htake : (blanks ++ c :: cs).takeWhile isIndentChar = blanks.takeWhile isIndentChar := by
    rw [List.takeWhile_append, List.takeWhile_cons_of_neg (by simp [hindent])]
    split
    · rename_i hlength
      rw [List.append_nil]
      exact ((List.takeWhile_prefix isIndentChar).eq_of_length hlength).symm
    · rfl
  rw [indentation, htake, indentation]

theorem atEmptyLine_append {c : Char} (hc : isInlineBlank c = false) {blanks cs : List Char}
    (hblanks : ∀ d ∈ blanks, isInlineBlank d = true) (hrest : s.rest = blanks ++ c :: cs) :
    s.atEmptyLine = (c == '\n' || c == '#') := by
  rw [atEmptyLine, hrest, List.dropWhile_append_of_pos hblanks,
    List.dropWhile_cons_of_neg (by simp [hc])]

/-- The line at the cursor is laid out in the same way if it is of the same width. -/
theorem Abreast.begun (h : Abreast lined s t) (hempty : s.atEmptyLine = t.atEmptyLine)
    (hindent : s.atEmptyLine = false → indentation s.rest = indentation t.rest) :
    SameRecord lined s.begun t.begun ∧ s.begun.margin = t.begun.margin := by
  have hstarts : s.startsLine = t.startsLine := by
    rw [startsLine, startsLine, h.atLineStart, hempty, h.nested]
  have hmark := h.toSameRecord.markLine h.line
  rw [margin_begun, margin_begun, Scanner.begun, Scanner.begun, ← hstarts]
  cases hline : s.startsLine with
  | false => exact ⟨hmark, h.margin⟩
  | true =>
    simp only [startsLine, Bool.and_eq_true, Bool.not_eq_true'] at hline
    rw [← hindent hline.1.2, ← h.margin]
    exact ⟨hmark.laidOut _, rfl⟩

/-- Only a line end leads to the start of a line. -/
theorem atLineStart_perform (hs : s.atLineStart = false) (ht : t.atLineStart = false)
    (text : List Char) (item : Item) :
    (s.perform text item).atLineStart = (t.perform text item).atLineStart := by
  by_cases hitem : item = .newline
  · subst hitem
    exact (context_endLine s).1.trans (context_endLine t).1.symm
  · rw [(perform_frame s text item).2 hitem, (perform_frame t text item).2 hitem, hs, ht]

/-- The lines that a round counts depend on the text it passes. -/
theorem line_round {passed : List Char} (hpassed : passed ≠ [])
    (hs : s.rest = passed ++ s.round.rest) :
    s.round.line + escapedBreaks .code passed = s.line + passed.count '\n' := by
  have hne : s.rest ≠ [] := by
    rw [hs]
    exact List.append_ne_nil_of_left_ne_nil hpassed _
  obtain ⟨text, n, q, hsplit, -, hpassage, -, hline⟩ := round_counts hne
  obtain rfl : passed = text := List.append_cancel_right (hs.symm.trans hsplit)
  rw [hline, ← hpassage.breaks]
  omega

/-- **Reading the same item, two scanners stay abreast.** -/
theorem Abreast.round (h : Abreast lined s t) {blanks text rest rest' : List Char} {item : Item}
    (hs : s.rest = blanks ++ (text ++ rest)) (ht : t.rest = blanks ++ (text ++ rest'))
    (hblanks : ∀ c ∈ blanks, isInlineBlank c = true)
    (hhead : ∀ c ∈ text.head?, isInlineBlank c = false) (htakes : Takes text item rest)
    (htakes' : Takes text item rest') :
    Abreast lined s.round t.round ∧ s.round.rest = rest ∧ t.round.rest = rest' := by
  obtain ⟨c, cs, htext⟩ := List.exists_cons_of_ne_nil htakes.reads.text_ne_nil
  have hc : isInlineBlank c = false := hhead c (by rw [htext]; rfl)
  have hs' : s.rest = blanks ++ c :: (cs ++ rest) := by rw [hs, htext, List.cons_append]
  have ht' : t.rest = blanks ++ c :: (cs ++ rest') := by rw [ht, htext, List.cons_append]
  obtain ⟨hrecord, hmargin⟩ := h.begun
    ((atEmptyLine_append hc hblanks hs').trans (atEmptyLine_append hc hblanks ht').symm)
    fun _ => by rw [hs', ht', indentation_append hc, indentation_append hc]
  obtain ⟨pos, line, column, hround⟩ := htakes.round_eq hs hblanks hhead
  obtain ⟨pos', line', column', hround'⟩ := htakes'.round_eq ht hblanks hhead
  have hrest : s.round.rest = rest := by rw [hround, rest_perform]; rfl
  have hrest' : t.round.rest = rest' := by rw [hround', rest_perform]; rfl
  refine ⟨⟨?_, fun hlined => ?_, ?_, ?_⟩, hrest, hrest'⟩
  · rw [hround, hround']
    exact (hrecord.placed ..).perform text item
  · have hpassed : blanks ++ text ≠ [] :=
      List.append_ne_nil_of_right_ne_nil _ htakes.reads.text_ne_nil
    have hcount := line_round hpassed (s := s) (by rw [hrest, hs, List.append_assoc])
    have hcount' := line_round hpassed (s := t) (by rw [hrest', ht, List.append_assoc])
    have := h.line hlined
    omega
  · rw [(sameBlocks_round s).margin, (sameBlocks_round t).margin, hmargin]
  · rw [hround, hround']
    exact atLineStart_perform rfl rfl text item

/-- A round over white space goes to the end of the text and does nothing else. -/
theorem round_of_blank (h : ∀ c ∈ s.rest, isInlineBlank c = true) :
    ∃ pos column start, s.round = s.markLine.placed [] pos s.line column start := by
  rcases round_cases s with ⟨pos, column, start, -, hround⟩ |
    ⟨blanks, text, item, rest, pos, line, column, hsplit, -, hhead, hreads, -⟩
  · exact ⟨pos, column, start, by rw [hround, begun_of_blank h]⟩
  · obtain ⟨c, cs, rfl⟩ := List.exists_cons_of_ne_nil hreads.text_ne_nil
    have hblank := h c (by rw [hsplit]; simp)
    rw [hhead c rfl] at hblank
    cases hblank

/-- White space up to the end of the text leaves nothing. -/
theorem scanAll_of_blank (h : ∀ c ∈ s.rest, isInlineBlank c = true) :
    SameRecord false s s.scanAll ∧ s.scanAll.margin = s.margin := by
  by_cases hnil : s.rest = []
  · rw [scanAll_of_nil hnil]
    exact ⟨.refl false s, rfl⟩
  · obtain ⟨pos, column, start, hround⟩ := round_of_blank h
    rw [scanAll_of_ne_nil hnil, hround, scanAll_of_nil rfl]
    exact ⟨⟨rfl, rfl, rfl, by simp, rfl, rfl⟩, rfl⟩

/-- **The same text leaves the same**, to its end. -/
theorem Abreast.scanAll (h : Abreast lined s t) (hrest : s.rest = t.rest) :
    SameRecord lined s.scanAll t.scanAll ∧ s.scanAll.margin = t.scanAll.margin := by
  induction s using rounds_induction generalizing t with
  | ended s hnil =>
    rw [scanAll_of_nil hnil, scanAll_of_nil (hrest.symm.trans hnil)]
    exact ⟨h.toSameRecord, h.margin⟩
  | next s hne ih =>
    have hne' : t.rest ≠ [] := hrest ▸ hne
    rw [scanAll_of_ne_nil hne, scanAll_of_ne_nil hne']
    by_cases hblank : ∀ c ∈ s.rest, isInlineBlank c = true
    · obtain ⟨pos, column, start, hround⟩ := round_of_blank hblank
      obtain ⟨pos', column', start', hround'⟩ := round_of_blank (s := t) (hrest ▸ hblank)
      rw [hround, hround', scanAll_of_nil rfl, scanAll_of_nil rfl]
      exact ⟨(h.toSameRecord.markLine h.line).placed .., h.margin⟩
    · simp only [not_forall, Bool.not_eq_true] at hblank
      obtain ⟨c, hc, hnot⟩ := hblank
      obtain ⟨blanks, text, item, rest, hsplit, hblanks, hhead, htakes⟩ :=
        exists_takes_rest ⟨c, hc, hnot⟩
      obtain ⟨habreast, hs, ht⟩ :=
        h.round hsplit (hrest ▸ hsplit) hblanks hhead htakes htakes
      exact ih habreast (hs.trans ht.symm)

/-- **Two scanners that are abreast at the same text end with the same record.** -/
theorem Abreast.finish_scanAll (h : Abreast lined s t) (hrest : s.rest = t.rest) :
    SameRecord lined s.scanAll.finish t.scanAll.finish := by
  obtain ⟨hrecord, hmargin⟩ := h.scanAll hrest
  exact hrecord.finish (congrArg Margin.openBlocks hmargin)

end Scanner

end Scriptlet
