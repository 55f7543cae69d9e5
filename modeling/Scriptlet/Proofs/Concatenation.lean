import Scriptlet.Proofs.Embedding

/-!
# Sources one behind the other

Where a flat source ends, the scanner stands as it does at the start of a source. So a source behind
it is scanned as if it were alone.

* `Reads.eq_newline`: a text that ends with a line end and is no flaw is that line end.
* `Scanner.Fresh`: the scanner stands at the start of a line, nothing is open and no line has been
  indented. `fresh_scanAll`: it does so at the end of a flat source.
* `tokenize_append`: what is scanned from two sources, one behind the other.
-/

namespace Scriptlet

/-! ## The end of a text -/

theorem Lexeme.getLast?_ne {k : Kind} {text : List Char} {p : Document} (h : Lexeme k text p) :
    text.getLast? ≠ some '\n' := by
  have hspelling : ∀ k : Kind, k.spelling.toList.getLast? ≠ some '\n' := by
    intro k
    cases k <;> decide
  intro hlast
  have hmem : '\n' ∈ text := List.mem_of_getLast? hlast
  cases h with
  | keyword _ => exact hspelling k hlast
  | symbol _ => exact hspelling k hlast
  | truth b =>
    cases b
    · exact absurd hlast (by decide)
    · exact absurd hlast (by decide)
  | name hword =>
    obtain ⟨c, cs, rfl, hstart, hgoes⟩ := hword
    rcases List.mem_cons.mp hmem with rfl | hmem
    · exact absurd hstart (by decide)
    · exact absurd (hgoes _ hmem) (by decide)
  | number hnumber =>
    rcases hnumber.2.1 _ hmem with h | h | h
    · exact absurd h (by decide)
    · exact absurd h (by decide)
    · exact absurd h (by decide)
  | string _ hclosing _ =>
    rw [List.getLast?_concat] at hlast
    cases hlast
    exact absurd hclosing (by decide)

/-- What ends with a line end is a line end, unless it is a flaw. -/
theorem Reads.eq_newline {text rest : List Char} {item : Item} (h : Reads text item rest)
    (hlast : text.getLast? = some '\n') (hflaw : ∀ f, item ≠ .flaw f) : item = .newline := by
  cases h with
  | token hlexeme _ => exact absurd hlast hlexeme.getLast?_ne
  | comment hbody _ =>
    rcases List.mem_cons.mp (List.mem_of_getLast? hlast) with heq | hmem
    · exact absurd heq (by decide)
    · exact absurd hmem hbody
  | newline => rfl
  | numeral _ _ => exact absurd rfl (hflaw _)
  | openString _ _ _ => exact absurd rfl (hflaw _)
  | unknown _ => exact absurd rfl (hflaw _)

/-! ## Flat margins -/

/-- No block is open, and no line has been indented. -/
structure Margin.Flat (m : Margin) : Prop where
  widths : ∀ w ∈ m.widths, w = 0
  openBlocks : m.openBlocks = 0

/-- A flat margin stays flat unless a line opens a block. -/
theorem Margin.Flat.layOut {m : Margin} (h : m.Flat) (hne : m.widths ≠ []) {width : Nat}
    (hmarks : Kind.indent ∉ (m.layOut width).marks) : (m.layOut width).after.Flat := by
  obtain ⟨w, ws, hws⟩ := List.exists_cons_of_ne_nil hne
  have hw : w = 0 := h.widths w (by rw [hws]; exact List.mem_cons_self)
  unfold Margin.layOut at hmarks ⊢
  by_cases hwidth : width = 0
  · have hhead : m.widths.head? = some width := by
      rw [hws, hw, hwidth]
      rfl
    rw [if_pos hhead]
    refine ⟨fun v hv => ?_, h.openBlocks⟩
    rcases List.mem_cons.mp hv with rfl | hv
    · exact hwidth
    · exact h.widths v hv
  · have hhead : m.widths.head? ≠ some width := by
      rw [hws, hw]
      exact fun heq => hwidth (Option.some.inj heq).symm
    have hopens : m.widths.headD 0 < width := by
      rw [hws, hw]
      exact Nat.pos_of_ne_zero hwidth
    rw [if_neg hhead, if_pos hopens] at hmarks
    exact absurd (List.mem_append_left _ (List.mem_replicate.mpr ⟨by decide, rfl⟩)) hmarks

namespace Scanner

theorem flat_round {s : Scanner} (h : s.margin.Flat) (hne : s.widths ≠ [])
    (hmarks : Kind.indent ∉ s.layouts.flatMap Layout.marks) : s.round.margin.Flat := by
  rw [(sameBlocks_round s).margin, margin_begun]
  unfold layouts at hmarks
  split
  · rename_i hstarts
    rw [if_pos hstarts, List.flatMap_singleton] at hmarks
    exact h.layOut hne hmarks
  · exact h

/-- **Without a block, all lines are flush.** -/
theorem flat_scanAll (s : Scanner) (h : s.margin.Flat) (hwidths : s.widths.getLast? = some 0)
    (hmarks : Kind.indent ∉ s.scanAll.blockMarks) : s.scanAll.margin.Flat := by
  induction s using rounds_induction with
  | ended s hrest =>
    rw [scanAll_of_nil hrest]
    exact h
  | next s hrest ih =>
    rw [scanAll_of_ne_nil hrest] at hmarks ⊢
    refine ih (flat_round h (widths_ne_nil hwidths) fun hmem => hmarks ?_)
      (getLast?_widths_round hwidths) hmarks
    rw [blockMarks_scanAll, (sameBlocks_round s).marks, blockMarks_begun]
    exact List.mem_append_left _ (List.mem_append_right _ hmem)

/-- If no token at the end of the source opens a block, none opened one before. -/
theorem indent_not_mem_blockMarks {s : Scanner} (h : ∀ t ∈ s.finish.tokens, t.kind ≠ .indent) :
    Kind.indent ∉ s.blockMarks := by
  intro hmem
  obtain ⟨t, ht, hkind⟩ := List.mem_map.mp (List.mem_filter.mp hmem).1
  obtain ⟨new, hnew, -⟩ := emitted_finish s
  refine h t ?_ hkind
  rw [tokens, hnew]
  exact List.mem_reverse.mpr (List.mem_append_right new (List.mem_reverse.mp ht))

/-! ## The end of a source -/

/-- The scanner stands at the start of a line. -/
structure AtStart (s : Scanner) : Prop where
  atLineStart : s.atLineStart = true
  column : s.column = 1
  line : 0 < s.line
  /-- The line before has been ended, if it has any tokens and is not part of a group. -/
  ended : s.nested = false → ∀ t ∈ s.emitted.head?, t.kind = .newline

theorem atStart_endLine (s : Scanner) : s.endLine.AtStart := by
  unfold endLine
  dsimp only
  split
  · rename_i h
    refine ⟨rfl, rfl, Nat.succ_pos _, fun hnested t ht => ?_⟩
    have hnested : s.nested = false := hnested
    have ht : t ∈ s.emitted.head? := ht
    rw [hnested, Bool.or_false, Bool.or_eq_true] at h
    rcases h with hempty | hends
    · rw [List.isEmpty_iff.mp hempty] at ht
      cases ht
    · rw [endsWith, Option.mem_def.mp ht] at hends
      simpa using hends
  · refine ⟨rfl, rfl, Nat.succ_pos _, fun _ t ht => ?_⟩
    cases ht
    rfl

/-- **The last line end is scanned last.** -/
theorem atStart_scanAll (s : Scanner) (hne : s.rest ≠ []) (hends : EndsLine s.rest)
    (hfailed : s.scanAll.failed = false) : s.scanAll.AtStart := by
  induction s using rounds_induction with
  | ended s hrest => exact absurd hrest hne
  | next s hrest ih =>
    rw [scanAll_of_ne_nil hrest] at hfailed ⊢
    by_cases hleft : s.round.rest = []
    · rw [scanAll_of_nil hleft] at hfailed ⊢
      rcases round_cases s with ⟨pos, column, start, hblank, -⟩ |
        ⟨blanks, text, item, rest, pos, line, column, hsplit, -, -, hreads, hround⟩
      · exact absurd (hblank _ (hends.mem hrest)) (by decide)
      · rw [hround, rest_perform] at hleft
        obtain rfl : rest = [] := hleft
        -- the last item ends where the text does
        have hlast : text.getLast? = some '\n' := by
          have htext := List.getLast?_eq_some_getLast hreads.text_ne_nil
          rw [htext]
          refine congrArg some (hends _ ?_)
          rw [hsplit, List.append_nil, List.getLast?_append, htext]
          rfl
        rw [hround] at hfailed ⊢
        rw [hreads.eq_newline hlast (failed_perform hfailed).2]
        exact atStart_endLine _
    · exact ih hleft (hends.suffix (rest_round_suffix s)) hfailed

/-- The scanner has come to the end of its source and stands as at the start of another. -/
structure Fresh (s : Scanner) : Prop extends s.AtStart where
  rest : s.rest = []
  failed : s.failed = false
  flat : s.margin.Flat
  widths : s.widths ≠ []
  openParens : s.openParens = 0
  openBrackets : s.openBrackets = 0

theorem Fresh.head {s : Scanner} (h : s.Fresh) : ∀ t ∈ s.emitted.head?, t.kind = .newline :=
  h.ended (by rw [nested, h.openParens, h.openBrackets]; rfl)

/-- Nothing is left to be ended or closed. -/
theorem Fresh.finish_eq {s : Scanner} (h : s.Fresh) : s.finish = s := by
  have hblocks : s.openBlocks = 0 := h.flat.openBlocks
  have hended : (s.emitted.isEmpty || s.endsWith .newline) = true := by
    cases hemitted : s.emitted with
    | nil => rfl
    | cons t ts =>
      have hnewline := h.head t (by rw [hemitted]; rfl)
      simp [endsWith, hemitted, hnewline]
  unfold finish
  dsimp only
  rw [if_pos hended, hblocks]
  rfl

theorem groups_finish (s : Scanner) :
    s.finish.openParens = s.openParens ∧ s.finish.openBrackets = s.openBrackets := by
  unfold finish
  dsimp only
  rw [closeBlocks_eq]
  split
  · exact ⟨rfl, rfl⟩
  · exact ⟨rfl, rfl⟩

/-- **A flat source leaves the scanner as it was at the start**: a source that ends with a line end,
if it has any text, and is scanned without reports, blocks and open groups. -/
theorem fresh_scanAll {source : List Char} (hends : EndsLine source)
    (hfailed : (ofChars source {}).tokenize.failed = false)
    (hflat : ∀ t ∈ (ofChars source {}).tokenize.tokens, t.kind ≠ .indent)
    (hparens : (ofChars source {}).tokenize.openParens = 0)
    (hbrackets : (ofChars source {}).tokenize.openBrackets = 0) :
    (ofChars source {}).scanAll.Fresh := by
  have htokenize : (ofChars source {}).tokenize = (ofChars source {}).scanAll.finish := rfl
  rw [htokenize, failed_finish] at hfailed
  rw [htokenize] at hflat
  rw [htokenize, (groups_finish _).1] at hparens
  rw [htokenize, (groups_finish _).2] at hbrackets
  have hwidths : (ofChars source {}).widths.getLast? = some 0 := rfl
  have hwidths' := (edits_scanAll (ofChars source {})).invariant Edit.getLast?_widths hwidths
  have hmarks := indent_not_mem_blockMarks hflat
  have hstart : (ofChars source {}).margin.Flat := ⟨by simp [margin, ofChars], rfl⟩
  refine ⟨?_, rest_scanAll _, hfailed, flat_scanAll _ hstart hwidths hmarks, widths_ne_nil hwidths',
    hparens, hbrackets⟩
  by_cases hne : source = []
  · rw [scanAll_of_nil (s := ofChars source {}) hne]
    exact ⟨rfl, rfl, Nat.one_pos, fun _ t ht => by cases ht⟩
  · exact atStart_scanAll (ofChars source {}) hne hends hfailed

/-! ## The seam -/

/-- What a source that has been scanned is to the scan of a source behind it. -/
def preface (s : Scanner) (source : List Char) (earlier : Diagnostics) : Surroundings :=
  { source := source
    behind := []
    pos := s.pos
    lines := s.line - 1
    laidOut := s.widths.length - 1
    emitted := s.emitted
    reports := earlier ++ s.reports.records }

/-- What stands behind a source, and the reports made before it. -/
def frame (source behind : List Char) (earlier : Diagnostics) : Surroundings :=
  ⟨source, behind, 0, 0, 0, [], earlier⟩

end Scanner

theorem Token.map_onward_zero (ts : List Token) : ts.map (onward 0) = ts := by
  have hzero : (onward 0 : Token → Token) = id := by
    funext t
    simp [onward]
  rw [hzero, List.map_id]

theorem Diagnostic.map_onward_zero (ds : List Diagnostic) : ds.map (onward 0) = ds := by
  have hzero : (onward 0 : Diagnostic → Diagnostic) = id := by
    funext d
    simp [onward]
  rw [hzero, List.map_id]

namespace Scanner

/-- **The seam.** But for the line that it takes for tokens, the scanner stands behind a flat source
as it stands at the start of the next one. -/
theorem Fresh.markLine_eq {s : Scanner} (h : s.Fresh) (source behind : List Char)
    (earlier : Diagnostics) :
    (s.within (frame source behind earlier)).markLine =
      ((ofChars behind {}).within (s.preface source earlier)).markLine := by
  have hline : s.line - 1 + 1 = s.line := Nat.sub_add_cancel h.line
  have hwidths : s.widths = 0 :: List.replicate (s.widths.length - 1) 0 := by
    have hpos := List.length_pos_iff.mpr h.widths
    rw [← List.replicate_succ, Nat.sub_add_cancel hpos]
    exact List.eq_replicate_iff.mpr ⟨rfl, h.flat.widths⟩
  have hblocks : s.openBlocks = 0 := h.flat.openBlocks
  simp [within, frame, preface, markLine, ofChars, Token.map_onward_zero,
    Diagnostic.map_onward_zero, h.rest, h.atLineStart, h.column, h.failed, h.openParens,
    h.openBrackets, hblocks, hline, ← hwidths]

theorem round_markLine (s : Scanner) : s.markLine.round = s.round := rfl

/-- **A source behind a flat one is scanned as if it were alone**, with its lines counted on. -/
theorem Fresh.scanAll_within {s : Scanner} (h : s.Fresh) (source : List Char) {behind : List Char}
    (hne : behind ≠ []) (earlier : Diagnostics) :
    (s.within (frame source behind earlier)).scanAll =
      (ofChars behind {}).scanAll.within (s.preface source earlier) := by
  have hround := congrArg round (h.markLine_eq source behind earlier)
  rw [round_markLine, round_markLine] at hround
  have hended : (s.preface source earlier).Ended := h.head
  have hleft : (s.within (frame source behind earlier)).rest ≠ [] :=
    List.append_ne_nil_of_right_ne_nil s.rest hne
  have hright : ((ofChars behind {}).within (s.preface source earlier)).rest ≠ [] :=
    List.append_ne_nil_of_left_ne_nil hne []
  calc (s.within (frame source behind earlier)).scanAll
      = (s.within (frame source behind earlier)).round.scanAll := scanAll_of_ne_nil hleft
    _ = ((ofChars behind {}).within (s.preface source earlier)).round.scanAll := by rw [hround]
    _ = ((ofChars behind {}).within (s.preface source earlier)).scanAll :=
        (scanAll_of_ne_nil hright).symm
    _ = (ofChars behind {}).scanAll.within (s.preface source earlier) :=
        scanAll_within_end hended rfl _ rfl

theorem ended_frame (source behind : List Char) (earlier : Diagnostics) :
    (frame source behind earlier).Ended := by
  intro t ht
  cases ht

/-- The start of a source is the start of a part of it that stands first. -/
theorem ofChars_append (p q : List Char) (earlier : Diagnostics) :
    ofChars (p ++ q) earlier = (ofChars p {}).within (frame (p ++ q) q earlier) := by
  simp [within, frame, ofChars]

/-- What is scanned does not depend on the reports made earlier. -/
theorem tokenize_earlier (source : List Char) (earlier : Diagnostics) :
    (ofChars source earlier).tokenize.tokens = (ofChars source {}).tokenize.tokens ∧
      (ofChars source earlier).tokenize.failed = (ofChars source {}).tokenize.failed := by
  have hended := ended_frame source [] earlier
  have hstart := ofChars_append source [] earlier
  rw [List.append_nil] at hstart
  have htokenize : (ofChars source earlier).tokenize =
      (ofChars source {}).tokenize.within (frame source [] earlier) := by
    show (ofChars source earlier).scanAll.finish = (ofChars source {}).scanAll.finish.within _
    rw [hstart, scanAll_within_end hended rfl _ rfl, finish_within hended]
  rw [htokenize]
  refine ⟨?_, rfl⟩
  simp [tokens, within, frame, Token.map_onward_zero]

/-- **Sources compose.** Behind a flat source, the tokens of another source are those that it has
alone, as many lines further on, and it fails if it fails alone. -/
theorem Fresh.tokenize_append {p : List Char} (h : (ofChars p {}).scanAll.Fresh)
    (hends : EndsLine p) (q : List Char) (earlier : Diagnostics) :
    ∃ lines, (ofChars (p ++ q) earlier).tokenize.tokens =
        (ofChars p {}).tokenize.tokens ++ (ofChars q {}).tokenize.tokens.map (Token.onward lines) ∧
      (ofChars (p ++ q) earlier).tokenize.failed = (ofChars q {}).tokenize.failed := by
  have hp : (ofChars p {}).tokenize = (ofChars p {}).scanAll := h.finish_eq
  by_cases hq : q = []
  · obtain ⟨htokens, hfailed⟩ := tokenize_earlier p earlier
    have hempty : (ofChars [] {}).tokenize = ofChars [] {} := by
      rw [tokenize, reset, scanAll_of_nil rfl]
      rfl
    rw [hq, List.append_nil, htokens, hfailed, hempty, hp, h.failed]
    exact ⟨0, (List.append_nil _).symm, rfl⟩
  · have hended : ((ofChars p {}).scanAll.preface (p ++ q) earlier).Ended := h.head
    have htokenize : (ofChars (p ++ q) earlier).tokenize =
        (ofChars q {}).tokenize.within ((ofChars p {}).scanAll.preface (p ++ q) earlier) := by
      show (ofChars (p ++ q) earlier).scanAll.finish = (ofChars q {}).scanAll.finish.within _
      rw [ofChars_append, scanAll_within_start (ended_frame _ _ _) _ rfl hends h.failed,
        h.scanAll_within (p ++ q) hq, finish_within hended]
    rw [htokenize, hp]
    refine ⟨(ofChars p {}).scanAll.line - 1, ?_, rfl⟩
    simp [tokens, within, preface]

end Scanner

end Scriptlet
