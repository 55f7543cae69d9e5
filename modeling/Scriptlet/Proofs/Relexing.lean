import Scriptlet.Proofs.Concatenation
import Scriptlet.Proofs.Parallel
import Scriptlet.Proofs.TokenLines

/-!
# Scanning what was scanned

The lexemes of a source without blocks, written one after the other, are scanned to the same tokens
again.

* `respelled`: tokens as a text, with a blank behind each lexeme and the line ends in their places.
* `Follows`: a second scanner has read the tokens of a first one from such a text, and the tokens
  that the first is still to find are before it.
* `follows_scanAll`: it goes on to do so. Where the first scanner passes comments, empty lines and
  the line ends of groups, the second stays where it is.
-/

namespace Scriptlet

/-- A token as a text: its lexeme with a blank behind it, or a line end. -/
def Token.respelled (t : Token) : List Char :=
  if t.kind = .newline then ['\n'] else t.lexeme.toList ++ [' ']

/-- Tokens as a text. -/
def respelled (ts : List Token) : List Char := ts.flatMap Token.respelled

/-! ## Flat lines -/

theorem Margin.Flat.head? {m : Margin} (h : m.Flat) (hne : m.widths ≠ []) :
    m.widths.head? = some 0 := by
  obtain ⟨w, ws, hws⟩ := List.exists_cons_of_ne_nil hne
  rw [hws, List.head?_cons, h.widths w (by rw [hws]; exact List.mem_cons_self)]

/-- In a flat margin, a line that opens no block is flush. -/
theorem Margin.Flat.width_eq_zero {m : Margin} (h : m.Flat) (hne : m.widths ≠ []) {width : Nat}
    (hmarks : Kind.indent ∉ (m.layOut width).marks) : width = 0 := by
  by_contra hwidth
  refine hmarks ?_
  have hhead : m.widths.head? ≠ some width := by
    rw [h.head? hne]
    exact fun heq => hwidth (Option.some.inj heq).symm
  have hopens : m.widths.headD 0 < width := by
    rw [List.headD_eq_head?_getD, h.head? hne]
    exact Nat.pos_of_ne_zero hwidth
  rw [Margin.layOut, if_neg hhead, if_pos hopens]
  exact List.mem_append_left _ (List.mem_replicate.mpr ⟨by decide, rfl⟩)

namespace Scanner

variable {s r : Scanner}

/-- The layout of a flush line is remembered, and nothing comes of it. -/
theorem begun_of_flat (hflat : s.margin.Flat) (hne : s.widths ≠ [])
    (hflush : s.startsLine = true → indentation s.rest = 0) :
    ∃ widths, s.begun = { s.markLine with widths := widths } ∧ ∀ w ∈ widths, w = 0 := by
  cases hstarts : s.startsLine with
  | false => exact ⟨s.widths, begun_of_not_startsLine hstarts, hflat.widths⟩
  | true =>
    have hlayout : s.margin.layOut (indentation s.rest) =
        ⟨[], true, ⟨0 :: s.widths, s.openBlocks⟩⟩ := by
      rw [hflush hstarts, Margin.layOut, if_pos (hflat.head? hne)]
      rfl
    refine ⟨0 :: s.widths, ?_, List.forall_mem_cons.mpr ⟨rfl, hflat.widths⟩⟩
    rw [begun, if_pos hstarts, hlayout]
    rfl

theorem sameRecord_begun {widths : List Nat} (h : s.begun = { s.markLine with widths := widths })
    (rest : List Char) (pos line column : Nat) :
    SameRecord false s (s.begun.placed rest pos line column false) := by
  rw [h]
  exact ⟨rfl, rfl, rfl, by simp, rfl, rfl⟩

/-- A line end makes no difference at the end of a source, where one is put if there is none. -/
theorem finish_endLine (s : Scanner) : SameRecord false s.finish s.endLine.finish := by
  have hblocks := congrArg Margin.openBlocks (sameBlocks_endLine s).margin
  cases hended : s.emitted.isEmpty || s.endsWith .newline with
  | true => exact (sameRecord_endLine (by rw [hended]; rfl)).finish hblocks.symm
  | false =>
    cases hnested : s.nested with
    | true => exact (sameRecord_endLine (by rw [hnested, Bool.or_true])).finish hblocks.symm
    | false =>
      have hmarked : s.endLine = { (s.mark .newline).breakLine with atLineStart := true } := by
        rw [endLine, if_neg (by simp [hended, hnested])]
      have hfinish : s.finish = (s.mark .newline).finish := by
        unfold finish
        rw [hended]
        rfl
      rw [hfinish, hmarked]
      exact SameRecord.finish ⟨rfl, rfl, rfl, by simp, rfl, rfl⟩ rfl

/-! ## Following -/

/-- The second scanner has recorded what the first has, and has a text before it that spells the
tokens `new`, with blanks in front unless it stands at the start of a line. -/
structure Follows (s r : Scanner) (new : List Token) : Prop where
  record : SameRecord false s r
  flat : r.margin.Flat
  widths : r.widths.getLast? = some 0
  rest : ∃ gap, r.rest = gap ++ respelled new ∧ (∀ c ∈ gap, isInlineBlank c = true) ∧
    (r.atLineStart = true → gap = [])

/-- The second scanner stays where it is if the first records nothing. -/
theorem Follows.stays {t : Scanner} {new : List Token} (h : s.Follows r new)
    (hrecord : SameRecord false s t) : t.Follows r new :=
  ⟨hrecord.symm.trans h.record, h.flat, h.widths, h.rest⟩

/-- **The second scanner reads what the first has read.** -/
theorem Follows.round {tok : Token} {new : List Token} (h : s.Follows r (tok :: new))
    {text gap : List Char} {item : Item} (hspelled : tok.respelled = text ++ gap)
    (htakes : Takes text item (gap ++ respelled new))
    (hhead : ∀ c ∈ text.head?, isInlineBlank c = false)
    (hgap : ∀ c ∈ gap, isInlineBlank c = true) (hstart : item = .newline → gap = []) :
    (s.perform text item).Follows r.round new ∧ r.rest ≠ [] := by
  obtain ⟨before, hrest, hbefore, hnone⟩ := h.rest
  rw [respelled, List.flatMap_cons, hspelled, List.append_assoc] at hrest
  obtain ⟨c, cs, htext⟩ := List.exists_cons_of_ne_nil htakes.reads.text_ne_nil
  have hne : r.widths ≠ [] := widths_ne_nil h.widths
  have hflush : r.startsLine = true → indentation r.rest = 0 := by
    intro hstarts
    simp only [startsLine, Bool.and_eq_true] at hstarts
    rw [hrest, hnone hstarts.1.1, htext, List.cons_append,
      indentation_append (hhead c (by rw [htext]; rfl))]
    rfl
  obtain ⟨widths, hbegun, hwidths⟩ := begun_of_flat h.flat hne hflush
  obtain ⟨pos, line, column, hround⟩ := htakes.round_eq hrest hbefore hhead
  refine ⟨⟨?_, ?_, getLast?_widths_round h.widths, gap, ?_, hgap, fun hround' => hstart ?_⟩, ?_⟩
  · rw [hround]
    exact (h.record.trans (sameRecord_begun hbegun ..)).perform text item
  · rw [(sameBlocks_round r).margin, hbegun]
    exact ⟨hwidths, h.flat.openBlocks⟩
  · rw [hround, rest_perform]
    rfl
  · by_contra hitem
    rw [hround, (perform_frame _ text item).2 hitem] at hround'
    cases hround'
  · rw [hrest, htext]
    simp

theorem Follows.token {tok : Token} {new : List Token} (h : s.Follows r (tok :: new))
    (hlexeme : Lexeme tok.kind tok.lexeme.toList tok.payload)
    (hhead : ∀ c ∈ tok.lexeme.toList.head?, isInlineBlank c = false) :
    (s.perform tok.lexeme.toList (.token tok.kind tok.payload)).Follows r.round new ∧
      r.rest ≠ [] := by
  have hkind : tok.kind ≠ .newline := by
    intro hnewline
    have := hlexeme.not_isLayout
    rw [hnewline] at this
    cases this
  have hbounded : Bounded (' ' :: respelled new) := by
    rintro c ⟨⟩
    exact .inl (by decide)
  refine h.round (if_neg hkind) (.of_lexeme hlexeme (.of_bounded hbounded ..)) hhead ?_ ?_
  · intro c hc
    rw [List.mem_singleton.mp hc]
    decide
  · intro hitem
    cases hitem

theorem Follows.newline {tok : Token} {new : List Token} (h : s.Follows r (tok :: new))
    (hkind : tok.kind = .newline) : s.endLine.Follows r.round new ∧ r.rest ≠ [] := by
  have hspelled : tok.respelled = ['\n'] ++ [] := if_pos hkind
  have htakes : Takes ['\n'] .newline ([] ++ respelled new) :=
    .of_reads .newline fun f hf => by cases hf
  refine h.round hspelled htakes ?_ (by simp) fun _ => rfl
  rintro c ⟨⟩
  decide

theorem Follows.finish (h : s.Follows r []) (hblocks : s.openBlocks = 0) :
    SameRecord false s.finish r.scanAll.finish := by
  obtain ⟨gap, hgap, hblank, -⟩ := h.rest
  have hrest : r.rest = gap := by rw [hgap, respelled, List.flatMap_nil, List.append_nil]
  obtain ⟨hrecord, hmargin⟩ := scanAll_of_blank (s := r) (hrest ▸ hblank)
  have hblocks' : r.scanAll.openBlocks = 0 :=
    (congrArg Margin.openBlocks hmargin).trans h.flat.openBlocks
  exact (h.record.trans hrecord).finish (hblocks.trans hblocks'.symm)

/-- At the end of the source, the line end that is still missing is the last that the second scanner
reads. -/
theorem exists_follows_finish (s : Scanner) (hblocks : s.openBlocks = 0) :
    ∃ new, s.finish.tokens = s.tokens ++ new ∧
      ∀ r, s.Follows r new → SameRecord false s.finish r.scanAll.finish := by
  cases hended : s.emitted.isEmpty || s.endsWith .newline with
  | true =>
    have hfinish : s.finish = s := by
      rw [finish, if_pos hended, hblocks]
      rfl
    exact ⟨[], by rw [hfinish, List.append_nil], fun r h => h.finish hblocks⟩
  | false =>
    have hfinish : s.finish = s.mark .newline := by
      rw [finish, if_neg (by simp [hended]), show (s.mark .newline).openBlocks = 0 from hblocks]
      rfl
    refine ⟨[⟨.newline, "", .null, s.tokenLine⟩], ?_, fun r h => ?_⟩
    · rw [hfinish, tokens, tokens]
      exact List.reverse_cons
    · obtain ⟨hfollows, hne⟩ := h.newline rfl
      have hblocks' : s.endLine.openBlocks = 0 :=
        (congrArg Margin.openBlocks (sameBlocks_endLine s).margin).trans hblocks
      rw [scanAll_of_ne_nil hne]
      exact (finish_endLine s).trans (hfollows.finish hblocks')

/-- Without a token that opens a block, the line at the cursor is flush. -/
theorem indentation_of_marks (hflat : s.margin.Flat) (hne : s.widths ≠ [])
    (h : Kind.indent ∉ s.round.scanAll.blockMarks) (hstarts : s.startsLine = true) :
    indentation s.rest = 0 := by
  refine hflat.width_eq_zero hne fun hmem => h ?_
  rw [blockMarks_scanAll, (sameBlocks_round s).marks, blockMarks_begun, layouts, if_pos hstarts,
    List.flatMap_singleton]
  exact List.mem_append_left _ (List.mem_append_right _ hmem)

/-- A round either leaves nothing, or a token that a scanner that follows can read. -/
theorem round_follows (hfailed : s.round.failed = false) (hflat : s.margin.Flat)
    (hne : s.widths ≠ []) (hflush : s.startsLine = true → indentation s.rest = 0) :
    (s.round.tokens = s.tokens ∧ SameRecord false s s.round) ∨
      ∃ tok, s.round.tokens = s.tokens ++ [tok] ∧ ∀ r new, s.Follows r (tok :: new) →
        s.round.Follows r.round new ∧ r.rest ≠ [] := by
  obtain ⟨widths, hbegun, -⟩ := begun_of_flat hflat hne hflush
  rcases round_cases s with ⟨pos, column, start, hblank, hround⟩ |
    ⟨blanks, text, item, rest, pos, line, column, -, -, hhead, hreads, hround⟩
  · rw [hround, begun_of_blank hblank]
    exact .inl ⟨rfl, rfl, rfl, rfl, by simp, rfl, rfl⟩
  · have hrecord := sameRecord_begun hbegun rest pos line column
    have hemitted : (s.begun.placed rest pos line column false).emitted = s.emitted := by
      rw [hbegun]
      rfl
    rw [hround] at hfailed ⊢
    generalize s.begun.placed rest pos line column false = u at hfailed hrecord hemitted ⊢
    have hflaw := (failed_perform hfailed).2
    cases hreads with
    | @token k _ _ p hlexeme hmax =>
      refine .inr ⟨⟨k, String.ofList text, p, u.tokenLine⟩, ?_, fun r new h => ?_⟩
      · rw [tokens, emitted_perform_token u hlexeme, hemitted, List.reverse_cons]
        rfl
      · have hfollows := (h.stays hrecord).token (by simpa using hlexeme) (by simpa using hhead)
        simpa using hfollows
    | comment => exact .inl ⟨congrArg List.reverse hemitted, hrecord⟩
    | newline =>
      cases hmarked : u.emitted.isEmpty || u.endsWith .newline || u.nested with
      | true =>
        refine .inl ⟨?_, hrecord.trans (sameRecord_endLine hmarked)⟩
        show u.endLine.tokens = s.tokens
        rw [endLine, if_pos hmarked]
        exact congrArg List.reverse hemitted
      | false =>
        refine .inr ⟨⟨.newline, "", .null, u.tokenLine⟩, ?_, fun r new h => ?_⟩
        · show u.endLine.tokens = _
          rw [endLine, if_neg (by simp [hmarked]), tokens, tokens, ← hemitted]
          exact List.reverse_cons
        · exact (h.stays hrecord).newline rfl
    | numeral => exact absurd rfl (hflaw _)
    | openString => exact absurd rfl (hflaw _)
    | unknown => exact absurd rfl (hflaw _)

/-- **Following a scan to its end.** The tokens that the first scanner is still to find are those
that the second one has before it. The induction goes from the end of the first scan back, since
the tokens to come are known there. -/
theorem follows_scanAll (s : Scanner) (hfailed : s.scanAll.failed = false) (hflat : s.margin.Flat)
    (hwidths : s.widths.getLast? = some 0) (hmarks : Kind.indent ∉ s.scanAll.blockMarks) :
    ∃ new, s.scanAll.finish.tokens = s.tokens ++ new ∧
      ∀ r, s.Follows r new → SameRecord false s.scanAll.finish r.scanAll.finish := by
  induction s using rounds_induction with
  | ended s hrest =>
    rw [scanAll_of_nil hrest]
    exact exists_follows_finish s hflat.openBlocks
  | next s hrest ih =>
    rw [scanAll_of_ne_nil hrest] at hfailed hmarks ⊢
    have hne := widths_ne_nil hwidths
    have hflush := indentation_of_marks hflat hne hmarks
    obtain ⟨widths, hbegun, hzero⟩ := begun_of_flat hflat hne hflush
    have hflat' : s.round.margin.Flat := by
      rw [(sameBlocks_round s).margin, hbegun]
      exact ⟨hzero, hflat.openBlocks⟩
    obtain ⟨new, htokens, hfollows⟩ :=
      ih hfailed hflat' (getLast?_widths_round hwidths) hmarks
    rcases round_follows (failed_round hfailed) hflat hne hflush with
      ⟨hsame, hrecord⟩ | ⟨tok, htok, hstep⟩
    · rw [hsame] at htokens
      exact ⟨new, htokens, fun r h => hfollows r (h.stays hrecord)⟩
    · rw [htok, List.append_assoc] at htokens
      refine ⟨tok :: new, htokens, fun r h => ?_⟩
      obtain ⟨hnext, hleft⟩ := hstep r new h
      rw [scanAll_of_ne_nil hleft]
      exact hfollows r.round hnext

/-- **Lexemes are scanned to their tokens again.** Take a source that is scanned without a report
and without a block, and write its tokens one after the other, each line end as one and each other
token as its lexeme with a blank behind it. Scanning that text makes no report and gives the same
tokens, lines aside. -/
theorem relexing_gives_same_tokens (s : Scanner) (hfailed : s.tokenize.failed = false)
    (hflat : ∀ t ∈ s.tokenize.tokens, t.kind ≠ .indent) (earlier : Diagnostics) :
    let r := (ofChars (respelled s.tokenize.tokens) earlier).tokenize
    r.failed = false ∧ r.reports = earlier ∧
      r.tokens.map Token.unlined = s.tokenize.tokens.map Token.unlined := by
  intro r
  have hscan : s.reset.scanAll.failed = false := by rwa [tokenize, failed_finish] at hfailed
  have hstart (source : List Char) (reports : Diagnostics) :
      (ofChars source reports).margin.Flat := ⟨by simp [margin, ofChars], rfl⟩
  obtain ⟨new, htokens, hfollows⟩ :=
    follows_scanAll s.reset hscan (hstart ..) rfl (indent_not_mem_blockMarks hflat)
  obtain rfl : s.tokenize.tokens = new := htokens
  have hrecord : SameRecord false s.tokenize
      (ofChars (respelled s.tokenize.tokens) s.reports).tokenize :=
    hfollows _ ⟨⟨rfl, rfl, rfl, by simp, rfl, rfl⟩, hstart .., rfl, [], rfl, by simp, fun _ => rfl⟩
  -- what is scanned does not depend on the reports made earlier
  obtain ⟨hr, hrfailed⟩ := tokenize_earlier (respelled s.tokenize.tokens) earlier
  obtain ⟨hr', hrfailed'⟩ := tokenize_earlier (respelled s.tokenize.tokens) s.reports
  have hfailed' : r.failed = false := by
    rw [hrfailed, ← hrfailed', ← hrecord.failed, hfailed]
  refine ⟨hfailed', ?_, ?_⟩
  · obtain ⟨own, hown, -, hany⟩ :=
      (edits_tokenize (ofChars (respelled s.tokenize.tokens) earlier)).invariant Edit.reported
        (reported_reset _)
    have hnone : own = [] := by
      by_contra hne
      rw [hany.mpr hne] at hfailed'
      cases hfailed'
    rw [hown, hnone]
    rfl
  · rw [hr, ← hr']
    exact hrecord.tokens.symm

/-- Operators side by side, a string over two lines, and groups that are left open. -/
theorem relexing_sample :
    let s := ofSource "a+=b # c\n\n  # d\n(\"x\\\"\n\" [\n ==c" {}
    let text := "a += b \n( \"x\\\"\n\" [ == c \n".toList
    s.tokenize.failed = false ∧ (∀ t ∈ s.tokenize.tokens, t.kind ≠ .indent) ∧
      respelled s.tokenize.tokens = text ∧ (ofChars text {}).tokenize.failed = false ∧
      (ofChars text {}).tokenize.tokens.map Token.unlined =
        s.tokenize.tokens.map Token.unlined := by
  intro s text
  have hfailed : s.tokenize.failed = false := by decide +kernel
  have hflat : ∀ t ∈ s.tokenize.tokens, t.kind ≠ .indent := by decide +kernel
  have htext : respelled s.tokenize.tokens = text := by decide +kernel
  obtain ⟨hr, -, htokens⟩ := relexing_gives_same_tokens s hfailed hflat {}
  rw [htext] at hr htokens
  exact ⟨hfailed, hflat, htext, hr, htokens⟩

end Scanner

end Scriptlet
