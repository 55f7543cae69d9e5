import Scriptlet.Proofs.Session
import Scriptlet.Proofs.SourceLines

/-!
# A source inside another

What a scanner does with a text does not depend on what stands before and behind it, if the text is
set apart by line ends and no block is open around it.

* `Surroundings`, `Scanner.within`: a scanner as a part of the scan of a larger source.
* `advanceBy_within` … `finish_within`: each step of the scanner does the same there. Where a step
  looks ahead, a line end that is still to come keeps it from seeing what stands behind.
* `round_within`: so does a round, and with it the loop: `scanAll_within_start` if something stands
  behind, `scanAll_within_end` if nothing does.
-/

namespace Scriptlet

/-- A token as many lines further on. -/
def Token.onward (lines : Nat) (t : Token) : Token := { t with line := lines + t.line }

/-- A report as many lines further on. -/
def Diagnostic.onward (lines : Nat) (d : Diagnostic) : Diagnostic :=
  { d with line := d.line.map fun line => lines + line }

/-- What a larger source adds to the scan of one of its parts. -/
structure Surroundings where
  /-- The larger source. -/
  source : List Char
  /-- The text behind the part. -/
  behind : List Char
  /-- The place of the part. -/
  pos : Nat
  /-- The lines before the part. -/
  lines : Nat
  /-- How many of them have been laid out, all with width zero. -/
  laidOut : Nat
  /-- The tokens before, latest first. -/
  emitted : List Token
  /-- The reports made earlier. -/
  reports : Diagnostics

namespace Surroundings

/-- The line before the part has been ended, if it has any tokens. -/
def Ended (x : Surroundings) : Prop := ∀ t ∈ x.emitted.head?, t.kind = .newline

/-- Nothing stands behind the text `cs`, or a line end stands in between. -/
def Apart (x : Surroundings) (cs : List Char) : Prop := x.behind = [] ∨ '\n' ∈ cs

theorem Apart.tail {x : Surroundings} {c : Char} {cs : List Char} (h : x.Apart (c :: cs))
    (hc : c ≠ '\n') : x.Apart cs :=
  h.imp_right fun hmem => (List.mem_cons.mp hmem).resolve_left hc.symm

theorem mem_dropWhile_of_mem {p : Char → Bool} {c : Char} (hc : p c = false) {cs : List Char}
    (h : c ∈ cs) : c ∈ cs.dropWhile p := by
  rw [← List.takeWhile_append_dropWhile (p := p) (l := cs)] at h
  rcases List.mem_append.mp h with h | h
  · rw [List.mem_takeWhile_imp h] at hc
    cases hc
  · exact h

theorem Apart.dropWhile {x : Surroundings} {cs : List Char} (h : x.Apart cs) {p : Char → Bool}
    (hp : p '\n' = false) : x.Apart (cs.dropWhile p) :=
  h.imp_right (mem_dropWhile_of_mem hp)

/-- What is passed while a condition holds ends at the line end. -/
theorem Apart.takeWhile_append {x : Surroundings} {cs : List Char} (h : x.Apart cs)
    {p : Char → Bool} (hp : p '\n' = false) : (cs ++ x.behind).takeWhile p = cs.takeWhile p := by
  rcases h with hbehind | hmem
  · rw [hbehind, List.append_nil]
  · have hne := List.ne_nil_of_mem (mem_dropWhile_of_mem hp hmem)
    exact (takeWhile_append_of_dropWhile_ne hne x.behind).1

theorem Apart.dropWhile_append {x : Surroundings} {cs : List Char} (h : x.Apart cs)
    {p : Char → Bool} (hp : p '\n' = false) :
    (cs ++ x.behind).dropWhile p = cs.dropWhile p ++ x.behind := by
  rcases h with hbehind | hmem
  · rw [hbehind, List.append_nil, List.append_nil]
  · have hne := List.ne_nil_of_mem (mem_dropWhile_of_mem hp hmem)
    exact (takeWhile_append_of_dropWhile_ne hne x.behind).2

theorem Apart.numberSpan_append {x : Surroundings} {cs : List Char} (h : x.Apart cs)
    (metPeriod : Bool) : numberSpan metPeriod (cs ++ x.behind) = numberSpan metPeriod cs := by
  rcases h with hbehind | hmem
  · rw [hbehind, List.append_nil]
  · induction cs generalizing metPeriod with
    | nil => cases hmem
    | cons c cs ih =>
      rw [List.cons_append, numberSpan, numberSpan]
      by_cases hc : c = '\n'
      · rw [hc]
        rfl
      · have hmem : '\n' ∈ cs := (List.mem_cons.mp hmem).resolve_left (Ne.symm hc)
        rw [ih true hmem, ih metPeriod hmem]

end Surroundings

/-- A string that is closed is the same whatever stands behind. -/
theorem splitPieces_append {cs : List Char} {c : Char} {rest : List Char}
    (h : (splitPieces cs).2 = c :: rest) (hc : isQuote c = true) (behind : List Char) :
    splitPieces (cs ++ behind) = ((splitPieces cs).1, (splitPieces cs).2 ++ behind) := by
  fun_induction splitPieces cs with
  | case1 => cases h
  | case2 d hd =>
    cases h
    cases behind with
    | nil => rw [List.append_nil, splitPieces, if_pos hd]
    | cons e behind => rw [List.cons_append, List.nil_append, splitPieces, if_pos hc]
  | case3 d hd => cases h
  | case4 d e cs hd => rw [List.cons_append, List.cons_append, splitPieces, if_pos hd]
  | case5 e cs ps more heq hd ih =>
    rw [heq] at ih
    rw [List.cons_append, List.cons_append, splitPieces, if_neg hd, if_pos rfl, ih h]
  | case6 d e cs hd hb ps more heq ih =>
    rw [heq] at ih
    rw [List.cons_append, List.cons_append, splitPieces, if_neg hd, if_neg hb, ← List.cons_append,
      ih h]

/-! ## Margins -/

/-- Earlier lines of width zero close no block. -/
theorem unwind_replicate (width n : Nat) (lowest : Option Nat) (blocks : Nat) :
    unwind width (List.replicate n 0) lowest blocks = ⟨0, true⟩ := by
  induction n with
  | zero => rfl
  | succ n ih =>
    rw [List.replicate_succ, unwind.eq_def]
    dsimp only
    split
    · rfl
    · simpa using ih

theorem unwind_append_replicate (width n : Nat) (ws : List Nat) (lowest : Option Nat)
    (blocks : Nat) :
    unwind width (ws ++ List.replicate n 0) lowest blocks = unwind width ws lowest blocks := by
  induction ws generalizing lowest blocks with
  | nil => exact unwind_replicate width n lowest blocks
  | cons w ws ih =>
    rw [List.cons_append, unwind.eq_def, unwind.eq_def]
    dsimp only
    split
    · rfl
    · split
      · cases blocks with
        | zero => rfl
        | succ blocks => simp only [ih]
      · exact ih lowest blocks

/-- A margin below earlier lines of width zero. -/
def Margin.below (m : Margin) (n : Nat) : Margin :=
  { m with widths := m.widths ++ List.replicate n 0 }

/-- **The layout of a line does not depend on lines of width zero further up.** -/
theorem Margin.layOut_below {m : Margin} (h : m.widths ≠ []) (n width : Nat) :
    (m.below n).layOut width =
      { m.layOut width with after := (m.layOut width).after.below n } := by
  obtain ⟨w, ws, hws⟩ := List.exists_cons_of_ne_nil h
  have hhead : (m.below n).widths.head? = m.widths.head? := by
    rw [below, hws]
    rfl
  have hheadD : (m.below n).widths.headD 0 = m.widths.headD 0 := by
    rw [below, hws]
    rfl
  unfold layOut
  rw [hhead, hheadD]
  by_cases hsame : m.widths.head? = some width
  · rw [if_pos hsame, if_pos hsame]
    rfl
  · rw [if_neg hsame, if_neg hsame]
    dsimp only
    simp only [below, unwind_append_replicate]
    generalize unwind width m.widths none _ = unwound
    cases unwound.matched <;> rfl

namespace Scanner

variable {x : Surroundings} {s : Scanner}

/-- The scanner as a part of the scan of a larger source. -/
def within (s : Scanner) (x : Surroundings) : Scanner :=
  { s with
    source := x.source
    rest := s.rest ++ x.behind
    pos := x.pos + s.pos
    line := x.lines + s.line
    tokenLine := x.lines + s.tokenLine
    widths := s.widths ++ List.replicate x.laidOut 0
    emitted := s.emitted.map (Token.onward x.lines) ++ x.emitted
    reports := x.reports ++ s.reports.records.map (Diagnostic.onward x.lines) }

theorem rest_within (s : Scanner) (x : Surroundings) :
    (s.within x).rest = s.rest ++ x.behind :=
  rfl

/-! ## Moves -/

theorem advanceBy_within {n : Nat} (h : n ≤ s.rest.length) (x : Surroundings) :
    (s.within x).advanceBy n = (s.advanceBy n).within x := by
  simp only [within, advanceBy, List.drop_append_of_le_length h, Nat.add_assoc]

theorem advance_within (h : s.rest ≠ []) (x : Surroundings) :
    (s.within x).advance = s.advance.within x :=
  advanceBy_within (List.length_pos_iff.mpr h) x

theorem skipWhile_within {p : Char → Bool} (hp : p '\n' = false) (h : x.Apart s.rest) :
    (s.within x).skipWhile p = (s.skipWhile p).within x := by
  unfold skipWhile
  rw [rest_within, h.takeWhile_append hp]
  exact advanceBy_within (List.takeWhile_prefix p).length_le x

theorem fault_within (s : Scanner) (x : Surroundings) (f : ScanFault) :
    (s.within x).fault f = (s.fault f).within x := by
  simp only [fault, report, within, Diagnostics.records_report, List.map_append,
    Diagnostics.append_append]
  rfl

theorem markLine_within (s : Scanner) (x : Surroundings) :
    (s.within x).markLine = s.markLine.within x :=
  rfl

theorem atEmptyLine_within (h : x.Apart s.rest) : (s.within x).atEmptyLine = s.atEmptyLine := by
  unfold atEmptyLine
  rw [rest_within, h.dropWhile_append (by decide)]
  rcases h with hbehind | hmem
  · rw [hbehind, List.append_nil]
  · obtain ⟨c, cs, hcs⟩ := List.exists_cons_of_ne_nil
      (List.ne_nil_of_mem (Surroundings.mem_dropWhile_of_mem (p := isInlineBlank) (by decide) hmem))
    rw [hcs]
    rfl

/-! ## Layout -/

theorem laidOut_within (s : Scanner) (x : Surroundings) (l : Layout) :
    (s.within x).laidOut { l with after := l.after.below x.laidOut } = (s.laidOut l).within x := by
  have hlaid : (s.within x).laid { l with after := l.after.below x.laidOut } =
      (s.laid l).within x := by
    simp only [laid, within, Margin.below, List.map_append, List.append_assoc, List.map_reverse,
      List.map_map]
    rfl
  unfold laidOut
  cases l.matched with
  | true => exact hlaid
  | false => exact (congrArg (fault · .indentation) hlaid).trans (fault_within _ x _)

theorem layOut_within (hwidths : s.widths ≠ []) (x : Surroundings) (width : Nat) :
    (s.within x).layOut width = (s.layOut width).within x := by
  rw [layOut_eq, layOut_eq, ← laidOut_within]
  exact congrArg _ (Margin.layOut_below (m := s.margin) hwidths x.laidOut width)

theorem resolveIndentation_within (hwidths : s.widths ≠ []) (h : x.Apart s.rest) :
    (s.within x).resolveIndentation = s.resolveIndentation.within x := by
  have hindent : isIndentChar '\n' = false := by decide
  unfold resolveIndentation
  rw [rest_within, h.takeWhile_append hindent,
    skipWhile_within hindent h]
  exact layOut_within (s := s.skipWhile isIndentChar) hwidths x _

theorem beginToken_within (hwidths : s.widths ≠ []) (h : x.Apart s.rest) :
    (s.within x).beginToken = s.beginToken.within x := by
  have hblank : isInlineBlank '\n' = false := by decide
  unfold beginToken
  rw [markLine_within]
  dsimp only
  rw [atEmptyLine_within (s := s.markLine) h]
  have hnested : (s.markLine.within x).nested = s.markLine.nested := rfl
  have hstart : (s.markLine.within x).atLineStart = s.markLine.atLineStart := rfl
  rw [hnested, hstart]
  split
  · rw [resolveIndentation_within (s := s.markLine) hwidths h]
    refine skipWhile_within hblank ?_
    rw [rest_resolveIndentation]
    exact h.dropWhile (by decide)
  · exact skipWhile_within hblank h

/-! ## Words, numbers and strings -/

theorem scanWord_within (h : x.Apart s.rest) : (s.within x).scanWord = s.scanWord.within x := by
  have hword : isWordChar '\n' = false := by decide
  unfold scanWord
  rw [rest_within, h.takeWhile_append hword,
    skipWhile_within hword h]
  dsimp only
  split
  · rfl
  · split
    · rfl
    · rfl

theorem scanNumber_within (h : x.Apart s.rest) :
    (s.within x).scanNumber = s.scanNumber.within x := by
  have hlength : (numberSpan false s.rest).length ≤ s.rest.length := by
    have := congrArg List.length (numberSpan_spec false s.rest).1
    rw [List.length_append] at this
    omega
  unfold scanNumber
  rw [rest_within, h.numberSpan_append]
  dsimp only
  rw [advanceBy_within hlength]
  split
  · rfl
  · exact fault_within _ x _

theorem passPiece_within {p : Piece} (h : p.raw.length ≤ s.rest.length) (x : Surroundings) :
    (s.within x).passPiece p = (s.passPiece p).within x := by
  cases p with
  | escape c => exact advanceBy_within h x
  | plain c =>
    have hadvance : (s.within x).advance = s.advance.within x := advanceBy_within h x
    unfold passPiece
    dsimp only
    rw [hadvance]
    split
    · rfl
    · rfl

theorem foldl_passPiece_within (ps : List Piece) {s : Scanner}
    (h : (ps.flatMap Piece.raw).length ≤ s.rest.length) (x : Surroundings) :
    ps.foldl passPiece (s.within x) = (ps.foldl passPiece s).within x := by
  induction ps generalizing s with
  | nil => rfl
  | cons p ps ih =>
    rw [List.flatMap_cons, List.length_append] at h
    rw [List.foldl_cons, List.foldl_cons, passPiece_within (by omega)]
    refine ih ?_
    rw [rest_passPiece, List.length_drop]
    omega

/-- A string that is not closed is reported. -/
theorem exists_quote_of_scanString {c : Char} {cs : List Char} (hrest : s.rest = c :: cs)
    (h : s.scanString.failed = false) :
    ∃ d more, (splitPieces cs).2 = d :: more ∧ isQuote d = true := by
  rw [scanString, hrest] at h
  rcases (splitPieces_spec cs).2.2 with hend | hend | hquote
  · simp [hend, fault, report] at h
  · simp [hend, fault, report, isQuote] at h
  · exact hquote

/-- A string that is not closed could go on with what stands behind, one that is closed does not. -/
theorem scanString_within {c : Char} {cs : List Char} (hrest : s.rest = c :: cs)
    (h : x.behind = [] ∨ s.scanString.failed = false) :
    (s.within x).scanString = s.scanString.within x := by
  obtain ⟨hsplit, -, -⟩ := splitPieces_spec cs
  have hclosed := h.imp_right (exists_quote_of_scanString hrest)
  have hpieces : splitPieces (cs ++ x.behind) =
      ((splitPieces cs).1, (splitPieces cs).2 ++ x.behind) := by
    rcases hclosed with hbehind | ⟨d, more, hend, hd⟩
    · rw [hbehind, List.append_nil, List.append_nil]
    · exact splitPieces_append hend hd x.behind
  have hbehind : (splitPieces cs).2 = [] → x.behind = [] := by
    intro hnil
    rcases hclosed with hbehind | ⟨d, more, hend, -⟩
    · exact hbehind
    · cases hnil.symm.trans hend
  have hleft : ((splitPieces cs).1.foldl passPiece s.advance).rest = (splitPieces cs).2 := by
    rw [rest_foldl_passPiece, rest_advance, hrest, List.drop_succ_cons, List.drop_zero]
    exact (congrArg (List.drop _) hsplit).trans List.drop_left
  have hlength : ((splitPieces cs).1.flatMap Piece.raw).length ≤ s.advance.rest.length := by
    have := congrArg List.length hsplit
    rw [List.length_append] at this
    rw [rest_advance, hrest, List.drop_succ_cons, List.drop_zero]
    omega
  have hadvance : (s.within x).advance = s.advance.within x :=
    advance_within (by rw [hrest]; exact List.cons_ne_nil c cs) x
  unfold scanString
  rw [rest_within, hrest]
  simp only [List.cons_append, List.take_succ_cons, List.take_zero, List.drop_succ_cons,
    List.drop_zero, hpieces, hadvance, foldl_passPiece_within _ hlength]
  generalize splitPieces cs = body at hbehind hleft ⊢
  obtain ⟨pieces, rest⟩ := body
  cases rest with
  | nil =>
    rw [hbehind rfl]
    exact fault_within _ x _
  | cons d more =>
    dsimp only [List.cons_append] at hleft ⊢
    rw [advance_within (by rw [hleft]; exact List.cons_ne_nil d more)]
    split
    · rfl
    · exact fault_within _ x _

/-! ## Symbols -/

theorem close_within (s : Scanner) (x : Surroundings) (e : Enclosure) :
    (s.within x).close e = (s.close e).within x := by
  have hcount : (s.within x).openCount e = s.openCount e := by cases e <;> rfl
  unfold close
  rw [hcount]
  cases s.openCount e with
  | zero =>
    dsimp only
    rw [fault_within]
    rfl
  | succ n => rfl

/-- A line that has been ended before the part is not ended again in it. -/
theorem isLineEnded_within (hx : x.Ended) (s : Scanner) :
    ((s.within x).emitted.isEmpty || (s.within x).endsWith .newline) =
      (s.emitted.isEmpty || s.endsWith .newline) := by
  unfold endsWith
  rw [show (s.within x).emitted = s.emitted.map (Token.onward x.lines) ++ x.emitted from rfl]
  cases s.emitted with
  | cons t ts => rfl
  | nil =>
    cases hemitted : x.emitted with
    | nil => rfl
    | cons t ts =>
      have hnewline : t.kind = .newline := hx t (by rw [hemitted]; rfl)
      simp [hnewline]

theorem endLine_within (hx : x.Ended) (s : Scanner) :
    (s.within x).endLine = s.endLine.within x := by
  unfold endLine
  rw [isLineEnded_within hx, show (s.within x).nested = s.nested from rfl]
  dsimp only
  split
  · rfl
  · rfl

theorem addOperator_within (h : x.behind = [] ∨ s.rest ≠ []) (c : Char) (alone withEqual : Kind) :
    (s.within x).addOperator c alone withEqual = (s.addOperator c alone withEqual).within x := by
  have hhead : (s.within x).rest.head? = s.rest.head? := by
    rw [rest_within]
    rcases h with hbehind | hrest
    · rw [hbehind, List.append_nil]
    · obtain ⟨d, ds, hds⟩ := List.exists_cons_of_ne_nil hrest
      rw [hds]
      rfl
  unfold addOperator
  rw [accept_equal, accept_equal, hhead]
  by_cases heq : s.rest.head? = some '='
  · have hrest : s.rest ≠ [] := by
      intro hnil
      rw [hnil] at heq
      cases heq
    rw [if_pos heq, if_pos heq, advance_within hrest]
    rfl
  · rw [if_neg heq, if_neg heq]
    rfl

theorem scanSymbol_within (hx : x.Ended) {c : Char} {cs : List Char} (hrest : s.rest = c :: cs)
    (h : x.Apart s.rest) : (s.within x).scanSymbol = s.scanSymbol.within x := by
  have hpeek : s.peek = some c := by rw [peek, hrest]; rfl
  have hpeek' : (s.within x).peek = some c := by
    rw [peek, rest_within, hrest]
    rfl
  unfold scanSymbol
  rw [hpeek, hpeek', advance_within (by rw [hrest]; exact List.cons_ne_nil c cs)]
  dsimp only
  split
  · rfl
  split
  · exact close_within _ x .paren
  split
  · rfl
  split
  · exact close_within _ x .bracket
  split
  · rfl
  split
  · rename_i alone withEqual hop
    refine addOperator_within ?_ c alone withEqual
    -- an operator is not the line end, which is thus still to come
    rw [hrest] at h
    have hne : c ≠ '\n' := by
      rintro rfl
      cases hop
    rw [rest_advance, hrest]
    exact (h.tail hne).imp_right List.ne_nil_of_mem
  split
  · exact endLine_within hx _
  · exact fault_within _ x _

/-! ## The loop -/

theorem scanToken_within (hx : x.Ended) {c : Char} {cs : List Char} (hrest : s.rest = c :: cs)
    (h : x.Apart s.rest) (hclosed : x.behind = [] ∨ (s.scanToken c).failed = false) :
    (s.within x).scanToken c = (s.scanToken c).within x := by
  unfold scanToken at hclosed ⊢
  split
  · exact scanWord_within h
  split
  · exact scanNumber_within h
  split
  · rename_i hword hdigit hquote
    rw [if_neg hword, if_neg hdigit, if_pos hquote] at hclosed
    exact scanString_within hrest hclosed
  split
  · exact skipWhile_within (by decide) h
  · exact scanSymbol_within hx hrest h

/-- **A round goes on in the larger source as it does alone.** -/
theorem round_within (hx : x.Ended) (hwidths : s.widths ≠ []) (h : x.Apart s.rest)
    (hclosed : x.behind = [] ∨ s.round.failed = false) : (s.within x).round = s.round.within x := by
  have hapart : x.Apart s.beginToken.rest := by
    obtain ⟨pos, column, start, hbegin⟩ := beginToken_eq s
    rw [hbegin]
    exact h.dropWhile (by decide)
  unfold round at hclosed ⊢
  rw [beginToken_within hwidths h]
  cases hrest : s.beginToken.rest with
  | nil =>
    have hbehind : x.behind = [] := by
      rcases hapart with hbehind | hmem
      · exact hbehind
      · rw [hrest] at hmem
        cases hmem
    rw [rest_within, hrest, hbehind]
    rfl
  | cons c cs =>
    rw [hrest] at hclosed
    rw [rest_within, hrest]
    exact scanToken_within (s := s.beginToken.markLine) hx hrest hapart hclosed

theorem getLast?_widths_round (h : s.widths.getLast? = some 0) :
    s.round.widths.getLast? = some 0 :=
  (edits_round s).invariant Edit.getLast?_widths h

theorem widths_ne_nil (h : s.widths.getLast? = some 0) : s.widths ≠ [] := by
  intro hnil
  rw [hnil] at h
  cases h

/-- What remains after a round is an end of what remained before. -/
theorem rest_round_suffix (s : Scanner) : s.round.rest <:+ s.rest := by
  rcases round_cases s with ⟨pos, column, start, -, hround⟩ |
    ⟨blanks, text, item, rest, pos, line, column, hsplit, -, -, -, hround⟩
  · rw [hround]
    exact List.nil_suffix
  · rw [hround, rest_perform, hsplit, ← List.append_assoc]
    exact List.suffix_append _ rest

theorem failed_round (h : s.round.scanAll.failed = false) : s.round.failed = false :=
  (scanAll_covers s.round h).1

/-- The text is empty or ends with a line end. -/
def EndsLine (text : List Char) : Prop := ∀ c ∈ text.getLast?, c = '\n'

theorem EndsLine.suffix {text rest : List Char} (h : EndsLine text) (hrest : rest <:+ text) :
    EndsLine rest := by
  obtain ⟨front, rfl⟩ := hrest
  intro c hc
  refine h c ?_
  rw [List.getLast?_append, Option.mem_def.mp hc]
  rfl

theorem EndsLine.mem {text : List Char} (h : EndsLine text) (hne : text ≠ []) : '\n' ∈ text := by
  have hlast := List.getLast?_eq_some_getLast hne
  rw [← h _ (Option.mem_def.mpr hlast)]
  exact List.getLast_mem hne

/-- **Scanning a part that something stands behind.** If its lines are ended and nothing in it is
reported, the scan of the larger source goes on where the part ends. -/
theorem scanAll_within_start (hx : x.Ended) (s : Scanner) (hwidths : s.widths.getLast? = some 0)
    (hends : EndsLine s.rest) (hfailed : s.scanAll.failed = false) :
    (s.within x).scanAll = (s.scanAll.within x).scanAll := by
  induction s using rounds_induction with
  | ended s hrest => rw [scanAll_of_nil hrest]
  | next s hrest ih =>
    rw [scanAll_of_ne_nil hrest] at hfailed
    have hne : (s.within x).rest ≠ [] := List.append_ne_nil_of_left_ne_nil hrest x.behind
    have hround : (s.within x).round = s.round.within x :=
      round_within hx (widths_ne_nil hwidths) (.inr (hends.mem hrest)) (.inr (failed_round hfailed))
    rw [scanAll_of_ne_nil hne, scanAll_of_ne_nil hrest, hround]
    exact ih (getLast?_widths_round hwidths) (hends.suffix (rest_round_suffix s)) hfailed

/-- **Scanning a part that nothing stands behind.** -/
theorem scanAll_within_end (hx : x.Ended) (hbehind : x.behind = []) (s : Scanner)
    (hwidths : s.widths.getLast? = some 0) : (s.within x).scanAll = s.scanAll.within x := by
  have hsame : ∀ s : Scanner, (s.within x).rest = s.rest := by
    intro s
    rw [rest_within, hbehind, List.append_nil]
  induction s using rounds_induction with
  | ended s hrest => rw [scanAll_of_nil hrest, scanAll_of_nil ((hsame s).trans hrest)]
  | next s hrest ih =>
    have hne : (s.within x).rest ≠ [] := by rwa [hsame]
    have hround : (s.within x).round = s.round.within x :=
      round_within hx (widths_ne_nil hwidths) (.inl hbehind) (.inl hbehind)
    rw [scanAll_of_ne_nil hne, scanAll_of_ne_nil hrest, hround]
    exact ih (getLast?_widths_round hwidths)

theorem closeBlocks_within (n : Nat) (s : Scanner) (x : Surroundings) :
    closeBlocks n (s.within x) = (closeBlocks n s).within x := by
  induction n generalizing s with
  | zero => rfl
  | succ n ih => exact ih s.closeBlock

theorem finish_within (hx : x.Ended) (s : Scanner) : (s.within x).finish = s.finish.within x := by
  unfold finish
  rw [isLineEnded_within hx]
  dsimp only
  split
  · exact closeBlocks_within s.openBlocks s x
  · exact closeBlocks_within s.openBlocks (s.mark .newline) x

end Scanner

end Scriptlet
