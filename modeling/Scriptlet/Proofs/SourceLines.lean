import Scriptlet.Proofs.Lines
import Scriptlet.Proofs.Record

/-!
# Line numbers

The line of a place in a source is one more than the number of newline characters in front of it.
The scanner counts them as it goes, except for those that stand behind a backslash in a string.

* `sourceLine`, `countedLine`: the line of a place, and the line that is counted.
* `Passage`: what a text does to the count, put together piece by piece.
* `round_counts`: a round counts the newline characters it passes, escaped ones apart.
* `tokenize_numbers_lines`: every token and every report has the counted line of its place.
-/

namespace Scriptlet

/-! ## Lines of a source -/

/-- What the character behind `c` stands in. -/
def Place.next (p : Place) (c : Char) : Place := (Context.next { place := p } c).place

/-- What the character behind a text stands in. -/
def Place.after (p : Place) (text : List Char) : Place := text.foldl Place.next p

/-- The number of newline characters that are escaped in a string. -/
def escapedBreaks : Place → List Char → Nat
  | _, [] => 0
  | p, c :: cs => (if p = .escape ∧ c = '\n' then 1 else 0) + escapedBreaks (p.next c) cs

/-- The line of the source that what comes behind `before` starts on. -/
def sourceLine (before : List Char) : Nat := 1 + before.count '\n'

/-- The same, where escaped newline characters do not count. -/
def countedLine (before : List Char) : Nat :=
  1 + (before.count '\n' - escapedBreaks .code before)

theorem Place.after_append (p : Place) (xs ys : List Char) :
    p.after (xs ++ ys) = (p.after xs).after ys :=
  List.foldl_append

theorem escapedBreaks_append (p : Place) (xs ys : List Char) :
    escapedBreaks p (xs ++ ys) = escapedBreaks p xs + escapedBreaks (p.after xs) ys := by
  induction xs generalizing p with
  | nil => simp [escapedBreaks, Place.after]
  | cons c cs ih =>
    rw [List.cons_append, escapedBreaks, escapedBreaks, ih, Nat.add_assoc]
    rfl

theorem escapedBreaks_le_count (p : Place) (text : List Char) :
    escapedBreaks p text ≤ text.count '\n' := by
  induction text generalizing p with
  | nil => exact Nat.le_refl 0
  | cons c cs ih =>
    have hrest := ih (p.next c)
    rw [escapedBreaks]
    by_cases hc : c = '\n'
    · subst hc
      rw [List.count_cons_self]
      split
      · omega
      · omega
    · rw [List.count_cons_of_ne hc, if_neg fun h => hc h.2]
      omega

theorem countedLine_eq_sourceLine_iff (before : List Char) :
    countedLine before = sourceLine before ↔ escapedBreaks .code before = 0 := by
  have := escapedBreaks_le_count .code before
  unfold countedLine sourceLine
  omega

/-- If no newline of a text is escaped, none of a front of it is. -/
theorem escapedBreaks_of_front {front text : List Char} (h : front <+: text)
    (htext : escapedBreaks .code text = 0) : escapedBreaks .code front = 0 := by
  obtain ⟨rest, rfl⟩ := h
  rw [escapedBreaks_append] at htext
  omega

/-! ## What texts do to the count -/

/-- From the place `p`, the text holds `n` newline characters that count, and leads to `q`. -/
structure Passage (p : Place) (text : List Char) (n : Nat) (q : Place) : Prop where
  breaks : n + escapedBreaks p text = text.count '\n'
  place : p.after text = q

/-- Characters that end a line or lead from code to something else. -/
def turning : List Char := ['\x22', '\x27', '#', '\n']

namespace Passage

theorem nil (p : Place) : Passage p [] 0 p := ⟨rfl, rfl⟩

theorem append {p q r : Place} {xs ys : List Char} {m n : Nat} (h : Passage p xs m q)
    (h' : Passage q ys n r) : Passage p (xs ++ ys) (m + n) r := by
  refine ⟨?_, ?_⟩
  · rw [escapedBreaks_append, h.place, List.count_append, ← h.breaks, ← h'.breaks]
    omega
  · rw [Place.after_append, h.place, h'.place]

theorem cons {p q r : Place} {c : Char} {cs : List Char} {n : Nat} (hc : c ≠ '\n')
    (hnext : p.next c = q) (h : Passage q cs n r) : Passage p (c :: cs) n r := by
  refine ⟨?_, ?_⟩
  · rw [escapedBreaks, if_neg fun h => hc h.2, hnext, List.count_cons_of_ne hc, ← h.breaks]
    omega
  · rw [← h.place, ← hnext]
    rfl

theorem next_code {c : Char} (h : c ∉ turning) : Place.next .code c = .code := by
  simp only [turning, List.mem_cons, List.not_mem_nil, or_false, not_or] at h
  obtain ⟨hdouble, hsingle, hhash, -⟩ := h
  simp only [Place.next, Context.next, isQuote, hdouble, hsingle, hhash, beq_iff_eq, or_self,
    Bool.or_eq_true, if_false]
  repeat' split
  all_goals rfl

/-- A text that neither ends a line nor leads out of code. -/
theorem plain {text : List Char} (h : ∀ c ∈ text, c ∉ turning) : Passage .code text 0 .code := by
  induction text with
  | nil => exact nil .code
  | cons c cs ih =>
    have hc := h c List.mem_cons_self
    have hbreak : c ≠ '\n' := by
      rintro rfl
      exact hc (by decide)
    exact cons hbreak (next_code hc) (ih fun d hd => h d (List.mem_cons_of_mem c hd))

/-- A text of a class that no turning character is in. -/
theorem of_class {q : Char → Bool} (hq : turning.all (!q ·) = true) {text : List Char}
    (h : ∀ c ∈ text, q c = true) : Passage .code text 0 .code :=
  plain fun c hc => not_mem_of_class (h c hc) hq

theorem newline : Passage .code ['\n'] 1 .code := ⟨rfl, rfl⟩

theorem comment {body : List Char} (h : '\n' ∉ body) : Passage .code ('#' :: body) 0 .comment := by
  have hbody : ∀ cs : List Char, '\n' ∉ cs → Passage .comment cs 0 .comment := by
    intro cs hcs
    induction cs with
    | nil => exact nil .comment
    | cons c cs ih =>
      have hc : c ≠ '\n' := fun he => hcs (he ▸ List.mem_cons_self)
      have hnext : Place.next .comment c = .comment := by simp [Place.next, Context.next, hc]
      exact cons hc hnext (ih fun hmem => hcs (List.mem_cons_of_mem c hmem))
  exact cons (by decide) rfl (hbody body h)

theorem quote_ne {c : Char} (h : isQuote c = true) : c ≠ '\n' := by
  rintro rfl
  exact absurd h (by decide)

theorem opening {c : Char} (h : isQuote c = true) {text : List Char} {n : Nat} {q : Place}
    (htext : Passage .string text n q) : Passage .code (c :: text) n q :=
  cons (quote_ne h) (by simp [Place.next, Context.next, h]) htext

theorem closing {c : Char} (h : isQuote c = true) : Passage .string [c] 0 .code :=
  cons (quote_ne h) (by simp [Place.next, Context.next, h]) (nil .code)

/-- A newline character counts by itself and does not behind a backslash. -/
theorem piece {p : Piece} (h : p.Proper) :
    Passage .string p.raw (if p = .plain '\n' then 1 else 0) .string := by
  cases p with
  | plain c =>
    obtain ⟨hquote, hslash⟩ := h
    have hnext : Place.next .string c = .string := by
      simp [Place.next, Context.next, hquote, hslash]
    by_cases hc : c = '\n'
    · subst hc
      exact ⟨rfl, rfl⟩
    · rw [if_neg fun he => hc (Piece.plain.inj he)]
      exact cons hc hnext (nil .string)
  | escape c =>
    rw [if_neg (by simp)]
    refine ⟨?_, rfl⟩
    by_cases hc : c = '\n'
    · subst hc
      rfl
    · show 0 + (0 + ((if Place.escape = .escape ∧ c = '\n' then 1 else 0) + 0)) = _
      rw [if_neg fun h => hc h.2, Piece.raw, List.count_cons_of_ne (by decide),
        List.count_cons_of_ne hc]
      rfl

theorem pieces {ps : List Piece} (h : ∀ p ∈ ps, p.Proper) :
    Passage .string (ps.flatMap Piece.raw) (ps.countP (· = .plain '\n')) .string := by
  induction ps with
  | nil => exact nil .string
  | cons p ps ih =>
    have hp := piece (h p List.mem_cons_self)
    have hps := ih fun q hq => h q (List.mem_cons_of_mem p hq)
    rw [List.flatMap_cons, List.countP_cons, Nat.add_comm]
    simpa using hp.append hps

end Passage

/-- Code comes next, or the line end behind a comment, or nothing. -/
def Place.Outside (p : Place) (rest : List Char) : Prop :=
  rest = [] ∨ p = .code ∨ p = .comment ∧ ∀ c ∈ rest.head?, c = '\n'

/-- What comes outside of strings and comments is passed as code is. -/
theorem Place.Outside.passage {p q : Place} {text rest : List Char} {n : Nat}
    (h : p.Outside (text ++ rest)) (htext : text ≠ []) (hcode : Passage .code text n q) :
    Passage p text n q := by
  rcases h with h | rfl | ⟨rfl, hend⟩
  · exact absurd (List.append_eq_nil_iff.mp h).1 htext
  · exact hcode
  · obtain ⟨c, cs, rfl⟩ := List.exists_cons_of_ne_nil htext
    obtain rfl := hend c rfl
    exact ⟨hcode.breaks, hcode.place⟩

/-- The counted line behind a text. -/
theorem countedLine_append {before text : List Char} {n : Nat} {q : Place}
    (h : Passage (Place.code.after before) text n q) :
    countedLine (before ++ text) = countedLine before + n := by
  have hle := escapedBreaks_le_count .code before
  have hbreaks := h.breaks
  unfold countedLine
  rw [escapedBreaks_append, List.count_append]
  omega

namespace Scanner

/-! ## What the scanner counts -/

/-- The step passes a text, counts its newline characters apart from escaped ones, and ends
outside of strings and comments. -/
def Counts (s t : Scanner) : Prop :=
  ∃ text n q, s.rest = text ++ t.rest ∧ text ≠ [] ∧ Passage .code text n q ∧ q.Outside t.rest ∧
    t.line = s.line + n

theorem scanWord_counts {s : Scanner} {c : Char} {cs : List Char} (h : s.rest = c :: cs)
    (hc : isWordStart c = true) : s.Counts s.scanWord := by
  have hline : s.scanWord.line = s.line := by
    unfold scanWord
    dsimp only
    split
    · rfl
    · split
      · rfl
      · rfl
  refine ⟨s.rest.takeWhile isWordChar, 0, .code, ?_, ?_, ?_, .inr (.inl rfl), hline⟩
  · rw [rest_scanWord, List.takeWhile_append_dropWhile]
  · rw [h, List.takeWhile_cons_of_pos (isWordChar_of_isWordStart hc)]
    simp
  · exact .of_class (q := isWordChar) (by decide) fun d hd => List.mem_takeWhile_imp hd

theorem scanNumber_counts {s : Scanner} {c : Char} {cs : List Char} (h : s.rest = c :: cs)
    (hc : c.isDigit = true) : s.Counts s.scanNumber := by
  have hline : s.scanNumber.line = s.line := by
    unfold scanNumber
    dsimp only
    split
    · rfl
    · rfl
  obtain ⟨hsplit, hchars, -, -⟩ := numberSpan_spec false s.rest
  refine ⟨numberSpan false s.rest, 0, .code, ?_, ?_, ?_, .inr (.inl rfl), hline⟩
  · rw [rest_scanNumber]
    exact hsplit
  · rw [h]
    exact List.length_pos_iff.mp (length_numberSpan_pos hc false cs)
  · refine .of_class (q := fun d => d.isDigit || d == '_' || d == '.') (by decide) ?_
    intro d hd
    rcases hchars d hd with hdigit | rfl | rfl
    · simp [hdigit]
    · rfl
    · rfl

theorem skipLine_counts {s : Scanner} {cs : List Char} (h : s.rest = '#' :: cs) :
    s.Counts s.skipLine := by
  have hrest : s.skipLine.rest = cs.dropWhile (· != '\n') := by
    rw [skipLine, rest_skipWhile, h, List.dropWhile_cons_of_pos (by decide)]
  refine ⟨'#' :: cs.takeWhile (· != '\n'), 0, .comment, ?_, by simp, ?_, .inr (.inr ⟨rfl, ?_⟩), rfl⟩
  · rw [h, hrest, List.cons_append, List.takeWhile_append_dropWhile]
  · refine .comment fun hmem => ?_
    exact absurd (List.mem_takeWhile_imp hmem) (by simp)
  · intro d hd
    rw [hrest] at hd
    simpa using head_dropWhile (· != '\n') cs d hd

theorem line_foldl_passPiece (ps : List Piece) (s : Scanner) :
    (ps.foldl passPiece s).line = s.line + ps.countP (· = .plain '\n') := by
  induction ps generalizing s with
  | nil => rfl
  | cons p ps ih =>
    have hp : (s.passPiece p).line = s.line + if p = .plain '\n' then 1 else 0 := by
      cases p with
      | plain c =>
        by_cases hc : c = '\n'
        · simp [passPiece, hc, breakLine, advance, advanceBy]
        · simp [passPiece, hc, advance, advanceBy]
      | escape c => rfl
    rw [List.foldl_cons, ih, hp, List.countP_cons]
    simp only [decide_eq_true_eq]
    omega

theorem scanString_counts {s : Scanner} {c : Char} {cs : List Char} (h : s.rest = c :: cs)
    (hc : isQuote c = true) : s.Counts s.scanString := by
  obtain ⟨hsplit, hproper, hrest⟩ := splitPieces_spec cs
  unfold scanString
  rw [h]
  simp only [List.take_succ_cons, List.take_zero, List.drop_succ_cons, List.drop_zero]
  generalize splitPieces cs = body at *
  obtain ⟨pieces, rest⟩ := body
  dsimp only at hsplit hproper hrest ⊢
  have hline := line_foldl_passPiece pieces s.advance
  have hleft : (pieces.foldl passPiece s.advance).rest = rest := by
    rw [rest_foldl_passPiece, rest_advance, h, List.drop_succ_cons, List.drop_zero, hsplit,
      List.drop_left]
  have hbody := Passage.pieces hproper
  -- The source ends in the string, ends behind a backslash in it, or the string is closed.
  rcases hrest with rfl | rfl | ⟨d, more, rfl, hd⟩
  · refine ⟨c :: pieces.flatMap Piece.raw, _, .string, ?_, by simp, .opening hc hbody, ?_, hline⟩
    · rw [rest_fault, hleft, h, hsplit]
      rfl
    · exact .inl (by rw [rest_fault, hleft])
  · have htail : Passage .string ['\\'] 0 .escape := ⟨rfl, rfl⟩
    refine ⟨c :: (pieces.flatMap Piece.raw ++ ['\\']), _, .escape, ?_, by simp,
      .opening hc (hbody.append htail), ?_, hline⟩
    · show s.rest = _ ++ ((pieces.foldl passPiece s.advance).rest.drop 1)
      rw [hleft, h, hsplit]
      simp
    · left
      show (pieces.foldl passPiece s.advance).rest.drop 1 = []
      rw [hleft]
      rfl
  · dsimp only
    rw [if_pos hd]
    refine ⟨c :: (pieces.flatMap Piece.raw ++ [d]), _, .code, ?_, by simp,
      .opening hc (hbody.append (.closing hd)), .inr (.inl rfl), hline⟩
    show s.rest = _ ++ ((pieces.foldl passPiece s.advance).rest.drop 1)
    rw [hleft, h, hsplit]
    simp

/-- A step past one character that is no line end. -/
theorem counts_char {s t : Scanner} {c : Char} {cs : List Char} (h : s.rest = c :: cs)
    (hc : c ∉ turning) (hrest : t.rest = cs) (hline : t.line = s.line) : s.Counts t := by
  refine ⟨[c], 0, .code, by rw [h, hrest]; rfl, by simp, .plain ?_, .inr (.inl rfl), hline⟩
  intro d hd
  rw [List.mem_singleton.mp hd]
  exact hc

theorem addOperator_counts {s : Scanner} {c : Char} {cs : List Char} (h : s.rest = c :: cs)
    (hc : c ∉ turning) (alone withEqual : Kind) :
    s.Counts (s.advance.addOperator c alone withEqual) := by
  have hadvance : s.advance.rest = cs := by rw [rest_advance, h]; rfl
  unfold addOperator
  rw [accept_equal, hadvance]
  by_cases heq : cs.head? = some '='
  · obtain ⟨more, rfl⟩ : ∃ more, cs = '=' :: more := by
      cases cs with
      | nil => cases heq
      | cons d more => cases heq; exact ⟨more, rfl⟩
    rw [if_pos heq]
    refine ⟨[c, '='], 0, .code, ?_, by simp, .plain ?_, .inr (.inl rfl), rfl⟩
    · show s.rest = _ ++ s.advance.rest.drop 1
      rw [h, hadvance]
      rfl
    · intro d hd
      rcases List.mem_cons.mp hd with rfl | hd
      · exact hc
      · rw [List.mem_singleton.mp hd]
        decide
  · rw [if_neg heq]
    exact counts_char h hc hadvance rfl

theorem scanSymbol_counts {s : Scanner} {c : Char} {cs : List Char} (h : s.rest = c :: cs)
    (hquote : isQuote c = false) (hhash : c ≠ '#') : s.Counts s.scanSymbol := by
  have hadvance : s.advance.rest = cs := by rw [rest_advance, h]; rfl
  have hpeek : s.peek = some c := by rw [peek, h]; rfl
  by_cases hbreak : c = '\n'
  · subst hbreak
    have hscan : s.scanSymbol = s.advance.endLine := by
      unfold scanSymbol
      rw [hpeek]
      rfl
    have hline : s.advance.endLine.line = s.line + 1 := by
      rcases endLine_cases s.advance with he | he
      · rw [he]; rfl
      · rw [he]; rfl
    rw [hscan]
    refine ⟨['\n'], 1, .code, ?_, by simp, .newline, .inr (.inl rfl), hline⟩
    rw [rest_endLine, hadvance, h]
    rfl
  · have hturn : c ∉ turning := by
      simp only [isQuote, Bool.or_eq_false_iff, beq_eq_false_iff_ne] at hquote
      simp only [turning, List.mem_cons, List.not_mem_nil, or_false, not_or]
      exact ⟨hquote.1, hquote.2, hhash, hbreak⟩
    unfold scanSymbol
    rw [hpeek]
    dsimp only
    split
    · exact counts_char h hturn hadvance rfl
    split
    · exact counts_char h hturn (by rw [rest_close, hadvance]) (close_frame s.advance .paren).2.1
    split
    · exact counts_char h hturn hadvance rfl
    split
    · exact counts_char h hturn (by rw [rest_close, hadvance]) (close_frame s.advance .bracket).2.1
    split
    · exact counts_char h hturn hadvance rfl
    split
    · exact addOperator_counts h hturn _ _
    · exact counts_char h hturn hadvance rfl

theorem scanToken_counts {s : Scanner} {c : Char} {cs : List Char} (h : s.rest = c :: cs) :
    s.Counts (s.scanToken c) := by
  unfold scanToken
  split
  · rename_i hc
    exact scanWord_counts h hc
  split
  · rename_i hc
    exact scanNumber_counts h hc
  split
  · rename_i hc
    exact scanString_counts h hc
  split
  · rename_i hc
    subst hc
    exact skipLine_counts h
  · rename_i hquote hhash
    exact scanSymbol_counts h (by simpa using hquote) hhash

theorem passage_blanks {blanks : List Char} (h : ∀ c ∈ blanks, isInlineBlank c = true) :
    Passage .code blanks 0 .code :=
  .of_class (q := isInlineBlank) (by decide) h

/-- **A round counts what it passes.** -/
theorem round_counts {s : Scanner} (h : s.rest ≠ []) : s.Counts s.round := by
  obtain ⟨pos, column, start, hbegin⟩ := beginToken_eq s
  have hrest := rest_beginToken s
  have hline : s.beginToken.line = s.line := by rw [hbegin]; rfl
  have hblanks : ∀ c ∈ s.rest.takeWhile isInlineBlank, isInlineBlank c = true :=
    fun c hc => List.mem_takeWhile_imp hc
  have hsplit : s.rest = s.rest.takeWhile isInlineBlank ++ s.beginToken.rest := by
    rw [hrest, List.takeWhile_append_dropWhile]
  cases hleft : s.beginToken.rest with
  | nil =>
    rw [hleft, List.append_nil] at hsplit
    rw [round_of_nil hleft]
    refine ⟨s.rest, 0, .code, ?_, h, passage_blanks (hsplit ▸ hblanks), .inl hleft, hline⟩
    rw [hleft, List.append_nil]
  | cons c cs =>
    have hround : s.round = s.beginToken.markLine.scanToken c := by rw [round, hleft]
    obtain ⟨text, n, q, htext, hne, hpassage, houtside, hcount⟩ :=
      scanToken_counts (s := s.beginToken.markLine) hleft
    rw [hround]
    refine ⟨s.rest.takeWhile isInlineBlank ++ text, 0 + n, q, ?_, by simp [hne],
      (passage_blanks hblanks).append hpassage, houtside, ?_⟩
    · rw [List.append_assoc, ← htext]
      exact hsplit
    · rw [hcount]
      show s.beginToken.line + n = _
      omega

/-! ## The run -/

/-- Tokens are on a line of the source from the first round on. -/
theorem one_le_tokenLine_scanAll (s : Scanner) (hline : 1 ≤ s.line) (htoken : 1 ≤ s.tokenLine) :
    1 ≤ s.scanAll.tokenLine := by
  induction s using rounds_induction with
  | ended s hrest => rwa [scanAll_of_nil hrest]
  | next s hrest ih =>
    obtain ⟨text, n, q, -, -, -, -, hcount⟩ := round_counts hrest
    rw [scanAll_of_ne_nil hrest]
    exact ih (by omega) (by rwa [tokenLine_round])

/-- **A run records the text that remains**, with the lines that are counted. The text in front of
the cursor is carried along: it gives the number of the current line, and code comes behind it. -/
theorem scanAll_recorded (s : Scanner) (before : List Char)
    (hplace : (Place.code.after before).Outside s.rest) (hline : s.line = countedLine before)
    (hstart : s.atLineStart = true → AtLineStart before) :
    ∃ ts ds, s.scanAll.emitted = ts.reverse ++ s.emitted ∧ s.scanAll.reports = s.reports ++ ds ∧
      Recorded countedLine before s.rest ts ds := by
  induction s using rounds_induction generalizing before with
  | ended s hrest =>
    rw [scanAll_of_nil hrest]
    exact ⟨[], [], rfl, rfl, .done (by simp [hrest])⟩
  | next s hrest ih =>
    rw [scanAll_of_ne_nil hrest]
    rcases round_leaves s with ⟨hblank, hleft, hemitted, hreports⟩ |
      ⟨blanks, text, item, rest, marks, ts, faults, ds, hsplit, hblanks, hreads, hleft, hlayout,
        hlaid, hleaves, hbreak, hemitted, hreports⟩
    · rw [scanAll_of_nil hleft, hemitted, hreports]
      exact ⟨[], [], rfl, rfl, .done hblank⟩
    · obtain ⟨passed, n, q, hpassed, hne, hpassage, houtside, hcount⟩ := round_counts hrest
      obtain rfl : passed = blanks ++ text := by
        rw [hsplit, hleft, ← List.append_assoc] at hpassed
        exact (List.append_cancel_right hpassed).symm
      rw [hpassed] at hplace
      have hround := hplace.passage hne hpassage
      have hblankLine : countedLine (before ++ blanks) = countedLine before := by
        by_cases hnil : blanks = []
        · rw [hnil, List.append_nil]
        · rw [List.append_assoc] at hplace
          exact countedLine_append (hplace.passage hnil (passage_blanks hblanks))
      obtain ⟨ts', ds', hemitted', hreports', hrecorded⟩ := ih (before ++ (blanks ++ text)) (by
          rw [Place.after_append, hround.place]
          exact houtside) (by
          rw [hcount, hline, countedLine_append hround]) (by
          intro hnext
          rw [hbreak hnext] at hreads
          cases hreads
          intro c hc
          simpa [eq_comm] using hc)
      rw [hleft] at hrecorded
      refine ⟨marks ++ ts ++ ts', faults ++ ds ++ ds', ?_, ?_, ?_⟩
      · rw [hemitted', hemitted]
        simp
      · rw [hreports', hreports, ← Diagnostics.append_append]
      · rw [hsplit]
        rw [hline] at hlayout hleaves
        refine .item hblanks hreads hlayout (hlaid.imp_right hstart) ?_ hrecorded
        rw [hblankLine]
        exact hleaves

/-- What a source leaves: what its items leave on the lines that are counted, and the markers at
its end. -/
theorem tokenize_recorded (s : Scanner) : ∃ ts ms ds, s.tokenize.tokens = ts ++ ms ∧
    (∀ t ∈ ms, t.IsMarker ∧ 1 ≤ t.line) ∧ s.tokenize.reports = s.reports ++ ds ∧
    Recorded countedLine [] s.source ts ds := by
  obtain ⟨ts, ds, hemitted, hreports, hrecorded⟩ :=
    scanAll_recorded s.reset [] (.inr (.inl rfl)) rfl (fun _ => by simp [AtLineStart])
  obtain ⟨hfinish, ms, htokens, hmarkers⟩ := finish_leaves s.reset.scanAll
  have hline := one_le_tokenLine_scanAll s.reset (Nat.le_refl 1) (Nat.le_refl 1)
  refine ⟨ts, ms, ds, ?_, ?_, ?_, hrecorded⟩
  · have hscan : s.reset.scanAll.tokens = ts := by
      rw [tokens, hemitted]
      show (ts.reverse ++ []).reverse = ts
      rw [List.append_nil, List.reverse_reverse]
    rw [tokenize, htokens, hscan]
  · intro t ht
    obtain ⟨hmarker, hcount⟩ := hmarkers t ht
    exact ⟨hmarker, by rw [hcount]; exact_mod_cast hline⟩
  · rw [tokenize, hfinish]
    exact hreports

/-- **Which lines tokens and reports carry.** Every source is read item by item, and what an item
or a layout leaves carries the counted line of its first character: one more than the number of
newline characters in front of it, those left out that a backslash in a string escapes. That is its
line of the source exactly if no newline in front of it is escaped; in a source without escaped
newlines, everything carries its line of the source. -/
theorem tokenize_numbers_lines (s : Scanner) : ∃ ts ms ds, s.tokenize.tokens = ts ++ ms ∧
    (∀ t ∈ ms, t.IsMarker) ∧ s.tokenize.reports = s.reports ++ ds ∧
    Recorded countedLine [] s.source ts ds ∧
    (∀ before, countedLine before = sourceLine before ↔ escapedBreaks .code before = 0) ∧
    (escapedBreaks .code s.source = 0 → Recorded sourceLine [] s.source ts ds) := by
  obtain ⟨ts, ms, ds, htokens, hmarkers, hreports, hrecorded⟩ := tokenize_recorded s
  refine ⟨ts, ms, ds, htokens, fun t ht => (hmarkers t ht).1, hreports, hrecorded,
    countedLine_eq_sourceLine_iff, fun hnone => hrecorded.congr ?_⟩
  intro front hfront
  exact (countedLine_eq_sourceLine_iff front).mpr (escapedBreaks_of_front hfront hnone)

/-- A string over two lines, and a report on a later one. -/
theorem numbers_lines_sample :
    let s := Scanner.ofSource "\"a\nb\" c\n)\n" {}
    escapedBreaks .code s.source = 0 ∧
      s.tokenize.tokens.map (fun t => (t.lexeme, t.line)) =
        [("\"a\nb\"", 1), ("c", 2), ("", 2), (")", 3), ("", 3)] ∧
      s.tokenize.reports.records.map Diagnostic.line = [some 3] ∧
      ∃ ts ms ds, s.tokenize.tokens = ts ++ ms ∧ s.tokenize.reports.records = ds ∧
        Recorded sourceLine [] s.source ts ds := by
  intro s
  refine ⟨by decide, by decide +kernel, by decide +kernel, ?_⟩
  obtain ⟨ts, ms, ds, htokens, -, hreports, -, -, hlines⟩ := tokenize_numbers_lines s
  exact ⟨ts, ms, ds, htokens, by rw [hreports, Diagnostics.records_append]; rfl, hlines (by decide)⟩

/-- Behind an escaped newline, a token does not carry its line of the source. -/
theorem escaped_newline_shifts_lines :
    let s := Scanner.ofSource "\"\\\n\" a\n" {}
    s.tokenize.failed = false ∧
      s.tokenize.tokens.map (fun t => (t.lexeme, t.line)) =
        [("\"\\\n\"", 1), ("a", 1), ("", 1)] ∧
      sourceLine "\"\\\n\" ".toList = 2 ∧
      ∀ ts ms ds, s.tokenize.tokens = ts ++ ms → (∀ t ∈ ms, t.IsMarker) →
        ¬ Recorded sourceLine [] s.source ts ds := by
  intro s
  refine ⟨by decide +kernel, by decide +kernel, by decide, ?_⟩
  intro ts ms ds htokens hmarkers hrecorded
  have hmem : (⟨.identifier, "a", .text "a", 1⟩ : Token) ∈ s.tokenize.tokens := by
    have : s.tokenize.tokens = [⟨.string, "\"\\\n\"", .text "\\\n", 1⟩,
        ⟨.identifier, "a", .text "a", 1⟩, ⟨.newline, "", .null, 1⟩] := by decide +kernel
    simp [this]
  rw [htokens] at hmem
  rcases List.mem_append.mp hmem with hts | hms
  · obtain ⟨front, rest, hfront, hline⟩ := hrecorded.exists_front _ hts (by decide)
    -- the name occurs once, so what stands in front of it is known
    have hbefore : front = "\"\\\n\" ".toList := by
      have hsource : [] ++ s.source = ['\"', '\\', '\n', '\"', ' ', 'a', '\n'] := rfl
      have hname : "a".toList = ['a'] := rfl
      rw [hsource, hname, List.singleton_append] at hfront
      have hat : ['\"', '\\', '\n', '\"', ' ', 'a', '\n'][front.length]? = some 'a' := by
        rw [hfront, List.getElem?_append_right (Nat.le_refl _), Nat.sub_self]
        exact List.getElem?_cons_zero
      have hlength : front.length < 7 := by
        have := congrArg List.length hfront
        simp only [List.length_cons, List.length_nil, List.length_append] at this
        omega
      have hplace : ∀ n < 7, ['\"', '\\', '\n', '\"', ' ', 'a', '\n'][n]? = some 'a' → n = 5 := by
        decide
      have htake := congrArg (List.take front.length) hfront
      rw [List.take_left, hplace _ hlength hat] at htake
      exact htake.symm
    rw [hbefore] at hline
    exact absurd hline (by decide)
  · exact absurd (hmarkers _ hms).1 (by decide)

end Scanner

end Scriptlet
