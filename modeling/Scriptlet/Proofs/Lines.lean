import Scriptlet.Proofs.Round

/-!
# Where lines start

A source is read character by character, apart from any token, to find the lines that have a layout:
those that are neither blank nor only a comment and do not start inside a group or a string.

* `Context`, `logicalLines`: the reading.
* `lines_round`: the scanner starts a line with a layout exactly where the reading finds one.
* `laidLines_eq`, `blockMarks_scanAll`, `indentationReports_scanAll`: what the scanner emits in
  front of its lines, and reports about them, depends on their widths only.
-/

namespace Scriptlet

/-! ## Reading a source by characters -/

/-- What a character can stand in. -/
inductive Place where
  | code
  | comment
  | string
  /-- In a string behind a backslash. -/
  | escape
  deriving DecidableEq

/-- What surrounds a place of a source. -/
structure Context where
  place : Place := .code
  parens : Nat := 0
  brackets : Nat := 0

/-- The context behind a character. A closing parenthesis or bracket with nothing to close changes
nothing. -/
def Context.next (x : Context) (c : Char) : Context :=
  match x.place with
  | .code =>
    if isQuote c then { x with place := .string }
    else if c = '#' then { x with place := .comment }
    else if c = '(' then { x with parens := x.parens + 1 }
    else if c = ')' then { x with parens := x.parens - 1 }
    else if c = '[' then { x with brackets := x.brackets + 1 }
    else if c = ']' then { x with brackets := x.brackets - 1 }
    else x
  | .comment => if c = '\n' then { x with place := .code } else x
  | .string =>
    if isQuote c then { x with place := .code }
    else if c = '\\' then { x with place := .escape }
    else x
  | .escape => { x with place := .string }

/-- Outside of groups, strings and comments. -/
def Context.isOuter (x : Context) : Bool := x.place = .code && x.parens = 0 && x.brackets = 0

/-- Whether the first line of a text is blank or only a comment. -/
def startsEmpty (text : List Char) : Bool :=
  match (text.takeWhile (· != '\n')).dropWhile Text.isBlank with
  | [] => true
  | c :: _ => c == '#'

/-- The lines that have a layout, each as the text from its start on. The flag tells whether the
text is at the start of a line. -/
def logicalLines (x : Context) (start : Bool) : List Char → List (List Char)
  | [] => []
  | c :: cs =>
    let lines := logicalLines (x.next c) (c == '\n') cs
    if start && x.isOuter && !startsEmpty (c :: cs) then (c :: cs) :: lines else lines

/-- The layouts of lines of the given widths, one after the other. -/
def Margin.layOuts (m : Margin) : List Nat → List Layout
  | [] => []
  | width :: widths => m.layOut width :: (m.layOut width).after.layOuts widths

/-- The widths of the lines of a source that have a layout. -/
def lineWidths (source : List Char) : List Nat := (logicalLines {} true source).map indentation

/-! ## Texts within a line -/

theorem logicalLines_inside (x : Context) (c : Char) (cs : List Char) :
    logicalLines x false (c :: cs) = logicalLines (x.next c) (c == '\n') cs := rfl

theorem logicalLines_start (x : Context) (text : List Char) :
    logicalLines x true text =
      (if x.isOuter && !startsEmpty text then [text] else []) ++ logicalLines x false text := by
  cases text with
  | nil =>
    have : startsEmpty [] = true := rfl
    simp [logicalLines, this]
  | cons c cs =>
    rw [logicalLines_inside, logicalLines, Bool.true_and]
    split
    · rfl
    · rfl

/-- Inside strings and comments no line starts. -/
theorem logicalLines_not_code {x : Context} (h : x.place ≠ .code) (start : Bool)
    (text : List Char) : logicalLines x start text = logicalLines x false text := by
  have houter : x.isOuter = false := by simp [Context.isOuter, h]
  cases text with
  | nil => rfl
  | cons c cs =>
    rw [logicalLines_inside, logicalLines, houter]
    simp

theorem next_of_not_special {x : Context} (h : x.place = .code) {c : Char} (hc : c ∉ special) :
    x.next c = x := by
  simp only [special, List.mem_cons, List.not_mem_nil, or_false, not_or] at hc
  obtain ⟨hdouble, hsingle, hhash, -, hparen, hparen', hbracket, hbracket'⟩ := hc
  simp [Context.next, h, isQuote, hdouble, hsingle, hhash, hparen, hparen', hbracket, hbracket']

theorem logicalLines_plain {x : Context} (h : x.place = .code) {text : List Char}
    (htext : ∀ c ∈ text, c ∉ special) (rest : List Char) :
    logicalLines x false (text ++ rest) = logicalLines x false rest := by
  induction text with
  | nil => rfl
  | cons c cs ih =>
    have hc := htext c List.mem_cons_self
    have hnewline : (c == '\n') = false := by
      simp only [beq_eq_false_iff_ne]
      rintro rfl
      exact hc (by decide)
    rw [List.cons_append, logicalLines_inside, next_of_not_special h hc, hnewline]
    exact ih fun d hd => htext d (List.mem_cons_of_mem c hd)

theorem logicalLines_raw {x : Context} (h : x.place = .string) {p : Piece} (hp : p.Proper)
    (rest : List Char) : logicalLines x false (p.raw ++ rest) = logicalLines x false rest := by
  cases p with
  | plain c =>
    have hnext : x.next c = x := by simp [Context.next, h, hp.1, hp.2]
    show logicalLines (x.next c) (c == '\n') rest = _
    rw [hnext, logicalLines_not_code (by simp [h])]
  | escape c =>
    have hnext : (x.next '\\').next c = x := by
      have hquote : isQuote '\\' = false := by decide
      cases x
      cases h
      simp [Context.next, hquote]
    show logicalLines ((x.next '\\').next c) (c == '\n') rest = _
    rw [hnext, logicalLines_not_code (by simp [h])]

theorem logicalLines_pieces {x : Context} (h : x.place = .string) {pieces : List Piece}
    (hpieces : ∀ p ∈ pieces, p.Proper) (rest : List Char) :
    logicalLines x false (pieces.flatMap Piece.raw ++ rest) = logicalLines x false rest := by
  induction pieces with
  | nil => rfl
  | cons p ps ih =>
    rw [List.flatMap_cons, List.append_assoc, logicalLines_raw h (hpieces p List.mem_cons_self)]
    exact ih fun q hq => hpieces q (List.mem_cons_of_mem p hq)

theorem ne_newline_of_isQuote {c : Char} (h : isQuote c = true) : (c == '\n') = false := by
  rw [beq_eq_false_iff_ne]
  rintro rfl
  exact absurd h (by decide)

theorem logicalLines_opening {x : Context} (h : x.place = .code) {opening : Char}
    (hopening : isQuote opening = true) {pieces : List Piece} (hpieces : ∀ p ∈ pieces, p.Proper)
    (rest : List Char) :
    logicalLines x false (opening :: pieces.flatMap Piece.raw ++ rest) =
      logicalLines { x with place := .string } false rest := by
  have hnext : x.next opening = { x with place := .string } := by
    simp [Context.next, h, hopening]
  rw [List.cons_append, logicalLines_inside, hnext, ne_newline_of_isQuote hopening]
  exact logicalLines_pieces rfl hpieces rest

theorem logicalLines_closing {x : Context} (h : x.place = .code) {closing : Char}
    (hclosing : isQuote closing = true) (rest : List Char) :
    logicalLines { x with place := .string } false (closing :: rest) =
      logicalLines x false rest := by
  have hnext : Context.next { x with place := .string } closing = x := by
    cases x
    cases h
    simp [Context.next, hclosing]
  rw [logicalLines_inside, hnext, ne_newline_of_isQuote hclosing]

theorem logicalLines_comment {x : Context} (h : x.place = .code) {body rest : List Char}
    (hbody : '\n' ∉ body) (hend : ∀ c ∈ rest.head?, c = '\n') :
    logicalLines x false ('#' :: body ++ rest) = logicalLines x false rest := by
  have hbody' : ∀ cs : List Char, '\n' ∉ cs →
      logicalLines { x with place := .comment } false (cs ++ rest) =
        logicalLines { x with place := .comment } false rest := by
    intro cs hcs
    induction cs with
    | nil => rfl
    | cons c cs ih =>
      have hc : c ≠ '\n' := fun he => hcs (he ▸ List.mem_cons_self)
      have hnext : Context.next { x with place := .comment } c = { x with place := .comment } := by
        simp [Context.next, hc]
      rw [List.cons_append, logicalLines_inside, hnext, beq_eq_false_iff_ne.mpr hc]
      exact ih fun hmem => hcs (List.mem_cons_of_mem c hmem)
  have hnext : x.next '#' = { x with place := .comment } := by
    have hquote : isQuote '#' = false := by decide
    simp [Context.next, h, hquote]
  rw [List.cons_append, logicalLines_inside, hnext]
  refine (hbody' body hbody).trans ?_
  cases rest with
  | nil => rfl
  | cons c cs =>
    obtain rfl := hend c rfl
    have hquote : isQuote '\n' = false := by decide
    cases x
    cases h
    simp [logicalLines_inside, Context.next, hquote]

/-! ## Items -/

theorem IsNumber.not_special {text : List Char} (h : IsNumber text) :
    ∀ c ∈ text, c ∉ special := by
  intro c hc
  have hclass : (c.isDigit || c == '_' || c == '.') = true := by
    rcases h.2.1 c hc with hdigit | rfl | rfl
    · simp [hdigit]
    · rfl
    · rfl
  exact not_mem_of_class (q := fun d => d.isDigit || d == '_' || d == '.') hclass (by decide)

theorem IsWord.not_special {text : List Char} (h : IsWord text) : ∀ c ∈ text, c ∉ special := by
  obtain ⟨d, ds, rfl, hstart, hword⟩ := h
  intro c hc
  have hclass : isWordChar c = true := by
    rcases List.mem_cons.mp hc with rfl | hc
    · exact Scanner.isWordChar_of_isWordStart hstart
    · exact hword c hc
  exact not_mem_of_class hclass (by decide)

/-- Apart from those of groups, lexemes end in the context they start in, and no line starts in
them. -/
theorem logicalLines_lexeme {x : Context} (hcode : x.place = .code) {k : Kind} {text : List Char}
    {p : Document} (h : Lexeme k text p) (hbracket : k ∉ Kind.brackets) (rest : List Char) :
    logicalLines x false (text ++ rest) = logicalLines x false rest := by
  have hspelling : ∀ k : Kind, k ∈ Kind.keywords ∨ k ∈ Kind.symbols → k ∉ Kind.brackets →
      k.spelling.toList.all (!special.contains ·) = true := by
    intro k
    cases k <;> decide
  have hfixed : ∀ text : List Char, text.all (!special.contains ·) = true →
      logicalLines x false (text ++ rest) = logicalLines x false rest := by
    intro text htext
    refine logicalLines_plain hcode ?_ rest
    intro c hc hmem
    have := List.all_eq_true.mp htext c hc
    simp [hmem] at this
  cases h with
  | keyword hk => exact hfixed _ (hspelling k (.inl hk) hbracket)
  | symbol hk => exact hfixed _ (hspelling k (.inr hk) hbracket)
  | truth b => cases b <;> exact hfixed _ rfl
  | name hword => exact logicalLines_plain hcode hword.not_special rest
  | number hnumber => exact logicalLines_plain hcode hnumber.not_special rest
  | string hopening hclosing hpieces =>
    rw [List.append_assoc, logicalLines_opening hcode hopening hpieces, List.singleton_append,
      logicalLines_closing hcode hclosing]

/-- The fault of indentation has a wording of its own. -/
theorem ScanFault.message_ne_indentation {f : ScanFault} (h : f ≠ .indentation) :
    f.message ≠ ScanFault.indentation.message := by
  -- The wordings differ in their first characters.
  have hhead : f.message.toList.head? = some 'i' ∨ f.message.toList.head? = some 'f' := by
    cases f with
    | indentation => exact absurd rfl h
    | numeral lexeme =>
      left
      show ("invalid number literal '" ++ lexeme ++ "'").toList.head? = some 'i'
      rw [String.append_assoc, String.toList_append]
      rfl
    | openString => exact .inr rfl
    | closingParen => exact .inr rfl
    | closingBracket => exact .inr rfl
    | unknown c =>
      right
      show ("found unknown symbol " ++ Text.quoted (String.ofList c.toList)).toList.head? = some 'f'
      rw [String.toList_append]
      rfl
  intro heq
  rw [heq] at hhead
  exact absurd hhead (by decide)

namespace Scanner

/-- What surrounds the cursor. -/
def context (s : Scanner) : Context := { parens := s.openParens, brackets := s.openBrackets }

/-- The lines that are still to be laid out. -/
def lines (s : Scanner) : List (List Char) := logicalLines s.context s.atLineStart s.rest

theorem withOpen_openCount (s : Scanner) (e : Enclosure) : s.withOpen e (s.openCount e) = s := by
  cases e <;> rfl

/-- What closes a group takes one off the count, if there is one to take. -/
theorem context_close (s : Scanner) (e : Enclosure) : (s.close e).atLineStart = s.atLineStart ∧
    (s.close e).context = (s.withOpen e (s.openCount e - 1)).context := by
  rcases s.close_cases e with ⟨n, hcount, h⟩ | ⟨hcount, h⟩
  · rw [h, hcount]
    exact ⟨rfl, rfl⟩
  · have hsame := s.withOpen_openCount e
    rw [hcount] at hsame
    rw [h, hcount, Nat.zero_sub, hsame]
    exact ⟨rfl, rfl⟩

theorem context_endLine (s : Scanner) : s.endLine.atLineStart = true ∧
    s.endLine.context = s.context := by
  unfold endLine
  split
  · exact ⟨rfl, rfl⟩
  · exact ⟨rfl, rfl⟩

theorem lines_perform_bracket {s : Scanner} {k : Kind} (p : Document) (hk : k ∈ Kind.brackets)
    (hstart : s.atLineStart = false) :
    (s.perform k.spelling.toList (.token k p)).lines =
      logicalLines s.context false (k.spelling.toList ++ s.rest) := by
  simp only [Kind.brackets, List.mem_cons, List.not_mem_nil, or_false] at hk
  rcases hk with rfl | rfl | rfl | rfl
  · show logicalLines _ s.atLineStart s.rest = logicalLines (s.context.next '(') false s.rest
    rw [hstart]
    rfl
  · show logicalLines s.closeParen.context s.closeParen.atLineStart s.closeParen.rest =
      logicalLines (s.context.next ')') false s.rest
    rw [rest_close, (context_close s .paren).1, (context_close s .paren).2, hstart]
    rfl
  · show logicalLines _ s.atLineStart s.rest = logicalLines (s.context.next '[') false s.rest
    rw [hstart]
    rfl
  · show logicalLines s.closeBracket.context s.closeBracket.atLineStart s.closeBracket.rest =
      logicalLines (s.context.next ']') false s.rest
    rw [rest_close, (context_close s .bracket).1, (context_close s .bracket).2, hstart]
    rfl

/-- Behind an item the lines are those that were to come in front of it. -/
theorem lines_perform {s : Scanner} {text : List Char} {item : Item}
    (hreads : Reads text item s.rest) (hstart : s.atLineStart = false) :
    (s.perform text item).lines = logicalLines s.context false (text ++ s.rest) := by
  have hsame : s.lines = logicalLines s.context false s.rest := by rw [lines, hstart]
  have hcode : s.context.place = .code := rfl
  generalize hrest : s.rest = rest at hreads
  cases hreads with
  | @token k _ _ p hlex =>
    by_cases hbracket : k ∈ Kind.brackets
    · have hsymbol : ∀ k ∈ Kind.brackets, k ∈ Kind.symbols := by decide
      rw [(hlex.of_mem_symbols (hsymbol k hbracket)).1, ← hrest]
      exact lines_perform_bracket p hbracket hstart
    · rw [perform_token s text p hbracket, logicalLines_lexeme hcode hlex hbracket, ← hrest]
      exact hsame
  | comment hbody hend =>
    rw [logicalLines_comment hcode hbody hend, ← hrest]
    exact hsame
  | newline =>
    show logicalLines s.endLine.context s.endLine.atLineStart s.endLine.rest =
      logicalLines (s.context.next '\n') true rest
    rw [rest_endLine, (context_endLine s).1, (context_endLine s).2, hrest]
    rfl
  | numeral hnumber =>
    rw [logicalLines_plain hcode hnumber.not_special, ← hrest]
    exact hsame
  | openString hopening hpieces htail =>
    rw [List.append_nil, logicalLines_opening hcode hopening hpieces]
    show logicalLines s.context s.atLineStart s.rest = _
    rw [hrest]
    rcases htail with rfl | rfl
    · rfl
    · rfl
  | @unknown c _ hc =>
    have hspecial : ∀ d ∈ [c], d ∉ special := by
      intro d hd
      rw [List.mem_singleton.mp hd]
      exact hc
    rw [logicalLines_plain hcode hspecial, ← hrest]
    exact hsame

/-! ## Rounds -/

theorem startsEmpty_rest (s : Scanner) : startsEmpty s.rest = s.atEmptyLine := by
  unfold startsEmpty atEmptyLine
  induction s.rest with
  | nil => rfl
  | cons c cs ih =>
    by_cases hnewline : c = '\n'
    · subst hnewline
      rfl
    · rw [List.takeWhile_cons_of_pos (by simpa using hnewline)]
      by_cases hblank : Text.isBlank c = true
      · have hinline : isInlineBlank c = true := by simp [isInlineBlank, hblank, hnewline]
        rw [List.dropWhile_cons_of_pos hblank, List.dropWhile_cons_of_pos hinline, ih]
      · have hinline : ¬ isInlineBlank c = true := by simp [isInlineBlank, hblank]
        rw [List.dropWhile_cons_of_neg hblank, List.dropWhile_cons_of_neg hinline]
        simp [hnewline]

theorem isOuter_context (s : Scanner) : s.context.isOuter = !s.nested := by
  unfold Context.isOuter context nested
  cases s.openParens <;> cases s.openBrackets <;> rfl

theorem context_begun (s : Scanner) : s.begun.context = s.context := by
  unfold begun laidOut
  split
  · split
    · rfl
    · rfl
  · rfl

theorem lines_eq (s : Scanner) : s.lines =
    (if s.startsLine then [s.rest] else []) ++ logicalLines s.context false s.rest := by
  unfold lines startsLine
  cases s.atLineStart with
  | false => rfl
  | true =>
    rw [logicalLines_start, isOuter_context, startsEmpty_rest, Bool.true_and, Bool.and_comm]

theorem not_special_of_isInlineBlank {cs : List Char} (h : ∀ c ∈ cs, isInlineBlank c = true) :
    ∀ c ∈ cs, c ∉ special :=
  fun c hc => not_mem_of_class (h c hc) (by decide)

/-- **A round starts a line exactly where the reading by characters finds one.** -/
theorem lines_round (s : Scanner) :
    s.lines = (if s.startsLine then [s.rest] else []) ++ s.round.lines := by
  have hcode : s.context.place = .code := rfl
  rw [lines_eq]
  congr 1
  rcases round_cases s with ⟨pos, column, start, hblank, hround⟩ |
    ⟨blanks, text, item, rest, pos, line, column, hsplit, hblank, -, hreads, hround⟩
  · have h := logicalLines_plain hcode (not_special_of_isInlineBlank hblank) []
    rw [List.append_nil] at h
    rw [h, hround]
    rfl
  · rw [hsplit, logicalLines_plain hcode (not_special_of_isInlineBlank hblank), hround,
      lines_perform hreads rfl]
    show _ = logicalLines s.begun.context false (text ++ rest)
    rw [context_begun]

/-! ## What is emitted and reported about lines -/

/-- The number of reports about indentation. -/
def indentationReports (s : Scanner) : Nat :=
  s.reports.records.countP fun d => d.message = ScanFault.indentation.message

/-- The kinds of the tokens that open and close blocks, in order. -/
def blockMarks (s : Scanner) : List Kind :=
  (s.tokens.map Token.kind).filter fun k => k = .indent || k = .dedent

/-- What items leave as it is: all that concerns blocks. -/
structure SameBlocks (s t : Scanner) : Prop where
  margin : t.margin = s.margin
  reports : t.indentationReports = s.indentationReports
  marks : t.blockMarks = s.blockMarks

theorem indentationReports_fault {s : Scanner} {f : ScanFault} (h : f ≠ .indentation) :
    (s.fault f).indentationReports = s.indentationReports := by
  have := ScanFault.message_ne_indentation h
  simp [indentationReports, fault, report, List.countP_append, this]

theorem sameBlocks_add (s : Scanner) {k : Kind} (l : String) (p : Document)
    (h : k.isLayout = true → k = .newline) : s.SameBlocks (s.add k l p) := by
  refine ⟨rfl, rfl, ?_⟩
  have hk : ¬ (k = .indent ∨ k = .dedent) := by
    rintro (rfl | rfl)
    · exact absurd (h rfl) (by decide)
    · exact absurd (h rfl) (by decide)
  simp only [not_or] at hk
  simp [blockMarks, tokens, add, hk]

theorem sameBlocks_fault (s : Scanner) {f : ScanFault} (h : f ≠ .indentation) :
    s.SameBlocks (s.fault f) :=
  ⟨rfl, indentationReports_fault h, rfl⟩

theorem SameBlocks.trans {s t u : Scanner} (h : s.SameBlocks t) (h' : t.SameBlocks u) :
    s.SameBlocks u :=
  ⟨h'.margin.trans h.margin, h'.reports.trans h.reports, h'.marks.trans h.marks⟩

theorem sameBlocks_close (s : Scanner) (e : Enclosure) : s.SameBlocks (s.close e) := by
  have hfault : e.unopened ≠ .indentation := by cases e <;> decide
  have hlayout : e.closer.isLayout = true → e.closer = .newline := by cases e <;> decide
  rcases s.close_cases e with ⟨n, -, h⟩ | ⟨-, h⟩
  · have hclosed : s.SameBlocks (s.withOpen e n) := ⟨rfl, rfl, rfl⟩
    rw [h]
    exact hclosed.trans (sameBlocks_add _ _ _ hlayout)
  · rw [h]
    exact (sameBlocks_fault s hfault).trans (sameBlocks_add _ _ _ hlayout)

theorem sameBlocks_endLine (s : Scanner) : s.SameBlocks s.endLine := by
  unfold endLine
  dsimp only
  split
  · exact ⟨rfl, rfl, rfl⟩
  · exact (sameBlocks_add (k := .newline) s "" .null fun _ => rfl).trans ⟨rfl, rfl, rfl⟩

theorem sameBlocks_perform (s : Scanner) {text rest : List Char} {item : Item}
    (h : Reads text item rest) : s.SameBlocks (s.perform text item) := by
  cases h with
  | @token k _ _ p hlex =>
    have hlayout : k.isLayout = true → k = .newline := by
      intro hk
      rw [hlex.not_isLayout] at hk
      cases hk
    by_cases hbracket : k ∈ Kind.brackets
    · simp only [Kind.brackets, List.mem_cons, List.not_mem_nil, or_false] at hbracket
      rcases hbracket with rfl | rfl | rfl | rfl
      · exact (sameBlocks_add s "(" .null hlayout).trans ⟨rfl, rfl, rfl⟩
      · exact sameBlocks_close s .paren
      · exact (sameBlocks_add s "[" .null hlayout).trans ⟨rfl, rfl, rfl⟩
      · exact sameBlocks_close s .bracket
    · rw [perform_token s text p hbracket]
      exact sameBlocks_add s _ p hlayout
  | comment => exact ⟨rfl, rfl, rfl⟩
  | newline => exact sameBlocks_endLine s
  | numeral => exact sameBlocks_fault s (by simp)
  | openString => exact sameBlocks_fault s (by simp)
  | unknown => exact sameBlocks_fault s (by simp)

theorem indentationReports_begun (s : Scanner) : s.begun.indentationReports =
    s.indentationReports + s.layouts.countP (!·.matched) := by
  unfold begun layouts
  split
  · unfold laidOut
    cases hmatched : (s.margin.layOut (indentation s.rest)).matched with
    | false => simp [indentationReports, fault, report, laid, markLine, hmatched]
    | true => simp [indentationReports, laid, markLine, hmatched]
  · rfl

theorem kinds_begun (s : Scanner) : s.begun.tokens.map Token.kind =
    s.tokens.map Token.kind ++ s.layouts.flatMap Layout.marks := by
  rw [tokens, emitted_begun, List.reverse_append, List.reverse_reverse, List.map_append,
    List.map_map]
  exact congrArg _ (List.map_id _)

theorem blockMarks_begun (s : Scanner) :
    s.begun.blockMarks = s.blockMarks ++ s.layouts.flatMap Layout.marks := by
  rw [blockMarks, kinds_begun, List.filter_append]
  congr 1
  refine List.filter_eq_self.mpr ?_
  intro k hk
  rcases mem_marks_layouts hk with rfl | rfl
  · rfl
  · rfl

theorem margin_begun (s : Scanner) : s.begun.margin =
    if s.startsLine then (s.margin.layOut (indentation s.rest)).after else s.margin := by
  unfold begun laidOut
  split
  · split
    · rfl
    · rfl
  · rfl

theorem sameBlocks_round (s : Scanner) : s.begun.SameBlocks s.round := by
  rcases round_cases s with ⟨pos, column, start, -, hround⟩ |
    ⟨blanks, text, item, rest, pos, line, column, -, -, -, hreads, hround⟩
  · rw [hround]
    exact ⟨rfl, rfl, rfl⟩
  · have hplaced : s.begun.SameBlocks (s.begun.placed rest pos line column false) :=
      ⟨rfl, rfl, rfl⟩
    rw [hround]
    exact hplaced.trans (sameBlocks_perform _ hreads)

/-- The layouts to come, those of the round first. -/
theorem layOuts_round (s : Scanner) : s.margin.layOuts (s.lines.map indentation) =
    s.layouts ++ s.round.margin.layOuts (s.round.lines.map indentation) := by
  rw [lines_round, (sameBlocks_round s).margin, margin_begun, layouts]
  split
  · rfl
  · rfl

/-! ## The run -/

/-- The states at the start of each round. -/
def rounds (s : Scanner) : List Scanner :=
  if s.rest = [] then [] else s :: s.round.rounds
termination_by s.rest.length
decreasing_by
  rename_i h
  exact length_rest_round_lt h

/-- The kinds of the tokens that are emitted in front of the next item. -/
def frontMarks (s : Scanner) : List Kind :=
  (s.beginToken.tokens.drop s.tokens.length).map Token.kind

/-- The lines that are laid out, each as the text from its start on, with the kinds of the tokens
emitted in front of it. -/
def laidLines (s : Scanner) : List (List Char × List Kind) :=
  (s.rounds.filter startsLine).map fun t => (t.rest, t.frontMarks)

theorem frontMarks_of_startsLine {s : Scanner} (h : s.startsLine = true) :
    s.frontMarks = (s.margin.layOut (indentation s.rest)).marks := by
  obtain ⟨pos, column, start, hbegin⟩ := beginToken_eq s
  have htokens : s.beginToken.tokens = s.begun.tokens := by rw [hbegin]; rfl
  have hlength : s.tokens.length = (s.tokens.map Token.kind).length := by rw [List.length_map]
  rw [frontMarks, htokens, List.map_drop, kinds_begun, hlength, List.drop_left, layouts, if_pos h]
  exact List.append_nil _

theorem laidLines_of_nil {s : Scanner} (h : s.rest = []) : s.laidLines = [] := by
  rw [laidLines, rounds, if_pos h]
  rfl

theorem laidLines_of_ne_nil {s : Scanner} (h : s.rest ≠ []) : s.laidLines =
    (if s.startsLine then [(s.rest, (s.margin.layOut (indentation s.rest)).marks)] else []) ++
      s.round.laidLines := by
  rw [laidLines, rounds, if_neg h]
  by_cases hstart : s.startsLine = true
  · rw [List.filter_cons_of_pos hstart, List.map_cons, frontMarks_of_startsLine hstart,
      if_pos hstart]
    rfl
  · rw [List.filter_cons_of_neg hstart, if_neg hstart]
    rfl

theorem lines_of_nil {s : Scanner} (h : s.rest = []) : s.lines = [] := by
  rw [lines, h]
  rfl

/-- **What stands in front of lines depends on their widths only.** -/
theorem laidLines_eq (s : Scanner) : s.laidLines =
    s.lines.zip ((s.margin.layOuts (s.lines.map indentation)).map Layout.marks) := by
  induction s using rounds_induction with
  | ended s hrest => rw [laidLines_of_nil hrest, lines_of_nil hrest]; rfl
  | next s hrest ih =>
    rw [laidLines_of_ne_nil hrest, layOuts_round, lines_round, ih, layouts]
    split
    · rfl
    · rfl

theorem indentationReports_scanAll (s : Scanner) : s.scanAll.indentationReports =
    s.indentationReports + (s.margin.layOuts (s.lines.map indentation)).countP (!·.matched) := by
  induction s using rounds_induction with
  | ended s hrest => rw [scanAll_of_nil hrest, lines_of_nil hrest]; rfl
  | next s hrest ih =>
    rw [scanAll_of_ne_nil hrest, ih, layOuts_round s, (sameBlocks_round s).reports,
      indentationReports_begun, List.countP_append, Nat.add_assoc]

theorem blockMarks_scanAll (s : Scanner) : s.scanAll.blockMarks =
    s.blockMarks ++ (s.margin.layOuts (s.lines.map indentation)).flatMap Layout.marks := by
  induction s using rounds_induction with
  | ended s hrest =>
    rw [scanAll_of_nil hrest, lines_of_nil hrest]
    exact (List.append_nil _).symm
  | next s hrest ih =>
    rw [scanAll_of_ne_nil hrest, ih, layOuts_round s, (sameBlocks_round s).marks, blockMarks_begun,
      List.flatMap_append, List.append_assoc]

end Scanner

end Scriptlet
