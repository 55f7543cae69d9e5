import Scriptlet.Proofs.Lexicon

/-!
# Rounds of the scanner

A round of the loop takes the layout of a new line, passes blanks, and reads one item.

* `Margin.layOut`, `layOut_eq`: the layout of a line depends on its width and the lines before.
* `scanToken_reads`: what stands after the blanks is an item of the lexicon, which the scanner moves
  past and performs (`moved`, `perform`).
* `round`, `round_cases`: all that a round can do.
* `scanAll_of_ne_nil`: the loop is one round after the other; `rounds_induction` goes over them.
-/

namespace Scriptlet

/-! ## The layout of a width -/

/-- The width of the indentation that a text starts with. -/
def indentation (text : List Char) : Nat :=
  ((text.takeWhile isIndentChar).map indentWidth).foldr (· + ·) 0

/-- What is remembered of the lines before: their widths, latest first, and the open blocks. -/
structure Margin where
  widths : List Nat
  openBlocks : Nat

/-- How a line is laid out. -/
structure Layout where
  /-- The block tokens in front of the line. -/
  marks : List Kind
  /-- Whether there were blocks to close for it. -/
  matched : Bool
  after : Margin

/-- The layout of a line of the given width, apart from any text. -/
def Margin.layOut (m : Margin) (width : Nat) : Layout :=
  if m.widths.head? = some width then ⟨[], true, width :: m.widths, m.openBlocks⟩
  else
    let opened := if m.widths.headD 0 < width then 1 else 0
    let unwound := unwind width m.widths none (m.openBlocks + opened)
    { marks := List.replicate opened .indent ++ List.replicate unwound.closed .dedent
      matched := unwound.matched
      after :=
        { widths := if unwound.matched then width :: m.widths else m.widths
          openBlocks := m.openBlocks + opened - unwound.closed } }

/-- The tokens in front of a line open and close blocks. -/
theorem Margin.mem_marks {m : Margin} {width : Nat} {k : Kind}
    (h : k ∈ (m.layOut width).marks) : k = .indent ∨ k = .dedent := by
  unfold layOut at h
  split at h
  · cases h
  · rcases List.mem_append.mp h with h | h
    · exact .inl (List.eq_of_mem_replicate h)
    · exact .inr (List.eq_of_mem_replicate h)

namespace Scanner

/-! ## Moving and performing -/

/-- The scanner past a text, on some line and column. -/
def moved (s : Scanner) (text : List Char) (line column : Nat) : Scanner :=
  { s with
    rest := s.rest.drop text.length
    pos := s.pos + text.length
    line := line
    column := column
    atLineStart := false }

/-- What an item does once its text has been passed. -/
def perform (s : Scanner) (text : List Char) : Item → Scanner
  | .token .leftParen _ => { s.add .leftParen "(" .null with openParens := s.openParens + 1 }
  | .token .rightParen _ => s.closeParen
  | .token .leftBracket _ =>
    { s.add .leftBracket "[" .null with openBrackets := s.openBrackets + 1 }
  | .token .rightBracket _ => s.closeBracket
  | .token k p => s.add k (String.ofList text) p
  | .comment => s
  | .newline => s.endLine
  | .flaw f => s.fault f

theorem rest_perform (s : Scanner) (text : List Char) (item : Item) :
    (s.perform text item).rest = s.rest := by
  unfold perform
  split
  · rfl
  · exact rest_close s .paren
  · rfl
  · exact rest_close s .bracket
  · rfl
  · rfl
  · exact rest_endLine s
  · rfl

theorem advanceBy_eq_moved (s : Scanner) (text : List Char) (h : text ≠ []) :
    s.advanceBy text.length = s.moved text s.line (s.column + text.length) := by
  have hpos : (text.length == 0) = false := by
    cases text with
    | nil => exact absurd rfl h
    | cons c cs => rfl
  simp [advanceBy, moved, hpos]

theorem advance_eq_moved (s : Scanner) (c : Char) :
    s.advance = s.moved [c] s.line (s.column + 1) :=
  advanceBy_eq_moved s [c] (by simp)

theorem moved_moved (s : Scanner) (t u : List Char) (line column line' column' : Nat) :
    (s.moved t line column).moved u line' column' = s.moved (t ++ u) line' column' := by
  simp [moved, Nat.add_assoc]

theorem passPiece_moved (s : Scanner) (t : List Char) (line column : Nat) (p : Piece) :
    ∃ line' column', (s.moved t line column).passPiece p = s.moved (t ++ p.raw) line' column' := by
  cases p with
  | plain c =>
    by_cases hc : c = '\n'
    · refine ⟨line + 1, 1, ?_⟩
      simp only [passPiece, if_pos hc]
      rw [advance_eq_moved _ c, moved_moved]
      rfl
    · refine ⟨line, column + 1, ?_⟩
      simp only [passPiece, if_neg hc]
      rw [advance_eq_moved _ c, moved_moved]
      rfl
  | escape c =>
    refine ⟨line, column + 2, ?_⟩
    have h := advanceBy_eq_moved (s.moved t line column) ['\\', c] (by simp)
    rw [moved_moved] at h
    exact h

theorem foldl_passPiece_moved (s : Scanner) (ps : List Piece) (t : List Char) (line column : Nat) :
    ∃ line' column', ps.foldl passPiece (s.moved t line column) =
      s.moved (t ++ ps.flatMap Piece.raw) line' column' := by
  induction ps generalizing t line column with
  | nil => exact ⟨line, column, by simp⟩
  | cons p ps ih =>
    obtain ⟨line₁, column₁, h₁⟩ := passPiece_moved s t line column p
    obtain ⟨line₂, column₂, h₂⟩ := ih (t ++ p.raw) line₁ column₁
    exact ⟨line₂, column₂, by rw [List.foldl_cons, h₁, h₂, List.flatMap_cons, List.append_assoc]⟩

theorem rest_foldl_passPiece (ps : List Piece) (s : Scanner) :
    (ps.foldl passPiece s).rest = s.rest.drop (ps.flatMap Piece.raw).length := by
  induction ps generalizing s with
  | nil => rfl
  | cons p ps ih =>
    rw [List.foldl_cons, ih, rest_passPiece, List.drop_drop, List.flatMap_cons, List.length_append]

/-! ## What each scanner reads -/

/-- What is passed while a condition holds ends where it fails. -/
theorem head_dropWhile (q : Char → Bool) (cs : List Char) :
    ∀ c ∈ (cs.dropWhile q).head?, q c = false := by
  intro c hc
  have := List.head?_dropWhile_not q cs
  rw [Option.mem_def.mp hc] at this
  exact this

/-- The step reads some item from the text that remains and performs it. -/
def ReadsItem (s t : Scanner) : Prop :=
  ∃ text item rest line column, s.rest = text ++ rest ∧ Reads text item rest ∧
    t = (s.moved text line column).perform text item

/-- Tokens other than parentheses and brackets are added as they are. -/
theorem perform_token (s : Scanner) (text : List Char) {k : Kind} (p : Document)
    (hk : k ∉ Kind.brackets) :
    s.perform text (.token k p) = s.add k (String.ofList text) p := by
  unfold perform
  split
  all_goals rename_i heq; cases heq
  · exact absurd (by decide) hk
  · exact absurd (by decide) hk
  · exact absurd (by decide) hk
  · exact absurd (by decide) hk
  · rfl

theorem scanWord_reads {s : Scanner} {c : Char} {cs : List Char} (h : s.rest = c :: cs)
    (hc : isWordStart c = true) : s.ReadsItem s.scanWord := by
  have htext : s.rest.takeWhile isWordChar = c :: cs.takeWhile isWordChar := by
    rw [h, List.takeWhile_cons_of_pos (isWordChar_of_isWordStart hc)]
  obtain ⟨w, hw⟩ : ∃ w, w = s.rest.takeWhile isWordChar := ⟨_, rfl⟩
  have hsplit : s.rest = w ++ s.rest.dropWhile isWordChar := by
    rw [hw, List.takeWhile_append_dropWhile]
  have hword : IsWord w :=
    ⟨c, _, hw.trans htext, hc, fun d hd => List.mem_takeWhile_imp hd⟩
  have hmove : s.skipWhile isWordChar = s.moved w s.line (s.column + w.length) := by
    rw [hw]
    exact advanceBy_eq_moved s _ (by rw [htext]; simp)
  have hend := head_dropWhile isWordChar s.rest
  unfold scanWord
  rw [← hw, hmove]
  dsimp only
  split
  · rename_i k hk
    obtain ⟨hmem, hspell⟩ := Kind.keyword?_eq_some hk
    have hlex : Lexeme k w .null := by
      have := Lexeme.keyword hmem
      rwa [hspell, String.toList_ofList] at this
    have hplain : ∀ k ∈ Kind.keywords, k.isWord = true ∧ k ∉ Kind.brackets := by decide
    refine ⟨w, .token k .null, _, s.line, s.column + w.length, hsplit,
      .token hlex (.of_isWord (hplain k hmem).1 hend), ?_⟩
    rw [perform_token _ _ _ (hplain k hmem).2]
  · rename_i hk
    split
    · rename_i b hb
      have hlex : Lexeme .bool w (.truth b) := by
        have := Lexeme.truth b
        rwa [← truthWord?_eq_some hb, String.toList_ofList] at this
      exact ⟨w, .token .bool (.truth b), _, _, _, hsplit, .token hlex (.of_isWord rfl hend), rfl⟩
    · rename_i hb
      exact ⟨w, .token .identifier (.text (String.ofList w)), _, _, _, hsplit,
        .token (.name hword hk hb) (.of_isWord rfl hend), rfl⟩

theorem scanNumber_reads {s : Scanner} {c : Char} {cs : List Char} (h : s.rest = c :: cs)
    (hc : c.isDigit = true) : s.ReadsItem s.scanNumber := by
  obtain ⟨w, hw⟩ : ∃ w, w = numberSpan false s.rest := ⟨_, rfl⟩
  obtain ⟨hsplit, hchars, hperiod, hend⟩ := numberSpan_spec false s.rest
  rw [← hw] at hsplit hchars hperiod hend
  obtain ⟨ds, hds⟩ : ∃ ds, w = c :: ds := by
    have hlen : 0 < w.length := by rw [hw, h]; exact length_numberSpan_pos hc false cs
    cases w with
    | nil => exact absurd hlen (by simp)
    | cons d ds =>
      rw [h] at hsplit
      exact ⟨ds, by rw [(List.cons.inj hsplit).1]⟩
  have hnumber : IsNumber w := ⟨⟨c, ds, hds, hc⟩, hchars, by simpa using hperiod⟩
  have hmove := advanceBy_eq_moved s w (by rw [hds]; simp)
  unfold scanNumber
  rw [← hw]
  dsimp only
  rw [hmove]
  split
  · rename_i x hx
    have hmax : Maximal .number w (s.rest.drop w.length) := by
      refine ⟨fun hk => absurd hk (by decide), fun _ d hd => ?_, fun hk => absurd hk (by decide)⟩
      exact ⟨(hend d hd).1, (hend d hd).2.1, (hend d hd).2.2 rfl⟩
    exact ⟨w, .token .number (.number x), _, _, _, hsplit, .token (.number hnumber hx) hmax, rfl⟩
  · rename_i hx
    exact ⟨w, .flaw (.numeral (String.ofList w)), _, _, _, hsplit, .numeral hnumber hx, rfl⟩

theorem scanString_reads {s : Scanner} {c : Char} {cs : List Char} (h : s.rest = c :: cs)
    (hc : isQuote c = true) : s.ReadsItem s.scanString := by
  obtain ⟨hsplit, hproper, hrest⟩ := splitPieces_spec cs
  unfold scanString
  rw [h]
  simp only [List.take_succ_cons, List.take_zero, List.drop_succ_cons, List.drop_zero]
  generalize splitPieces cs = body at *
  obtain ⟨pieces, rest⟩ := body
  dsimp only at hsplit hproper hrest ⊢
  rw [advance_eq_moved s c]
  obtain ⟨line, column, hfold⟩ := foldl_passPiece_moved s pieces [c] s.line (s.column + 1)
  rw [hfold]
  -- The source ends in the string, ends behind a backslash in it, or the string is closed.
  rcases hrest with rfl | rfl | ⟨d, more, rfl, hd⟩
  · refine ⟨c :: pieces.flatMap Piece.raw ++ [], .flaw .openString, [], line, column, ?_,
      .openString hc hproper (.inl rfl), ?_⟩
    · rw [h, hsplit]; simp
    · simp [perform]
  · refine ⟨c :: pieces.flatMap Piece.raw ++ ['\\'], .flaw .openString, [], line, column + 1, ?_,
      .openString hc hproper (.inr rfl), ?_⟩
    · rw [h, hsplit]; simp
    · rw [advance_eq_moved _ '\\', moved_moved]
      rfl
  · have hmax : Maximal .string (c :: pieces.flatMap Piece.raw ++ [d]) more :=
      ⟨fun hk => absurd hk (by decide), nofun, fun hk => absurd hk (by decide)⟩
    refine ⟨c :: pieces.flatMap Piece.raw ++ [d], .token .string _, more, line, column + 1, ?_,
      .token (.string hc hd hproper) hmax, ?_⟩
    · rw [h, hsplit]; simp
    · dsimp only
      rw [advance_eq_moved _ d, moved_moved, if_pos hd]
      rfl

theorem skipLine_reads {s : Scanner} {cs : List Char} (h : s.rest = '#' :: cs) :
    s.ReadsItem s.skipLine := by
  obtain ⟨body, hbody⟩ : ∃ body, body = cs.takeWhile (· != '\n') := ⟨_, rfl⟩
  have htext : s.rest.takeWhile (· != '\n') = '#' :: body := by
    rw [h, hbody, List.takeWhile_cons_of_pos (by decide)]
  refine ⟨'#' :: body, .comment, cs.dropWhile (· != '\n'), s.line,
    s.column + ('#' :: body).length, ?_, .comment ?_ ?_, ?_⟩
  · rw [h, hbody, List.cons_append, List.takeWhile_append_dropWhile]
  · intro hmem
    rw [hbody] at hmem
    exact absurd (List.mem_takeWhile_imp hmem) (by simp)
  · intro d hd
    simpa using head_dropWhile (· != '\n') cs d hd
  · rw [skipLine, skipWhile, htext]
    exact advanceBy_eq_moved s _ (by simp)

theorem accept_equal (s : Scanner) :
    s.accept "=" = if s.rest.head? = some '=' then (true, s.advance) else (false, s) := by
  have : s.peekText = "=" ↔ s.rest.head? = some '=' := by
    unfold peekText peek
    rw [← String.toList_inj, String.toList_ofList]
    cases s.rest.head? with
    | none => decide
    | some c => simp
  simp only [accept, this]

/-- Reading a symbol of one character. -/
theorem readsItem_symbol {s : Scanner} {c : Char} {cs : List Char} (h : s.rest = c :: cs)
    (k : Kind) (hk : k ∈ Kind.symbols) (hspell : k.spelling.toList = [c])
    (hmax : k ∈ Kind.extensible → cs.head? ≠ some '=') :
    s.ReadsItem (s.advance.perform [c] (.token k .null)) := by
  have hlex : Lexeme k [c] .null := hspell ▸ Lexeme.symbol hk
  refine ⟨[c], .token k .null, cs, s.line, s.column + 1, h,
    .token hlex (.of_mem_symbols hk hmax), ?_⟩
  rw [advance_eq_moved s c]

theorem addOperator_reads {s : Scanner} {c : Char} {cs : List Char} (h : s.rest = c :: cs)
    {alone withEqual : Kind} (hop : operator? c = some (alone, withEqual)) :
    s.ReadsItem (s.advance.addOperator c alone withEqual) := by
  obtain ⟨⟨hsym, hplain, hspell⟩, hsym', hext', hplain', hspell'⟩ := operator?_eq_some hop
  unfold addOperator
  rw [accept_equal, rest_advance, h, List.drop_succ_cons, List.drop_zero]
  by_cases heq : cs.head? = some '='
  · obtain ⟨more, rfl⟩ : ∃ more, cs = '=' :: more := by
      cases cs with
      | nil => cases heq
      | cons d more => cases heq; exact ⟨more, rfl⟩
    have hlex : Lexeme withEqual [c, '='] .null := hspell' ▸ Lexeme.symbol hsym'
    rw [if_pos heq]
    refine ⟨[c, '='], .token withEqual .null, more, s.line, s.column + 1 + 1, h,
      .token hlex (.of_mem_symbols hsym' fun hk => absurd hk hext'), ?_⟩
    rw [perform_token _ _ _ hplain', advance_eq_moved s c, advance_eq_moved _ '=', moved_moved]
    rfl
  · have := readsItem_symbol h alone hsym hspell fun _ => heq
    rw [perform_token _ _ _ hplain] at this
    rw [if_neg heq]
    exact this

theorem scanSymbol_reads {s : Scanner} {c : Char} {cs : List Char} (h : s.rest = c :: cs)
    (hquote : isQuote c = false) (hhash : c ≠ '#') : s.ReadsItem s.scanSymbol := by
  have hbracket : ∀ k ∈ Kind.brackets, k.spelling.toList = [c] →
      s.ReadsItem (s.advance.perform [c] (.token k .null)) := by
    intro k hk hspell
    have : ∀ k ∈ Kind.brackets, k ∈ Kind.symbols ∧ k ∉ Kind.extensible := by decide
    exact readsItem_symbol h k (this k hk).1 hspell fun hext => absurd hext (this k hk).2
  unfold scanSymbol
  rw [show s.peek = some c by rw [peek, h]; rfl]
  dsimp only
  split
  · rename_i hc
    exact hbracket .leftParen (by decide) (by rw [hc]; decide)
  split
  · rename_i hc
    exact hbracket .rightParen (by decide) (by rw [hc]; decide)
  split
  · rename_i hc
    exact hbracket .leftBracket (by decide) (by rw [hc]; decide)
  split
  · rename_i hc
    exact hbracket .rightBracket (by decide) (by rw [hc]; decide)
  split
  · rename_i k hk
    obtain ⟨hsym, hext, hplain, hspell⟩ := separator?_eq_some hk
    have := readsItem_symbol h k hsym hspell fun hk => absurd hk hext
    rwa [perform_token _ _ _ hplain] at this
  split
  · rename_i alone withEqual hop
    exact addOperator_reads h hop
  split
  · rename_i hc
    subst hc
    refine ⟨['\n'], .newline, cs, s.line, s.column + 1, h, .newline, ?_⟩
    rw [advance_eq_moved s '\n']
    rfl
  · refine ⟨[c], .flaw (.unknown (some c)), cs, s.line, s.column + 1, h, .unknown ?_, ?_⟩
    · simp only [isQuote, Bool.or_eq_false_iff, beq_eq_false_iff_ne] at hquote
      simp only [special, List.mem_cons, List.not_mem_nil, or_false, not_or]
      exact ⟨hquote.1, hquote.2, hhash, by assumption, by assumption, by assumption,
        by assumption, by assumption⟩
    · rw [advance_eq_moved s c]
      rfl

/-- **What a round reads**: an item of the lexicon. -/
theorem scanToken_reads {s : Scanner} {c : Char} {cs : List Char} (h : s.rest = c :: cs) :
    s.ReadsItem (s.scanToken c) := by
  unfold scanToken
  split
  · rename_i hc
    exact scanWord_reads h hc
  split
  · rename_i hc
    exact scanNumber_reads h hc
  split
  · rename_i hc
    exact scanString_reads h hc
  split
  · rename_i hc
    subst hc
    exact skipLine_reads h
  · rename_i hquote hhash
    exact scanSymbol_reads h (by simpa using hquote) hhash

/-! ## The layout of a line -/

/-- What the scanner remembers of the lines before. -/
def margin (s : Scanner) : Margin := ⟨s.widths, s.openBlocks⟩

/-- The scanner after a layout, apart from the report of one that is not matched. -/
def laid (s : Scanner) (l : Layout) : Scanner :=
  { s with
    emitted := (l.marks.map fun k => ⟨k, "", .null, s.tokenLine⟩).reverse ++ s.emitted
    widths := l.after.widths
    openBlocks := l.after.openBlocks }

/-- The scanner after a layout. -/
def laidOut (s : Scanner) (l : Layout) : Scanner :=
  if l.matched then s.laid l else (s.laid l).fault .indentation

theorem closeBlocks_eq (n : Nat) (s : Scanner) :
    closeBlocks n s =
      { s with
        emitted := List.replicate n ⟨.dedent, "", .null, s.tokenLine⟩ ++ s.emitted
        openBlocks := s.openBlocks - n } := by
  induction n generalizing s with
  | zero => rfl
  | succ n ih =>
    rw [closeBlocks, ih]
    have hreplicate (t : Token) : List.replicate n t ++ t :: s.emitted =
        List.replicate (n + 1) t ++ s.emitted := by
      rw [List.replicate_succ', List.append_assoc]
      rfl
    simp only [closeBlock, mark, add, hreplicate, Nat.sub_sub, Nat.add_comm 1 n]

/-- Laying a line out is the layout of its width. -/
theorem layOut_eq (s : Scanner) (width : Nat) :
    s.layOut width = s.laidOut (s.margin.layOut width) := by
  by_cases hsame : s.widths.head? = some width
  · rw [layOut, if_pos hsame, Margin.layOut, margin, if_pos hsame]
    rfl
  · obtain ⟨opened, hopened⟩ : ∃ n, n = if s.widths.headD 0 < width then 1 else 0 := ⟨_, rfl⟩
    have hopen : (if s.widths.headD 0 < width then s.openBlock else s) =
        { s with
          emitted := List.replicate opened ⟨.indent, "", .null, s.tokenLine⟩ ++ s.emitted
          openBlocks := s.openBlocks + opened } := by
      rw [hopened]
      split
      · rfl
      · rfl
    rw [layOut, if_neg hsame, Margin.layOut, margin, if_neg hsame]
    simp only [hopen, closeBlocks_eq, ← hopened]
    cases hmatched : (unwind width s.widths none (s.openBlocks + opened)).matched with
    | false => simp [laidOut, laid, fault, report]
    | true => simp [laidOut, laid, rememberWidth]

/-! ## Rounds -/

/-- Whether the cursor stands at the start of a line that has a layout. -/
def startsLine (s : Scanner) : Bool := s.atLineStart && !s.atEmptyLine && !s.nested

/-- The scanner once the line at the cursor, if it has a layout, has been laid out. -/
def begun (s : Scanner) : Scanner :=
  if s.startsLine then s.markLine.laidOut (s.margin.layOut (indentation s.rest)) else s.markLine

/-- The layout of the line at the cursor, if it has one. -/
def layouts (s : Scanner) : List Layout :=
  if s.startsLine then [s.margin.layOut (indentation s.rest)] else []

theorem mem_marks_layouts {s : Scanner} {k : Kind} (h : k ∈ s.layouts.flatMap Layout.marks) :
    k = .indent ∨ k = .dedent := by
  obtain ⟨l, hl, hk⟩ := List.mem_flatMap.mp h
  unfold layouts at hl
  split at hl
  · rw [List.mem_singleton.mp hl] at hk
    exact Margin.mem_marks hk
  · cases hl

/-- What stands in front of a line is emitted before anything of it is read. -/
theorem emitted_begun (s : Scanner) : s.begun.emitted =
    ((s.layouts.flatMap Layout.marks).map fun k => ⟨k, "", .null, s.line⟩).reverse ++
      s.emitted := by
  have hlaid (t : Scanner) (l : Layout) : (t.laidOut l).emitted = (t.laid l).emitted := by
    unfold laidOut
    split
    · rfl
    · rfl
  unfold begun layouts
  split
  · rw [hlaid, List.flatMap_singleton]
    rfl
  · rfl

theorem isInlineBlank_of_isIndentChar {c : Char} (h : isIndentChar c = true) :
    isInlineBlank c = true := by
  simp only [isIndentChar, Bool.or_eq_true, beq_iff_eq] at h
  rcases h with rfl | rfl
  · decide
  · decide

theorem dropWhile_dropWhile_of_imp {p q : Char → Bool} (h : ∀ c, q c = true → p c = true)
    (cs : List Char) : (cs.dropWhile q).dropWhile p = cs.dropWhile p := by
  induction cs with
  | nil => rfl
  | cons c cs ih =>
    by_cases hq : q c = true
    · rw [List.dropWhile_cons_of_pos hq, List.dropWhile_cons_of_pos (h c hq), ih]
    · rw [List.dropWhile_cons_of_neg hq]

/-- The scanner at another place of its source. -/
def placed (s : Scanner) (rest : List Char) (pos line column : Nat) (start : Bool) : Scanner :=
  { s with rest := rest, pos := pos, line := line, column := column, atLineStart := start }

theorem skipWhile_placed (s : Scanner) (p : Char → Bool) :
    ∃ pos column start, s.skipWhile p = s.placed (s.rest.dropWhile p) pos s.line column start := by
  refine ⟨(s.skipWhile p).pos, (s.skipWhile p).column, (s.skipWhile p).atLineStart, ?_⟩
  rw [← rest_skipWhile]
  rfl

theorem laidOut_placed (s : Scanner) (rest : List Char) (pos line column : Nat) (start : Bool)
    (l : Layout) : (s.placed rest pos line column start).laidOut l =
      (s.laidOut l).placed rest pos line column start := by
  unfold laidOut
  cases l.matched
  · rfl
  · rfl

theorem line_laidOut (s : Scanner) (l : Layout) :
    (s.laidOut l).line = s.line ∧ (s.laidOut l).tokenLine = s.tokenLine := by
  unfold laidOut
  cases l.matched
  · exact ⟨rfl, rfl⟩
  · exact ⟨rfl, rfl⟩

theorem line_begun (s : Scanner) : s.begun.line = s.line ∧ s.begun.tokenLine = s.line := by
  unfold begun
  cases s.startsLine with
  | false => exact ⟨rfl, rfl⟩
  | true => exact line_laidOut s.markLine _

/-- What comes before an item: the layout of its line, and the white space in front of it. -/
theorem beginToken_eq (s : Scanner) : ∃ pos column start,
    s.beginToken = s.begun.placed (s.rest.dropWhile isInlineBlank) pos s.line column start := by
  have hbegin : s.beginToken =
      (if s.startsLine then s.markLine.resolveIndentation else s.markLine).skipBlanks := rfl
  rw [hbegin, begun]
  cases s.startsLine with
  | false => exact skipWhile_placed s.markLine isInlineBlank
  | true =>
    obtain ⟨pos, column, start, hindent⟩ := skipWhile_placed s.markLine isIndentChar
    have hlaid : s.markLine.resolveIndentation =
        (s.markLine.laidOut (s.margin.layOut (indentation s.rest))).placed
          (s.rest.dropWhile isIndentChar) pos s.line column start := by
      rw [resolveIndentation, hindent, layOut_eq, laidOut_placed]
      rfl
    obtain ⟨pos', column', start', hblank⟩ :=
      skipWhile_placed s.markLine.resolveIndentation isInlineBlank
    refine ⟨pos', column', start', ?_⟩
    show s.markLine.resolveIndentation.skipWhile isInlineBlank = _
    rw [hblank, rest_resolveIndentation, hlaid]
    show Scanner.placed _ ((s.rest.dropWhile isIndentChar).dropWhile isInlineBlank) _ _ _ _ = _
    rw [dropWhile_dropWhile_of_imp fun c => isInlineBlank_of_isIndentChar]
    rfl

theorem markLine_eq_self {s : Scanner} (h : s.tokenLine = s.line) : s.markLine = s := by
  cases s
  cases h
  rfl

theorem rest_beginToken (s : Scanner) : s.beginToken.rest = s.rest.dropWhile isInlineBlank := by
  obtain ⟨pos, column, start, hbegin⟩ := beginToken_eq s
  rw [hbegin]
  rfl

theorem markLine_beginToken (s : Scanner) : s.beginToken.markLine = s.beginToken := by
  obtain ⟨pos, column, start, hbegin⟩ := beginToken_eq s
  have hline : s.beginToken.tokenLine = s.beginToken.line := by
    rw [hbegin]
    exact (line_begun s).2
  exact markLine_eq_self hline

/-- The place behind a text that is passed once a round has begun. -/
theorem moved_beginToken (s : Scanner) (text : List Char) (line column : Nat) :
    ∃ pos, s.beginToken.moved text line column =
      s.begun.placed (s.beginToken.rest.drop text.length) pos line column false := by
  obtain ⟨pos, column', start, hbegin⟩ := beginToken_eq s
  refine ⟨pos + text.length, ?_⟩
  rw [hbegin]
  rfl

/-- One round of the loop. -/
def round (s : Scanner) : Scanner :=
  match s.beginToken.rest with
  | [] => s.beginToken
  | c :: _ => s.beginToken.markLine.scanToken c

theorem round_of_nil {s : Scanner} (h : s.beginToken.rest = []) : s.round = s.beginToken := by
  rw [round, h]

/-- **What a round does.** It lays a new line out and passes white space. If anything is left it
reads an item, and performs it at the place behind it. -/
theorem round_cases (s : Scanner) :
    (∃ pos column start, (∀ c ∈ s.rest, isInlineBlank c = true) ∧
      s.round = s.begun.placed [] pos s.line column start) ∨
    ∃ blanks text item rest pos line column, s.rest = blanks ++ (text ++ rest) ∧
      (∀ c ∈ blanks, isInlineBlank c = true) ∧ (∀ c ∈ text.head?, isInlineBlank c = false) ∧
      Reads text item rest ∧
      s.round = (s.begun.placed rest pos line column false).perform text item := by
  have hrest := rest_beginToken s
  cases hleft : s.rest.dropWhile isInlineBlank with
  | nil =>
    obtain ⟨pos, column, start, hbegin⟩ := beginToken_eq s
    refine .inl ⟨pos, column, start, ?_, ?_⟩
    · simpa using hleft
    · rw [round_of_nil (by rw [hrest, hleft]), hbegin, hleft]
  | cons c cs =>
    have hround : s.round = s.beginToken.scanToken c := by
      rw [round, hrest, hleft, markLine_beginToken]
    obtain ⟨text, item, rest, line, column', hsplit, hreads, hperform⟩ :=
      scanToken_reads (s := s.beginToken) (hrest.trans hleft)
    obtain ⟨pos, hmoved⟩ := moved_beginToken s text line column'
    refine .inr ⟨s.rest.takeWhile isInlineBlank, text, item, rest, pos, line, column', ?_,
      fun c hc => List.mem_takeWhile_imp hc, ?_, hreads, ?_⟩
    · rw [← hsplit, hrest, List.takeWhile_append_dropWhile]
    · intro d hd
      refine head_dropWhile isInlineBlank s.rest d ?_
      rw [← hrest, hsplit, List.head?_append, Option.mem_def.mp hd]
      rfl
    · rw [hround, hperform, hmoved, hsplit, List.drop_left]

theorem length_rest_round_lt {s : Scanner} (h : s.rest ≠ []) :
    s.round.rest.length < s.rest.length := by
  have hpos := List.length_pos_iff.mpr h
  have hbegin := length_rest_beginToken_le s
  unfold round
  cases hrest : s.beginToken.rest with
  | nil => simpa [hrest] using hpos
  | cons c cs =>
    have : (s.beginToken.markLine.scanToken c).rest.length < s.beginToken.rest.length :=
      length_rest_scanToken_lt (s := s.beginToken.markLine) hrest
    show (s.beginToken.markLine.scanToken c).rest.length < s.rest.length
    omega

theorem scanAll_of_nil {s : Scanner} (h : s.rest = []) : s.scanAll = s := by
  rw [scanAll, h]
  rfl

/-- **The loop is one round after the other.** -/
theorem scanAll_of_ne_nil {s : Scanner} (h : s.rest ≠ []) : s.scanAll = s.round.scanAll := by
  rw [scanAll, if_neg (by simpa using h)]
  dsimp only
  split
  · rename_i hrest
    rw [round_of_nil hrest, scanAll_of_nil hrest]
  · rename_i hrest
    rw [round, hrest]

/-- Induction over the rounds of the loop, from the last one back. -/
theorem rounds_induction {motive : Scanner → Prop} (ended : ∀ s, s.rest = [] → motive s)
    (next : ∀ s, s.rest ≠ [] → motive s.round → motive s) (s : Scanner) : motive s := by
  by_cases h : s.rest = []
  · exact ended s h
  · exact next s h (rounds_induction ended next s.round)
termination_by s.rest.length
decreasing_by exact length_rest_round_lt h

theorem rest_scanAll (s : Scanner) : s.scanAll.rest = [] := by
  induction s using rounds_induction with
  | ended s hrest => rw [scanAll_of_nil hrest, hrest]
  | next s hrest ih => rw [scanAll_of_ne_nil hrest, ih]

end Scanner

end Scriptlet
