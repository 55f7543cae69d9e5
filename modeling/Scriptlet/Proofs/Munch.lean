import Scriptlet.Proofs.Record

/-!
# What is read depends on the text

The scanner has no choice in what it reads next: the text behind the blanks settles it, whatever the
scanner has seen before.

* `Takes`: an item at the start of a text, with nothing left to choose. `exists_takes`: every text
  starts with one.
* `Takes.scanToken_eq`, `Takes.round_eq`: the scanner reads it and nothing else.
* `Takes.of_bounded`: what stands behind an item does not matter if white space or a comment comes
  next.
-/

namespace Scriptlet

/-! ## Characters -/

/-- The code points of ranges, one by one. -/
def Text.Ranges.codes (ranges : Ranges) : List Nat :=
  ranges.flatMap fun range => List.range' range.1 (range.2 + 1 - range.1)

theorem Text.Ranges.mem_codes {ranges : Ranges} {n : Nat} (h : ranges.covers n = true) :
    n ∈ ranges.codes := by
  induction ranges with
  | nil => cases h
  | cons range ranges ih =>
    obtain ⟨lo, hi⟩ := range
    rw [codes, List.flatMap_cons, List.mem_append]
    rw [covers] at h
    split at h
    · cases h
    split at h
    · left
      rw [List.mem_range'_1]
      omega
    · exact .inr (ih h)

/-- White space goes on no word. -/
theorem isWordChar_of_isBlank {c : Char} (h : Text.isBlank c = true) : isWordChar c = false := by
  have hcodes : Text.blankRanges.codes.all (fun n =>
      !Text.letterRanges.covers n && !Text.numericRanges.covers n && n != '_'.toNat) = true := by
    decide +kernel
  have hcode := List.all_eq_true.mp hcodes _ (Text.Ranges.mem_codes h)
  simp only [Bool.and_eq_true, Bool.not_eq_true', bne_iff_ne] at hcode
  have hne : c ≠ '_' := fun heq => hcode.2 (congrArg Char.toNat heq)
  simp [isWordChar, Text.isAlphanumeric, Text.isAlphabetic, hcode.1.1, hcode.1.2, hne]

theorem toNat_of_isDigit {c : Char} (h : c.isDigit = true) : c.toNat ∈ List.range' 48 10 := by
  simp only [Char.isDigit, Bool.and_eq_true, decide_eq_true_eq, ge_iff_le, UInt32.le_iff_toNat_le]
    at h
  rw [List.mem_range'_1]
  exact ⟨h.1, Nat.lt_succ_of_le h.2⟩

/-- A digit goes on a word but starts none. -/
theorem isWordStart_of_isDigit {c : Char} (h : c.isDigit = true) :
    isWordStart c = false ∧ isWordChar c = true := by
  have hcodes : (List.range' 48 10).all (fun n =>
      !Text.letterRanges.covers n && Text.numericRanges.covers n && n != '_'.toNat) = true := by
    decide +kernel
  have hcode := List.all_eq_true.mp hcodes _ (toNat_of_isDigit h)
  simp only [Bool.and_eq_true, Bool.not_eq_true', bne_iff_ne] at hcode
  have hne : c ≠ '_' := fun heq => hcode.2 (congrArg Char.toNat heq)
  simp [isWordStart, isWordChar, Text.isAlphanumeric, Text.isAlphabetic, hcode.1.1, hcode.1.2, hne]

/-! ## Texts -/

/-- What satisfies a condition is passed up to a character that does not. -/
theorem takeWhile_append_of_head {q : Char → Bool} {text rest : List Char}
    (htext : ∀ c ∈ text, q c = true) (hend : ∀ c ∈ rest.head?, q c = false) :
    (text ++ rest).takeWhile q = text := by
  have hrest : rest.takeWhile q = [] := by
    cases rest with
    | nil => rfl
    | cons c cs => exact List.takeWhile_cons_of_neg (by simp [hend c rfl])
  rw [List.takeWhile_append_of_pos htext, hrest, List.append_nil]

/-- A number that nothing goes on is taken as a whole. The flag is as for `numberSpan`. -/
theorem numberSpan_append {metPeriod : Bool} {text rest : List Char}
    (hchars : ∀ d ∈ text, d.isDigit = true ∨ d = '_' ∨ d = '.')
    (hperiod : text.count '.' ≤ if metPeriod then 0 else 1)
    (hend : ∀ c ∈ rest.head?, c.isDigit = false ∧ c ≠ '_' ∧
      (metPeriod = false → '.' ∉ text → c ≠ '.')) :
    numberSpan metPeriod (text ++ rest) = text := by
  induction text generalizing metPeriod with
  | nil =>
    cases rest with
    | nil => rfl
    | cons c cs =>
      obtain ⟨hdigit, hunder, hdot⟩ := hend c rfl
      have hfirst : ¬ (decide (c = '.') && !metPeriod) = true := by
        simp only [Bool.and_eq_true, decide_eq_true_eq, Bool.not_eq_true', not_and]
        exact fun hc hmet => hdot hmet (by simp) hc
      rw [List.nil_append, numberSpan, if_neg hfirst, if_neg (by simp [hdigit, hunder])]
  | cons d ds ih =>
    have hds : ∀ e ∈ ds, e.isDigit = true ∨ e = '_' ∨ e = '.' :=
      fun e he => hchars e (List.mem_cons_of_mem d he)
    rw [List.cons_append, numberSpan]
    by_cases hdot : d = '.'
    · subst hdot
      rw [List.count_cons_self] at hperiod
      obtain rfl : metPeriod = false := by
        cases metPeriod with
        | false => rfl
        | true => exact absurd hperiod (by simp)
      have hnone : ds.count '.' ≤ 0 := by simpa using hperiod
      have htail : numberSpan true (ds ++ rest) = ds := ih hds hnone fun c hc =>
        ⟨(hend c hc).1, (hend c hc).2.1, fun hmet => by cases hmet⟩
      rw [if_pos (by rfl), htail]
    · have hfirst : ¬ (decide (d = '.') && !metPeriod) = true := by simp [hdot]
      have hgoes : (d.isDigit || d == '_') = true := by
        rcases hchars d List.mem_cons_self with h | h | h
        · simp [h]
        · simp [h]
        · exact absurd h hdot
      rw [List.count_cons_of_ne hdot] at hperiod
      have htail := ih hds hperiod fun c hc =>
        ⟨(hend c hc).1, (hend c hc).2.1, fun hmet hnot => (hend c hc).2.2 hmet (by
          simpa [hnot] using Ne.symm hdot)⟩
      rw [if_neg hfirst, if_pos hgoes, htail]

/-- Pieces are split up to where nothing more can be split. -/
theorem splitPieces_pieces {pieces : List Piece} (hproper : ∀ p ∈ pieces, p.Proper)
    {rest : List Char} (hrest : splitPieces rest = ([], rest)) :
    splitPieces (pieces.flatMap Piece.raw ++ rest) = (pieces, rest) := by
  induction pieces with
  | nil => exact hrest
  | cons p ps ih =>
    have htail := ih fun q hq => hproper q (List.mem_cons_of_mem p hq)
    have hp := hproper p List.mem_cons_self
    rw [List.flatMap_cons, List.append_assoc]
    generalize ps.flatMap Piece.raw ++ rest = tail at htail ⊢
    cases p with
    | plain c =>
      obtain ⟨hquote, hslash⟩ := hp
      cases tail with
      | nil =>
        cases htail
        simp [Piece.raw, splitPieces, hquote, hslash]
      | cons d ds => simp [Piece.raw, splitPieces, hquote, hslash, htail]
    | escape c =>
      have hquote : isQuote '\\' = false := by decide
      simp [Piece.raw, splitPieces, hquote, htail]

theorem splitPieces_of_isQuote {c : Char} (h : isQuote c = true) (rest : List Char) :
    splitPieces (c :: rest) = ([], c :: rest) := by
  cases rest with
  | nil => simp [splitPieces, h]
  | cons d ds => simp [splitPieces, h]

/-! ## Items -/

/-- Whether a word, a number, a separator or an operator starts with the character. -/
def startsToken (c : Char) : Bool :=
  isWordStart c || c.isDigit || (separator? c).isSome || (operator? c).isSome

/-- `Takes text item rest`: the item is what the scanner reads from the text `text ++ rest`. Where
`Reads` leaves a choice it is made here: a numeral without a value is as long as it can be, and an
unknown character starts no token. -/
structure Takes (text : List Char) (item : Item) (rest : List Char) : Prop where
  reads : Reads text item rest
  numeral : ∀ w, item = .flaw (.numeral w) → Maximal .number text rest
  unknown : ∀ c, item = .flaw (.unknown (some c)) → startsToken c = false

theorem Takes.of_reads {text rest : List Char} {item : Item} (h : Reads text item rest)
    (hflaw : ∀ f, item ≠ .flaw f) : Takes text item rest :=
  ⟨h, fun _ he => absurd he (hflaw _), fun _ he => absurd he (hflaw _)⟩

theorem Takes.of_lexeme {k : Kind} {text rest : List Char} {p : Document} (h : Lexeme k text p)
    (hmax : Maximal k text rest) : Takes text (.token k p) rest :=
  .of_reads (.token h hmax) fun _ he => by cases he

theorem IsWord.all {w : List Char} (h : IsWord w) : ∀ c ∈ w, isWordChar c = true := by
  obtain ⟨c, cs, rfl, hstart, hgoes⟩ := h
  exact List.forall_mem_cons.mpr ⟨Scanner.isWordChar_of_isWordStart hstart, hgoes⟩

/-- Every word is a lexeme. -/
theorem IsWord.exists_lexeme {w : List Char} (h : IsWord w) :
    ∃ k p, k.isWord = true ∧ Lexeme k w p := by
  cases hk : Kind.keyword? (String.ofList w) with
  | some k =>
    obtain ⟨hmem, hspell⟩ := Kind.keyword?_eq_some hk
    have hword : ∀ k ∈ Kind.keywords, k.isWord = true := by decide
    have hlexeme := Lexeme.keyword hmem
    rw [hspell, String.toList_ofList] at hlexeme
    exact ⟨k, .null, hword k hmem, hlexeme⟩
  | none =>
    cases hb : truthWord? (String.ofList w) with
    | some b =>
      have hlexeme := Lexeme.truth b
      rw [← truthWord?_eq_some hb, String.toList_ofList] at hlexeme
      exact ⟨.bool, .truth b, rfl, hlexeme⟩
    | none => exact ⟨.identifier, _, rfl, .name h hk hb⟩

/-- The lexemes of words are words. -/
theorem Lexeme.isWord {k : Kind} {w : List Char} {p : Document} (h : Lexeme k w p)
    (hk : k.isWord = true) : IsWord w := by
  have hspelling : ∀ w : List Char, w.head?.any isWordStart && w.all isWordChar → IsWord w := by
    intro w hw
    cases w with
    | nil => cases hw
    | cons c cs =>
      simp only [List.head?_cons, Option.any_some, List.all_cons, Bool.and_eq_true,
        List.all_eq_true] at hw
      exact ⟨c, cs, rfl, hw.1, hw.2.2⟩
  cases h with
  | keyword hmem =>
    have hall : ∀ k ∈ Kind.keywords,
        k.spelling.toList.head?.any isWordStart && k.spelling.toList.all isWordChar := by
      decide +kernel
    exact hspelling _ (hall k hmem)
  | truth b => cases b <;> exact hspelling _ (by decide +kernel)
  | name hword => exact hword
  | number => cases hk
  | string => cases hk
  | symbol hmem =>
    have hsymbol : ∀ k ∈ Kind.symbols, k.isWord = false := by decide
    rw [hsymbol k hmem] at hk
    cases hk

theorem takes_word {c : Char} (hc : isWordStart c = true) (cs : List Char) :
    ∃ text item rest, c :: cs = text ++ rest ∧ Takes text item rest := by
  have hall : ∀ d ∈ cs.takeWhile isWordChar, isWordChar d = true :=
    fun d hd => List.mem_takeWhile_imp hd
  obtain ⟨k, p, hk, hlexeme⟩ := IsWord.exists_lexeme ⟨c, _, rfl, hc, hall⟩
  refine ⟨_, .token k p, cs.dropWhile isWordChar, ?_,
    .of_lexeme hlexeme (.of_isWord hk (Scanner.head_dropWhile isWordChar cs))⟩
  rw [List.cons_append, List.takeWhile_append_dropWhile]

/-- The longest number is taken, whether it has a value or not. -/
theorem takes_number {c : Char} (hc : c.isDigit = true) (cs : List Char) :
    ∃ text item rest, c :: cs = text ++ rest ∧ Takes text item rest := by
  obtain ⟨hsplit, hchars, hperiod, hend⟩ := numberSpan_spec false (c :: cs)
  have hlength := Scanner.length_numberSpan_pos hc false cs
  generalize numberSpan false (c :: cs) = w at hsplit hchars hperiod hend hlength
  have hnumber : IsNumber w := by
    refine ⟨?_, hchars, by simpa using hperiod⟩
    obtain ⟨d, ds, rfl⟩ := List.exists_cons_of_ne_nil (List.length_pos_iff.mp hlength)
    exact ⟨d, ds, rfl, (List.cons.inj hsplit).1 ▸ hc⟩
  have hmax : Maximal .number w ((c :: cs).drop w.length) :=
    ⟨fun hk => absurd hk (by decide), fun _ d hd =>
      ⟨(hend d hd).1, (hend d hd).2.1, (hend d hd).2.2 rfl⟩, fun hk => absurd hk (by decide)⟩
  cases hx : Number.readChars? w with
  | some x => exact ⟨w, _, _, hsplit, .of_lexeme (.number hnumber hx) hmax⟩
  | none =>
    exact ⟨w, _, _, hsplit, .numeral hnumber hx, fun _ _ => hmax, fun _ he => by cases he⟩

theorem takes_operator {c : Char} {alone withEqual : Kind}
    (hc : operator? c = some (alone, withEqual)) (cs : List Char) :
    ∃ text item rest, c :: cs = text ++ rest ∧ Takes text item rest := by
  obtain ⟨⟨hsymbol, -, hspell⟩, hsymbol', hext', -, hspell'⟩ := operator?_eq_some hc
  by_cases heq : cs.head? = some '='
  · obtain ⟨more, rfl⟩ := List.head?_eq_some_iff.mp heq
    have hlexeme : Lexeme withEqual [c, '='] .null := hspell' ▸ .symbol hsymbol'
    exact ⟨[c, '='], _, more, rfl,
      .of_lexeme hlexeme (.of_mem_symbols hsymbol' fun hk => absurd hk hext')⟩
  · have hlexeme : Lexeme alone [c] .null := hspell ▸ .symbol hsymbol
    exact ⟨[c], _, cs, rfl, .of_lexeme hlexeme (.of_mem_symbols hsymbol fun _ => heq)⟩

/-- **Every text starts with an item.** -/
theorem exists_takes {cs : List Char} (h : cs ≠ []) :
    ∃ text item rest, cs = text ++ rest ∧ Takes text item rest := by
  obtain ⟨c, cs, rfl⟩ := List.exists_cons_of_ne_nil h
  by_cases hword : isWordStart c = true
  · exact takes_word hword cs
  by_cases hdigit : c.isDigit = true
  · exact takes_number hdigit cs
  cases hseparator : separator? c with
  | some k =>
    obtain ⟨hsymbol, hext, -, hspell⟩ := separator?_eq_some hseparator
    have hlexeme : Lexeme k [c] .null := hspell ▸ .symbol hsymbol
    exact ⟨[c], _, cs, rfl, .of_lexeme hlexeme (.of_mem_symbols hsymbol fun hk => absurd hk hext)⟩
  | none =>
    cases hoperator : operator? c with
    | some pair => exact takes_operator hoperator cs
    | none =>
      -- no numeral starts here, and nothing else that an unknown character could be
      obtain ⟨text, item, rest, -, -, hsplit, hreads, -⟩ :=
        Scanner.scanToken_reads (s := Scanner.ofChars (c :: cs) {}) rfl
      have hsplit : c :: cs = text ++ rest := hsplit
      refine ⟨text, item, rest, hsplit, hreads, ?_, ?_⟩
      · rintro w rfl
        cases hreads with
        | numeral hnumber =>
          obtain ⟨d, ds, rfl, hd⟩ := hnumber.1
          rw [← (List.cons.inj hsplit).1] at hd
          exact absurd hd hdigit
      · rintro d rfl
        cases hreads with
        | unknown =>
          rw [← (List.cons.inj hsplit).1]
          simp [startsToken, hword, hdigit, hseparator, hoperator]

namespace Scanner

variable {s : Scanner} {text rest : List Char}

/-! ## Reading -/

theorem scanToken_word {k : Kind} {p : Document} (hlexeme : Lexeme k text p)
    (hk : k.isWord = true) (hend : ∀ c ∈ rest.head?, isWordChar c = false)
    (hrest : s.rest = text ++ rest) {c : Char} (hc : c ∈ text.head?) :
    s.scanToken c =
      (s.moved text s.line (s.column + text.length)).perform text (.token k p) := by
  have hword := hlexeme.isWord hk
  have hstart : isWordStart c = true := by
    obtain ⟨d, ds, rfl, hd, -⟩ := hword
    cases hc
    exact hd
  have htake : s.rest.takeWhile isWordChar = text := by
    rw [hrest, takeWhile_append_of_head hword.all hend]
  have hmove : s.skipWhile isWordChar = s.moved text s.line (s.column + text.length) := by
    rw [skipWhile, htake, advanceBy_eq_moved s text hlexeme.text_ne_nil]
  have hplain : ∀ k : Kind, k.isWord = true → k ∉ Kind.brackets := by
    intro k
    cases k <;> decide
  rw [scanToken, if_pos hstart, scanWord, htake, hmove, perform_token _ _ _ (hplain k hk)]
  cases hlexeme with
  | keyword hmem =>
    have hkeyword : ∀ k ∈ Kind.keywords, Kind.keyword? k.spelling = some k := by decide
    simp only [String.ofList_toList, hkeyword k hmem]
  | truth b =>
    cases b with
    | true =>
      have hnone : Kind.keyword? "true" = none := by decide
      simp [hnone, truthWord?]
    | false =>
      have hnone : Kind.keyword? "false" = none := by decide
      simp [hnone, truthWord?]
  | name _ hnone htruth => simp only [hnone, htruth]
  | number => cases hk
  | string => cases hk
  | symbol hmem =>
    have hsymbol : ∀ k ∈ Kind.symbols, k.isWord = false := by decide
    rw [hsymbol k hmem] at hk
    cases hk

/-- A number that nothing goes on is what the scanner passes. -/
theorem scanToken_number (hnumber : IsNumber text) (hmax : Maximal .number text rest)
    (hrest : s.rest = text ++ rest) {c : Char} (hc : c ∈ text.head?) :
    s.scanToken c = s.scanNumber ∧ numberSpan false s.rest = text ∧
      s.advanceBy text.length = s.moved text s.line (s.column + text.length) := by
  have hdigit : c.isDigit = true := by
    obtain ⟨d, ds, rfl, hd⟩ := hnumber.1
    cases hc
    exact hd
  have hne : text ≠ [] := by
    rintro rfl
    cases hc
  refine ⟨?_, ?_, advanceBy_eq_moved s text hne⟩
  · rw [scanToken, if_neg (by simp [(isWordStart_of_isDigit hdigit).1]), if_pos hdigit]
  · rw [hrest]
    refine numberSpan_append hnumber.2.1 (by simpa using hnumber.2.2) fun d hd => ?_
    obtain ⟨h1, h2, h3⟩ := hmax.number rfl d hd
    exact ⟨h1, h2, fun _ => h3⟩

theorem scanToken_quote {c : Char} (h : isQuote c = true) : s.scanToken c = s.scanString := by
  simp only [isQuote, Bool.or_eq_true, beq_iff_eq] at h
  rcases h with rfl | rfl
  · rfl
  · rfl

theorem scanToken_string {opening closing : Char} {pieces : List Piece}
    (hopening : isQuote opening = true) (hclosing : isQuote closing = true)
    (hproper : ∀ p ∈ pieces, p.Proper)
    (hrest : s.rest = opening :: pieces.flatMap Piece.raw ++ [closing] ++ rest) :
    ∃ line column, s.scanToken opening =
      (s.moved (opening :: pieces.flatMap Piece.raw ++ [closing]) line column).perform
        (opening :: pieces.flatMap Piece.raw ++ [closing])
        (.token .string (.text (String.ofList (pieces.flatMap Piece.value)))) := by
  have hsplit : splitPieces (pieces.flatMap Piece.raw ++ closing :: rest) =
      (pieces, closing :: rest) :=
    splitPieces_pieces hproper (splitPieces_of_isQuote hclosing rest)
  rw [List.append_assoc, List.singleton_append, List.cons_append] at hrest
  obtain ⟨line, column, hfold⟩ :=
    foldl_passPiece_moved s pieces [opening] s.line (s.column + 1)
  refine ⟨line, column + 1, ?_⟩
  rw [scanToken_quote hopening, scanString, hrest]
  simp only [List.take_succ_cons, List.take_zero, List.drop_succ_cons, List.drop_zero, hsplit]
  rw [advance_eq_moved s opening, hfold, if_pos hclosing, advance_eq_moved _ closing, moved_moved]
  rfl

theorem scanToken_openString {opening : Char} {pieces : List Piece} {tail : List Char}
    (hopening : isQuote opening = true) (hproper : ∀ p ∈ pieces, p.Proper)
    (htail : tail = [] ∨ tail = ['\\'])
    (hrest : s.rest = opening :: pieces.flatMap Piece.raw ++ tail) :
    ∃ line column, s.scanToken opening =
      (s.moved (opening :: pieces.flatMap Piece.raw ++ tail) line column).perform
        (opening :: pieces.flatMap Piece.raw ++ tail) (.flaw .openString) := by
  have hsplit : splitPieces (pieces.flatMap Piece.raw ++ tail) = (pieces, tail) := by
    refine splitPieces_pieces hproper ?_
    rcases htail with rfl | rfl
    · rfl
    · rfl
  rw [List.cons_append] at hrest
  obtain ⟨line, column, hfold⟩ :=
    foldl_passPiece_moved s pieces [opening] s.line (s.column + 1)
  rw [scanToken_quote hopening, scanString, hrest]
  simp only [List.take_succ_cons, List.take_zero, List.drop_succ_cons, List.drop_zero, hsplit]
  rw [advance_eq_moved s opening, hfold]
  rcases htail with rfl | rfl
  · refine ⟨line, column, ?_⟩
    rw [List.append_nil]
    rfl
  · refine ⟨line, column + 1, ?_⟩
    dsimp only
    rw [advance_eq_moved _ '\\', moved_moved]
    rfl

theorem scanToken_comment {body : List Char} (hbody : '\n' ∉ body)
    (hend : ∀ c ∈ rest.head?, c = '\n') (hrest : s.rest = '#' :: body ++ rest) :
    s.scanToken '#' = s.moved ('#' :: body) s.line (s.column + ('#' :: body).length) := by
  have htext : ∀ c ∈ '#' :: body, (c != '\n') = true := by
    refine List.forall_mem_cons.mpr ⟨by decide, fun c hc => ?_⟩
    rw [bne_iff_ne]
    rintro rfl
    exact hbody hc
  have htake : s.rest.takeWhile (· != '\n') = '#' :: body := by
    rw [hrest]
    exact takeWhile_append_of_head htext fun c hc => by rw [hend c hc]; rfl
  have hscan : s.scanToken '#' = s.skipLine := rfl
  rw [hscan, skipLine, skipWhile, htake]
  exact advanceBy_eq_moved s _ (by simp)

/-! ### Symbols -/

/-- Characters of symbols, and the line end. -/
def symbolChars : List Char :=
  ['(', ')', '[', ']', ',', '.', ':', '+', '-', '*', '/', '%', '^', '!', '=', '>', '<', '\n']

theorem scanToken_of_mem {c : Char} (h : c ∈ symbolChars) : s.scanToken c = s.scanSymbol := by
  have hall : symbolChars.all (fun c =>
      !isWordStart c && !c.isDigit && !isQuote c && c != '#') = true := by decide +kernel
  have hc := List.all_eq_true.mp hall c h
  simp only [Bool.and_eq_true, Bool.not_eq_true', bne_iff_ne] at hc
  obtain ⟨⟨⟨hword, hdigit⟩, hquote⟩, hhash⟩ := hc
  rw [scanToken, if_neg (by simp [hword]), if_neg (by simp [hdigit]), if_neg (by simp [hquote]),
    if_neg hhash]

theorem scanToken_bracket {k : Kind} (hk : k ∈ Kind.brackets)
    (hrest : s.rest = k.spelling.toList ++ rest) {c : Char} (hc : c ∈ k.spelling.toList.head?) :
    s.scanToken c = s.advance.perform k.spelling.toList (.token k .null) := by
  have hpeek : s.peek = some c := by
    rw [peek, hrest, List.head?_append, Option.mem_def.mp hc]
    rfl
  simp only [Kind.brackets, List.mem_cons, List.not_mem_nil, or_false] at hk
  rcases hk with rfl | rfl | rfl | rfl
  all_goals
    cases hc
    rw [scanToken_of_mem (by decide), scanSymbol, hpeek]
    rfl

/-- Separators and operators are read by their tables. -/
theorem scanToken_separator {c : Char} {k : Kind} (hc : separator? c = some k)
    (hrest : s.rest = c :: rest) : s.scanToken c = s.advance.add k (String.ofList [c]) .null := by
  have hpeek : s.peek = some c := by rw [peek, hrest]; rfl
  have hmem : c ∈ [',', '.', ':'] := by
    by_contra hne
    simp only [List.mem_cons, List.not_mem_nil, or_false, not_or] at hne
    simp [separator?, hne] at hc
  simp only [List.mem_cons, List.not_mem_nil, or_false] at hmem
  rcases hmem with rfl | rfl | rfl
  all_goals
    cases hc
    rw [scanToken_of_mem (by decide), scanSymbol, hpeek]
    rfl

theorem scanToken_operator {c : Char} {alone withEqual : Kind}
    (hc : operator? c = some (alone, withEqual)) (hrest : s.rest = c :: rest) :
    s.scanToken c = s.advance.addOperator c alone withEqual := by
  have hpeek : s.peek = some c := by rw [peek, hrest]; rfl
  have hmem : c ∈ ['+', '-', '*', '/', '%', '^', '!', '=', '>', '<'] := by
    by_contra hne
    simp only [List.mem_cons, List.not_mem_nil, or_false, not_or] at hne
    simp [operator?, hne] at hc
  simp only [List.mem_cons, List.not_mem_nil, or_false] at hmem
  rcases hmem with rfl | rfl | rfl | rfl | rfl | rfl | rfl | rfl | rfl | rfl
  all_goals
    cases hc
    rw [scanToken_of_mem (by decide), scanSymbol, hpeek]
    rfl

theorem scanToken_newline (hrest : s.rest = '\n' :: rest) :
    s.scanToken '\n' = s.advance.endLine := by
  have hpeek : s.peek = some '\n' := by rw [peek, hrest]; rfl
  rw [scanToken_of_mem (by decide), scanSymbol, hpeek]
  rfl

theorem scanToken_unknown {c : Char} (hspecial : c ∉ special) (hstarts : startsToken c = false)
    (hrest : s.rest = c :: rest) : s.scanToken c = s.advance.fault (.unknown (some c)) := by
  have hpeek : s.peek = some c := by rw [peek, hrest]; rfl
  simp only [startsToken, Bool.or_eq_false_iff, Option.isSome_eq_false_iff,
    Option.isNone_iff_eq_none] at hstarts
  obtain ⟨⟨⟨hword, hdigit⟩, hseparator⟩, hoperator⟩ := hstarts
  simp only [special, List.mem_cons, List.not_mem_nil, or_false, not_or] at hspecial
  obtain ⟨hdouble, hsingle, hhash, hnewline, hparen, hparen', hbracket, hbracket'⟩ := hspecial
  simp [scanToken, hword, hdigit, isQuote, hdouble, hsingle, hhash, scanSymbol, hpeek, hparen,
    hparen', hbracket, hbracket', hseparator, hoperator, hnewline]

end Scanner

/-- A symbol is a bracket, a separator or an operator, the last with or without `=`. -/
theorem Kind.symbols_cases {k : Kind} (h : k ∈ Kind.symbols) :
    k ∈ Kind.brackets ∨ (∃ c, separator? c = some k ∧ k.spelling.toList = [c]) ∨
      (∃ c other, operator? c = some (k, other) ∧ k ∈ Kind.extensible ∧
        k.spelling.toList = [c]) ∨
      ∃ c other, operator? c = some (other, k) ∧ k.spelling.toList = [c, '='] := by
  have hall : Kind.symbols.all (fun k => Kind.brackets.contains k ||
      k.spelling.toList.head?.any fun c =>
        (separator? c == some k && k.spelling.toList == [c]) ||
        (operator? c).any fun pair =>
          (pair.1 == k && Kind.extensible.contains k && k.spelling.toList == [c]) ||
          (pair.2 == k && k.spelling.toList == [c, '='])) = true := by
    decide
  have hk := List.all_eq_true.mp hall k h
  simp only [Bool.or_eq_true, Option.any_eq_true, Bool.and_eq_true, beq_iff_eq,
    List.contains_iff_mem] at hk
  rcases hk with hbracket | ⟨c, -, ⟨hseparator, hspell⟩ | ⟨⟨alone, withEqual⟩, hoperator,
    ⟨⟨rfl, hext⟩, hspell⟩ | ⟨rfl, hspell⟩⟩⟩
  · exact .inl hbracket
  · exact .inr (.inl ⟨c, hseparator, hspell⟩)
  · exact .inr (.inr (.inl ⟨c, withEqual, hoperator, hext, hspell⟩))
  · exact .inr (.inr (.inr ⟨c, alone, hoperator, hspell⟩))

namespace Scanner

variable {s : Scanner} {text rest : List Char}

theorem scanToken_symbol {k : Kind} (hk : k ∈ Kind.symbols)
    (hext : k ∈ Kind.extensible → rest.head? ≠ some '=')
    (hrest : s.rest = k.spelling.toList ++ rest) {c : Char} (hc : c ∈ k.spelling.toList.head?) :
    ∃ line column, s.scanToken c =
      (s.moved k.spelling.toList line column).perform k.spelling.toList (.token k .null) := by
  have hone {d : Char} (hd : k.spelling.toList = [d]) :
      s.advance = s.moved k.spelling.toList s.line (s.column + 1) := by
    rw [hd]
    exact advance_eq_moved s d
  rcases Kind.symbols_cases hk with hbracket | ⟨d, hseparator, hspell⟩ |
    ⟨d, other, hoperator, hmem, hspell⟩ | ⟨d, other, hoperator, hspell⟩
  · have hlength : ∀ k ∈ Kind.brackets, k.spelling.toList.length = 1 := by decide
    obtain ⟨d, hd⟩ := List.length_eq_one_iff.mp (hlength k hbracket)
    exact ⟨s.line, s.column + 1, by rw [scanToken_bracket hbracket hrest hc, hone hd]⟩
  · rw [hspell] at hc hrest
    cases hc
    obtain ⟨-, -, hplain, -⟩ := separator?_eq_some hseparator
    refine ⟨s.line, s.column + 1, ?_⟩
    rw [scanToken_separator hseparator hrest, hone hspell, perform_token _ _ _ hplain, hspell]
  · rw [hspell] at hc hrest
    cases hc
    obtain ⟨⟨-, hplain, -⟩, -⟩ := operator?_eq_some hoperator
    refine ⟨s.line, s.column + 1, ?_⟩
    have hnext : s.advance.rest.head? ≠ some '=' := by
      rw [rest_advance, hrest]
      exact hext hmem
    rw [scanToken_operator hoperator hrest, addOperator, accept_equal, if_neg hnext,
      hone hspell, perform_token _ _ _ hplain, hspell]
  · rw [hspell] at hc hrest
    cases hc
    obtain ⟨-, -, -, hplain, -⟩ := operator?_eq_some hoperator
    refine ⟨s.line, s.column + 1 + 1, ?_⟩
    have hnext : s.advance.rest.head? = some '=' := by
      rw [rest_advance, hrest]
      rfl
    rw [scanToken_operator hoperator hrest, addOperator, accept_equal, if_pos hnext,
      advance_eq_moved s c, advance_eq_moved _ '=', moved_moved, perform_token _ _ _ hplain, hspell]
    rfl

end Scanner

/-- **The scanner reads what the text settles.** -/
theorem Takes.scanToken_eq {text rest : List Char} {item : Item} (h : Takes text item rest)
    {s : Scanner} (hrest : s.rest = text ++ rest) {c : Char} (hc : c ∈ text.head?) :
    ∃ line column, s.scanToken c = (s.moved text line column).perform text item := by
  obtain ⟨hreads, hnumeral, hunknown⟩ := h
  cases hreads with
  | @token k text rest p hlexeme hmax =>
    by_cases hword : k.isWord = true
    · exact ⟨_, _, Scanner.scanToken_word hlexeme hword (hmax.word hword) hrest hc⟩
    · cases hlexeme with
      | keyword hmem =>
        have hkeyword : ∀ k ∈ Kind.keywords, k.isWord = true := by decide
        exact absurd (hkeyword k hmem) hword
      | truth b => exact absurd rfl hword
      | name => exact absurd rfl hword
      | number hnumber hvalue =>
        obtain ⟨hscan, hspan, hmove⟩ := Scanner.scanToken_number hnumber hmax hrest hc
        refine ⟨s.line, s.column + text.length, ?_⟩
        rw [hscan, Scanner.scanNumber, hspan, hmove, hvalue]
        rfl
      | string hopening hclosing hproper =>
        cases hc
        exact Scanner.scanToken_string hopening hclosing hproper hrest
      | symbol hmem => exact Scanner.scanToken_symbol hmem hmax.operator hrest hc
  | comment hbody hend =>
    cases hc
    exact ⟨_, _, Scanner.scanToken_comment hbody hend hrest⟩
  | newline =>
    cases hc
    refine ⟨s.line, s.column + 1, ?_⟩
    rw [Scanner.scanToken_newline hrest, Scanner.advance_eq_moved s '\n']
    rfl
  | numeral hnumber hvalue =>
    obtain ⟨hscan, hspan, hmove⟩ := Scanner.scanToken_number hnumber (hnumeral _ rfl) hrest hc
    refine ⟨s.line, s.column + text.length, ?_⟩
    rw [hscan, Scanner.scanNumber, hspan, hmove, hvalue]
    rfl
  | openString hopening hproper htail =>
    cases hc
    rw [List.append_nil] at hrest
    exact Scanner.scanToken_openString hopening hproper htail hrest
  | unknown hspecial =>
    cases hc
    refine ⟨s.line, s.column + 1, ?_⟩
    rw [Scanner.scanToken_unknown hspecial (hunknown _ rfl) hrest, Scanner.advance_eq_moved s _]
    rfl

namespace Scanner

/-- What stands behind the blanks, if anything does, starts with an item. -/
theorem exists_takes_rest {s : Scanner} (h : ∃ c ∈ s.rest, isInlineBlank c = false) :
    ∃ blanks text item rest, s.rest = blanks ++ (text ++ rest) ∧
      (∀ c ∈ blanks, isInlineBlank c = true) ∧ (∀ c ∈ text.head?, isInlineBlank c = false) ∧
      Takes text item rest := by
  have hne : s.rest.dropWhile isInlineBlank ≠ [] := by
    intro hnil
    obtain ⟨c, hc, hblank⟩ := h
    rw [List.dropWhile_eq_nil_iff.mp hnil c hc] at hblank
    cases hblank
  obtain ⟨text, item, rest, hsplit, htakes⟩ := exists_takes hne
  refine ⟨s.rest.takeWhile isInlineBlank, text, item, rest, ?_,
    fun c hc => List.mem_takeWhile_imp hc, ?_, htakes⟩
  · rw [← hsplit, List.takeWhile_append_dropWhile]
  · intro c hc
    refine head_dropWhile isInlineBlank s.rest c ?_
    rw [hsplit, List.head?_append, Option.mem_def.mp hc]
    rfl

theorem dropWhile_blanks {blanks text : List Char} (hblanks : ∀ c ∈ blanks, isInlineBlank c = true)
    (hhead : ∀ c ∈ text.head?, isInlineBlank c = false) (hne : text ≠ []) (rest : List Char) :
    (blanks ++ (text ++ rest)).dropWhile isInlineBlank = text ++ rest := by
  obtain ⟨c, cs, rfl⟩ := List.exists_cons_of_ne_nil hne
  rw [List.dropWhile_append_of_pos hblanks, List.cons_append,
    List.dropWhile_cons_of_neg (by simp [hhead c rfl])]

end Scanner

/-- **A round reads what the text settles**, behind the blanks. -/
theorem Takes.round_eq {text rest : List Char} {item : Item} (h : Takes text item rest)
    {s : Scanner} {blanks : List Char} (hrest : s.rest = blanks ++ (text ++ rest))
    (hblanks : ∀ c ∈ blanks, Scanner.isInlineBlank c = true)
    (hhead : ∀ c ∈ text.head?, Scanner.isInlineBlank c = false) :
    ∃ pos line column,
      s.round = (s.begun.placed rest pos line column false).perform text item := by
  have hne := h.reads.text_ne_nil
  have hleft : s.beginToken.rest = text ++ rest := by
    rw [s.rest_beginToken, hrest, Scanner.dropWhile_blanks hblanks hhead hne]
  obtain ⟨c, cs, htext⟩ := List.exists_cons_of_ne_nil hne
  obtain ⟨line, column, hscan⟩ := h.scanToken_eq hleft (c := c) (by rw [htext]; rfl)
  have hround : s.round = s.beginToken.scanToken c := by
    rw [Scanner.round, hleft, s.markLine_beginToken, htext]
    rfl
  obtain ⟨pos, hmoved⟩ := s.moved_beginToken text line column
  refine ⟨pos, line, column, ?_⟩
  rw [hround, hscan, hmoved, hleft, List.drop_left]

/-! ## Boundaries -/

/-- A text that is empty or starts with white space or a comment. -/
def Bounded (text : List Char) : Prop := ∀ c ∈ text.head?, Text.isBlank c = true ∨ c = '#'

/-- A boundary goes on no lexeme. -/
theorem Maximal.of_bounded {rest : List Char} (h : Bounded rest) (k : Kind) (text : List Char) :
    Maximal k text rest := by
  have hword : ∀ c ∈ rest.head?, isWordChar c = false := by
    intro c hc
    rcases h c hc with hblank | rfl
    · exact isWordChar_of_isBlank hblank
    · decide
  have hother : ∀ c ∈ rest.head?, c ∉ ['.', '='] := by
    intro c hc
    rcases h c hc with hblank | rfl
    · exact not_mem_of_class hblank (by decide)
    · decide
  refine ⟨fun _ => hword, fun _ c hc => ⟨?_, ?_, fun _ => ?_⟩, fun _ hequal => ?_⟩
  · by_contra hdigit
    rw [Bool.not_eq_false] at hdigit
    exact absurd (isWordStart_of_isDigit hdigit).2 (by simp [hword c hc])
  · rintro rfl
    exact absurd (hword _ hc) (by decide)
  · rintro rfl
    exact hother _ hc (by decide)
  · exact hother '=' hequal (by decide)

/-- **What comes behind a boundary does not matter**, except to a comment, which goes on, and to a
string that is not closed. -/
theorem Takes.of_bounded {text rest : List Char} {item : Item} (h : Takes text item rest)
    (hcomment : item ≠ .comment) (hopen : item ≠ .flaw .openString) {rest' : List Char}
    (hrest' : Bounded rest') : Takes text item rest' := by
  refine ⟨?_, fun w _ => .of_bounded hrest' .number text, h.unknown⟩
  cases h.reads with
  | token hlexeme _ => exact .token hlexeme (.of_bounded hrest' _ text)
  | comment => exact absurd rfl hcomment
  | newline => exact .newline
  | numeral hnumber hvalue => exact .numeral hnumber hvalue
  | openString => exact absurd rfl hopen
  | unknown hspecial => exact .unknown hspecial

/-- What is read depends on the next character only, except for a string that is not closed. -/
theorem Takes.of_head {text rest : List Char} {item : Item} (h : Takes text item rest)
    (hopen : item ≠ .flaw .openString) {rest' : List Char} (hhead : rest'.head? = rest.head?) :
    Takes text item rest' := by
  have hmaximal {k : Kind} (hk : Maximal k text rest) : Maximal k text rest' := by
    refine ⟨?_, ?_, ?_⟩
    · rw [hhead]
      exact hk.word
    · rw [hhead]
      exact hk.number
    · rw [hhead]
      exact hk.operator
  refine ⟨?_, fun w hw => hmaximal (h.numeral w hw), h.unknown⟩
  cases h.reads with
  | token hlexeme hk => exact .token hlexeme (hmaximal hk)
  | comment hbody hend => exact .comment hbody (by rwa [hhead])
  | newline => exact .newline
  | numeral hnumber hvalue => exact .numeral hnumber hvalue
  | openString => exact absurd rfl hopen
  | unknown hspecial => exact .unknown hspecial

end Scriptlet
