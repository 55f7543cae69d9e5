import Scriptlet.Proofs.Composition
import Scriptlet.Proofs.FixedNotation
import Scriptlet.Proofs.Relexing

/-!
# Printed numbers are source

What a finite number prints is a literal, or a literal with a sign in front of it. Printing that
prints the same text again.

* `LineOf`: a text that is read as one token after the other, up to the end of its line.
  `tokenize_line`: a flush line is scanned to these tokens.
* `runProgram_print`: the run of one printing statement whose expression has a value.
* `runProgram_print_number`: from these, the run that prints a number as it was printed before.
-/

namespace Scriptlet

/-! ## The tokens of one line -/

theorem isInlineBlank_of_isWordChar {c : Char} (h : isWordChar c = true) :
    Scanner.isInlineBlank c = false := by
  by_contra hblank
  rw [Bool.not_eq_false, Scanner.isInlineBlank, Bool.and_eq_true] at hblank
  rw [isWordChar_of_isBlank hblank.1] at h
  cases h

/-- No lexeme starts with a blank. -/
theorem Lexeme.head_not_blank {k : Kind} {text : List Char} {p : Document} (h : Lexeme k text p) :
    ∀ c ∈ text.head?, Scanner.isInlineBlank c = false := by
  have hword : k.isWord = true → ∀ c ∈ text.head?, Scanner.isInlineBlank c = false :=
    fun hk c hc => isInlineBlank_of_isWordChar ((h.isWord hk).all c (List.mem_of_mem_head? hc))
  cases h with
  | keyword hk =>
    have hkeyword : ∀ k ∈ Kind.keywords, k.isWord = true := by decide
    exact hword (hkeyword k hk)
  | truth b => exact hword rfl
  | name _ _ _ => exact hword rfl
  | number hnumber _ =>
    obtain ⟨c, cs, rfl, hdigit⟩ := hnumber.1
    rintro d ⟨⟩
    exact isInlineBlank_of_isWordChar (isWordStart_of_isDigit hdigit).2
  | @string opening closing pieces hopening _ _ =>
    rintro d ⟨⟩
    simp only [isQuote, Bool.or_eq_true, beq_iff_eq] at hopening
    rcases hopening with rfl | rfl
    · decide
    · decide
  | symbol hk =>
    have hsymbol : ∀ k ∈ Kind.symbols,
        k.spelling.toList.head?.all (!Scanner.isInlineBlank ·) = true := by decide
    intro c hc
    have hstart := hsymbol k hk
    rwa [Option.mem_def.mp hc, Option.all_some, Bool.not_eq_true'] at hstart

/-- `LineOf text ts`: the text is one line, made of the lexemes of the tokens with blanks in front
of them. None of the tokens opens or closes a group. -/
inductive LineOf : List Char → List Token → Prop
  | newline : LineOf ['\n'] []
  | token {t : Token} {blanks rest : List Char} {ts : List Token} :
      (∀ c ∈ blanks, Scanner.isInlineBlank c = true) →
      Lexeme t.kind t.lexeme.toList t.payload → Maximal t.kind t.lexeme.toList rest →
      t.kind ∉ Kind.brackets → LineOf rest ts →
      LineOf (blanks ++ (t.lexeme.toList ++ rest)) (t :: ts)

namespace Scanner

/-- The scanner stands on a flush line, outside of all groups, and has reported nothing. -/
structure InLine (s : Scanner) : Prop where
  failed : s.failed = false
  flat : s.margin.Flat
  widths : s.widths.getLast? = some 0
  nested : s.nested = false
  flush : s.startsLine = true → indentation s.rest = 0

variable {s : Scanner}

/-- The layout of the line makes no token and no report. -/
theorem InLine.begun (h : s.InLine) :
    ∃ widths, s.begun = { s.markLine with widths := widths } ∧ s.round.margin.Flat := by
  obtain ⟨widths, hbegun, hwidths⟩ := begun_of_flat h.flat (widths_ne_nil h.widths) h.flush
  refine ⟨widths, hbegun, ?_⟩
  rw [(sameBlocks_round s).margin, hbegun]
  exact ⟨hwidths, h.flat.openBlocks⟩

/-- One round reads one token of the line. -/
theorem InLine.round_token (h : s.InLine) {t : Token} {blanks rest : List Char}
    (hrest : s.rest = blanks ++ (t.lexeme.toList ++ rest))
    (hblanks : ∀ c ∈ blanks, isInlineBlank c = true)
    (hlexeme : Lexeme t.kind t.lexeme.toList t.payload)
    (hmax : Maximal t.kind t.lexeme.toList rest) (hk : t.kind ∉ Kind.brackets) :
    s.round.InLine ∧ s.round.rest = rest ∧
      s.round.tokens.map Token.unlined = s.tokens.map Token.unlined ++ [t.unlined] ∧
      ∃ u ∈ s.round.emitted.head?, u.kind = t.kind := by
  obtain ⟨widths, hbegun, hflat⟩ := h.begun
  have hwidths := getLast?_widths_round h.widths
  obtain ⟨pos, line, column, hround⟩ :=
    (Takes.of_lexeme hlexeme hmax).round_eq hrest hblanks hlexeme.head_not_blank
  rw [perform_token _ _ _ hk, String.ofList_toList, hbegun] at hround
  rw [hround] at hflat hwidths ⊢
  refine ⟨⟨h.failed, hflat, hwidths, h.nested, fun hstarts => ?_⟩, rfl, ?_, _, rfl, rfl⟩
  · cases hstarts
  · simp only [tokens, add, List.reverse_cons, List.map_append]
    rfl

/-- Outside groups, the end of a line is a token if the line has tokens. -/
theorem endLine_of_tokens (hlast : ∃ t ∈ s.emitted.head?, t.kind ≠ .newline)
    (hnested : s.nested = false) :
    s.endLine = { (s.mark .newline).breakLine with atLineStart := true } := by
  obtain ⟨t, ht, hkind⟩ := hlast
  obtain ⟨ts, hemitted⟩ := List.head?_eq_some_iff.mp ht
  have hmarks : (s.emitted.isEmpty || s.endsWith .newline || s.nested) = false := by
    simp [endsWith, hemitted, hkind, hnested]
  rw [endLine, if_neg (Bool.eq_false_iff.mp hmarks)]

/-- The last round of a line ends it. -/
theorem InLine.round_newline (h : s.InLine) (hrest : s.rest = ['\n'])
    (hlast : ∃ t ∈ s.emitted.head?, t.kind ≠ .newline) :
    s.round.rest = [] ∧ s.round.failed = false ∧ s.round.openBlocks = 0 ∧
      s.round.tokens.map Token.unlined = s.tokens.map Token.unlined ++ [.ofKind .newline] ∧
      ∃ u ∈ s.round.emitted.head?, u.kind = .newline := by
  obtain ⟨widths, hbegun, hflat⟩ := h.begun
  have htakes : Takes ['\n'] .newline [] := .of_reads .newline fun f hf => by cases hf
  have hrest' : s.rest = [] ++ (['\n'] ++ []) := hrest
  have hhead : ∀ c ∈ ['\n'].head?, isInlineBlank c = false := by
    rintro c ⟨⟩
    decide
  obtain ⟨pos, line, column, hround⟩ := htakes.round_eq hrest' (by simp) hhead
  rw [hbegun] at hround
  have hended : s.round = endLine _ := hround
  rw [endLine_of_tokens (by exact hlast) (by exact h.nested)] at hended
  rw [hended] at hflat ⊢
  refine ⟨rfl, h.failed, hflat.openBlocks, ?_, _, rfl, rfl⟩
  show ((_ :: s.emitted).reverse).map Token.unlined = _
  rw [List.reverse_cons, List.map_append]
  rfl

/-- **A line is scanned to its tokens.** -/
theorem InLine.scanAll {text : List Char} {ts : List Token} (hline : LineOf text ts)
    (h : s.InLine) (hrest : s.rest = text)
    (hlast : ts = [] → ∃ t ∈ s.emitted.head?, t.kind ≠ .newline) :
    s.scanAll.tokens.map Token.unlined =
        s.tokens.map Token.unlined ++ (ts.map Token.unlined ++ [.ofKind .newline]) ∧
      s.scanAll.failed = false ∧ s.scanAll.openBlocks = 0 ∧
      ∃ u ∈ s.scanAll.emitted.head?, u.kind = .newline := by
  induction hline generalizing s with
  | newline =>
    obtain ⟨hend, hfailed, hblocks, htokens, hnewline⟩ := h.round_newline hrest (hlast rfl)
    rw [scanAll_of_ne_nil (by simp [hrest]), scanAll_of_nil hend]
    exact ⟨htokens, hfailed, hblocks, hnewline⟩
  | @token t blanks rest ts hblanks hlexeme hmax hk _ ih =>
    obtain ⟨hround, hrest', htokens, u, hu, hkind⟩ :=
      h.round_token hrest hblanks hlexeme hmax hk
    have hne : t.kind ≠ .newline := by
      intro hnewline
      have hlayout := hlexeme.not_isLayout
      rw [hnewline] at hlayout
      cases hlayout
    have hscan := ih hround hrest' fun _ => ⟨u, hu, hkind ▸ hne⟩
    rw [htokens, List.append_assoc] at hscan
    rw [scanAll_of_ne_nil (by simp [hrest, hlexeme.text_ne_nil])]
    exact hscan

/-- **A flush line is all there is to scan of a source that holds nothing else.** -/
theorem tokenize_line {text : List Char} {ts : List Token} (hline : LineOf text ts)
    (hne : ts ≠ []) (hflush : indentation text = 0) :
    (ofChars text {}).tokenize.failed = false ∧
      (ofChars text {}).tokenize.tokens.map Token.unlined =
        ts.map Token.unlined ++ [.ofKind .newline] := by
  have hstart : (ofChars text {}).InLine := by
    refine ⟨rfl, ⟨fun w hw => ?_, rfl⟩, rfl, rfl, fun _ => hflush⟩
    exact List.mem_singleton.mp hw
  obtain ⟨htokens, hfailed, hblocks, u, hu, hkind⟩ :=
    hstart.scanAll hline rfl fun hnil => absurd hnil hne
  have hended : (ofChars text {}).scanAll.endsWith .newline = true := by
    simp [endsWith, Option.mem_def.mp hu, hkind]
  have hfinish : (ofChars text {}).tokenize = (ofChars text {}).scanAll := by
    show (ofChars text {}).scanAll.finish = _
    rw [finish, if_pos (by simp [hended]), hblocks]
    rfl
  rw [hfinish]
  exact ⟨hfailed, htokens⟩

end Scanner

/-! ## One printing statement -/

namespace Interpreter

/-- Scanning that reports nothing leaves the run to the tokens. -/
theorem runSource_of_scanned (it : Interpreter) {source : String}
    (hscanned : (Scanner.ofSource source {}).tokenize.failed = false)
    (hne : (Scanner.ofSource source {}).tokenize.tokens ≠ []) :
    ∃ it₁, it.Adds it₁ [] ∧
      it.runSource source = it₁.runTokens (Scanner.ofSource source {}).tokenize.tokens := by
  obtain ⟨htokens, hfailed⟩ := Scanner.tokenize_earlier source.toList it.reports
  obtain ⟨it₁, new, hadds, -, hnew, hrun⟩ := it.runSource_eq source
  unfold Scanner.ofSource at *
  rw [hfailed, hscanned] at hnew hrun
  have hempty : new = [] := by
    by_contra hne
    exact Bool.false_ne_true (hnew.mpr hne)
  rw [hempty] at hadds
  refine ⟨it₁, hadds, ?_⟩
  rw [hrun, htokens, if_neg Bool.false_ne_true, if_neg (by simp [hne])]

theorem run_print {it : Interpreter} {x : Node} {v : Token} {d : Document}
    (hvalue : it.evaluate x = (.ok v, it)) (htext : v.toText = .ok d) :
    it.run [.print x] = (.ok (), it.printLine d.display) := by
  rw [run, execute, hvalue]
  dsimp only
  rw [htext]
  rfl

end Interpreter

/-- **A source that is one printing statement prints its value and reports nothing**, if its
expression has a value that can be printed. -/
theorem runProgram_print {source : String} {x : Node} {v : Token} {d : Document}
    (hscanned : (Scanner.ofSource source {}).tokenize.failed = false)
    (hspelled : SpelledStatement (.print x) (Scanner.ofSource source {}).tokenize.tokens)
    (hvalue : ∀ it : Interpreter, it.evaluate x = (.ok v, it)) (htext : v.toText = .ok d)
    (o : Options) (earlier : Diagnostics) :
    (runProgram source o earlier).1 = .ok true ∧
      (runProgram source o earlier).2.reports = earlier ∧
      (runProgram source o earlier).2.output = d.display ++ "\n" := by
  have hparsed := parseProgram_spelled (.cons hspelled .nil)
  rw [List.append_nil] at hparsed
  have hne : (Scanner.ofSource source {}).tokenize.tokens ≠ [] := by
    obtain ⟨t, u, us, htokens⟩ := hspelled.exists_cons_cons
    rw [htokens]
    exact List.cons_ne_nil t (u :: us)
  obtain ⟨it₁, hadds₁, hsource⟩ :=
    (Interpreter.ofOptions o earlier).runSource_of_scanned hscanned hne
  obtain ⟨it₂, hadds₂, htokens⟩ := it₁.runTokens_of_no_issues (congrArg Parsed.issues hparsed)
  rw [hparsed] at htokens
  have hrun := hsource.trans (htokens _ (it₂.run_print (hvalue it₂) htext))
  have hadds := hadds₁.trans hadds₂
  unfold runProgram
  rw [hrun]
  refine ⟨rfl, hadds.reports, ?_⟩
  show it₂.output ++ d.display ++ "\n" = _
  rw [hadds.output]
  exact congrArg (· ++ "\n") String.empty_append

/-! ## Numbers -/

/-- The literal of a magnitude word. -/
def Token.ofWord (w : Nat) : Token :=
  { kind := .number
    lexeme := String.ofList ((Number.shortest w).positional false)
    payload := .number (Number.ofMagnitude false w) }

/-- The sign of a number, as tokens. -/
def Token.ofSign (negative : Bool) : List Token :=
  if negative then [{ kind := .minus, lexeme := "-" }] else []

theorem bounded_newline : Bounded ['\n'] := by
  rintro c ⟨⟩
  exact .inl (by decide)

/-- A sign and the digits of a word are a line, with blanks in front. -/
theorem lineOf_number (negative : Bool) {w : Nat} (hw : w < Number.infinityWord)
    {blanks : List Char} (hblanks : ∀ c ∈ blanks, Scanner.isInlineBlank c = true) :
    LineOf (blanks ++ ((if negative then ['-'] else []) ++
        (Number.shortest w).positional false ++ ['\n']))
      (Token.ofSign negative ++ [Token.ofWord w]) := by
  have hlexeme := Number.lexeme_positional_shortest hw
  have hword : ∀ {blanks : List Char}, (∀ c ∈ blanks, Scanner.isInlineBlank c = true) →
      LineOf (blanks ++ ((Number.shortest w).positional false ++ ['\n'])) [Token.ofWord w] := by
    intro blanks hblanks
    have htext : (Token.ofWord w).lexeme.toList = (Number.shortest w).positional false :=
      String.toList_ofList
    rw [← htext] at hlexeme ⊢
    exact .token hblanks hlexeme (.of_bounded bounded_newline ..)
      (show Kind.number ∉ Kind.brackets by decide) .newline
  cases negative with
  | false => exact hword hblanks
  | true =>
    obtain ⟨d, hnumeral, -⟩ := (Number.shortest w).exists_numeral
    obtain ⟨c, cs, hcons, hdigit⟩ := hnumeral.exists_cons
    have hmax : Maximal .minus ['-'] ((Number.shortest w).positional false ++ ['\n']) := by
      refine .of_mem_symbols (by decide) fun _ hequal => ?_
      rw [hcons] at hequal
      obtain rfl : c = '=' := Option.some.inj hequal
      cases hdigit
    have hminus : Lexeme .minus ['-'] .null := .symbol (by decide)
    exact .token (t := { kind := .minus, lexeme := "-" }) hblanks hminus hmax
      (show Kind.minus ∉ Kind.brackets by decide) (hword (List.forall_mem_nil _))

/-- What printing a number gives, with the word before it, is scanned without a report. -/
theorem tokenize_print {v : Float} (h : Number.magnitude v < Number.infinityWord) :
    (Scanner.ofSource ("print " ++ Number.Style.plain.write v ++ "\n") {}).tokenize.failed = false ∧
    (Scanner.ofSource ("print " ++ Number.Style.plain.write v ++ "\n") {}).tokenize.tokens.map
        Token.unlined =
      { kind := .kwPrint, lexeme := "print" } ::
        (Token.ofSign (Number.isNegative v) ++ [Token.ofWord (Number.magnitude v)]).map
          Token.unlined ++ [.ofKind .newline] := by
  have hblank : ∀ c ∈ [' '], Scanner.isInlineBlank c = true := by
    intro c hc
    rw [List.mem_singleton.mp hc]
    decide
  have hnumber := lineOf_number (Number.isNegative v) h hblank
  rw [← Number.Style.toList_plain h] at hnumber
  have hkeyword : Lexeme .kwPrint ['p', 'r', 'i', 'n', 't'] .null := .keyword (by decide)
  have hbounded : Bounded ([' '] ++ ((Number.Style.plain.write v).toList ++ ['\n'])) := by
    rintro c ⟨⟩
    exact .inl (by decide)
  have hline := LineOf.token (t := { kind := .kwPrint, lexeme := "print" }) (List.forall_mem_nil _)
    hkeyword (.of_bounded hbounded ..) (show Kind.kwPrint ∉ Kind.brackets by decide) hnumber
  have hsource : ("print " ++ Number.Style.plain.write v ++ "\n").toList =
      [] ++ ("print".toList ++ ([' '] ++ ((Number.Style.plain.write v).toList ++ ['\n']))) := by
    rw [String.toList_append, String.toList_append]
    rfl
  rw [Scanner.ofSource, hsource]
  refine Scanner.tokenize_line hline (List.cons_ne_nil _ _) ?_
  exact Scanner.indentation_append (c := 'p') (by decide) [] _

/-- The negative of a literal, where it is evaluated. -/
theorem evaluate_minus {op t : Token} {x : Float} (hop : op.kind = .minus)
    (hkind : t.kind = .number) (hpayload : t.payload = .number x) (it : Interpreter) :
    it.evaluate (.unary op (.literal t)) = (.ok (.ofNumber (-x)), it) := by
  rw [Interpreter.evaluate_unary (it.evaluate_literal t), Interpreter.applyUnary, unaryValue, hop]
  dsimp only
  rw [Token.toNumber, if_pos hkind, hpayload]
  rfl

/-- The tokens of a sign and a literal are an expression with the value that they were made
from. -/
theorem exists_spelled_number (negative : Bool) {w : Nat} (hw : w < Number.infinityWord)
    {ts : List Token} (hts : ts.map Token.unlined =
      (Token.ofSign negative ++ [Token.ofWord w]).map Token.unlined) :
    ∃ x v, x.Canonical ∧ x.Spelled ts ∧ (∀ it : Interpreter, it.evaluate x = (.ok v, it)) ∧
      v.toText = .ok (.text (Number.Style.plain.write (Number.ofMagnitude negative w))) := by
  -- a literal whose line is not known
  have hword : ∀ {t : Token}, t.unlined = (Token.ofWord w).unlined →
      t.kind = .number ∧ t.payload = .number (Number.ofMagnitude false w) := by
    intro t ht
    have hkind : t.unlined.kind = .number := congrArg Token.kind ht
    exact ⟨hkind, congrArg Token.payload ht⟩
  have hcanonical : ∀ {t : Token}, t.kind = .number → (Node.literal t).Canonical :=
    fun {t} hkind => .literal (show t.kind.isLiteral = true by rw [hkind]; rfl)
  cases negative with
  | false =>
    obtain ⟨t, us, rfl, ht, hus⟩ := List.map_eq_cons_iff.mp hts
    obtain rfl := List.map_eq_nil_iff.mp hus
    obtain ⟨hkind, hpayload⟩ := hword ht
    exact ⟨.literal t, t, hcanonical hkind, .literal t, fun it => it.evaluate_literal t,
      Token.toText_number hkind hpayload⟩
  | true =>
    obtain ⟨op, us, rfl, hop, hus⟩ := List.map_eq_cons_iff.mp hts
    obtain ⟨t, us, rfl, ht, hus⟩ := List.map_eq_cons_iff.mp hus
    obtain rfl := List.map_eq_nil_iff.mp hus
    obtain ⟨hkind, hpayload⟩ := hword ht
    have hminus : op.kind = .minus := (congrArg Token.kind hop :)
    refine ⟨.unary op (.literal t), _, .unary (by rw [hminus]; decide) trivial (hcanonical hkind),
      .unary (.literal t), evaluate_minus hminus hkind hpayload, ?_⟩
    rw [Number.neg_ofMagnitude false hw]
    exact Token.toText_number rfl rfl

/-- **Printed numbers are source.** What a finite number prints, of either sign and zero included,
can be printed again: nothing is reported, and the same text is printed. -/
theorem runProgram_print_number (v : Float) (h : v.isFinite = true) (o : Options)
    (earlier : Diagnostics) :
    ∃ text, Number.printed? v = some text ∧
      (runProgram ("print " ++ text ++ "\n") o earlier).1 = .ok true ∧
      (runProgram ("print " ++ text ++ "\n") o earlier).2.reports = earlier ∧
      (runProgram ("print " ++ text ++ "\n") o earlier).2.output = text ++ "\n" := by
  have hfinite := (Number.isFinite_iff v).mp h
  obtain ⟨hscanned, htokens⟩ := tokenize_print hfinite
  obtain ⟨keyword, ts, htokens, hkeyword, hts⟩ := List.map_eq_cons_iff.mp htokens
  obtain ⟨us, last, rfl, hus, hlast⟩ := List.map_eq_append_iff.mp hts
  obtain ⟨newline, more, rfl, hnewline, hmore⟩ := List.map_eq_cons_iff.mp hlast
  obtain rfl := List.map_eq_nil_iff.mp hmore
  obtain ⟨x, value, hcanonical, hspelled, hvalue, htext⟩ :=
    exists_spelled_number (Number.isNegative v) hfinite hus
  rw [Number.ofMagnitude_magnitude hfinite] at htext
  have hprint : keyword.kind = .kwPrint := (congrArg Token.kind hkeyword :)
  have hend : newline.kind = .newline := (congrArg Token.kind hnewline :)
  refine ⟨_, Number.printed?_eq v, runProgram_print hscanned ?_ hvalue htext o earlier⟩
  rw [htokens]
  exact .print hprint hend hcanonical hspelled

/-- Negative zero prints its sign, and `print -0` prints it again. -/
theorem runProgram_print_negative_zero :
    (Float.ofBits 0x8000000000000000).isFinite = true ∧
      Number.printed? (Float.ofBits 0x8000000000000000) = some "-0" ∧
      (runProgram "print -0\n" {} {}).1 = .ok true ∧
      (runProgram "print -0\n" {} {}).2.reports = {} ∧
      (runProgram "print -0\n" {} {}).2.output = "-0\n" := by
  have hfinite : (Float.ofBits 0x8000000000000000).isFinite = true := by decide +kernel
  have hprinted : Number.printed? (Float.ofBits 0x8000000000000000) = some "-0" := by
    decide +kernel
  obtain ⟨text, htext, hprints⟩ :=
    runProgram_print_number (Float.ofBits 0x8000000000000000) hfinite {} {}
  obtain rfl : "-0" = text := Option.some.inj (hprinted.symm.trans htext)
  exact ⟨hfinite, hprinted, hprints⟩

end Scriptlet
