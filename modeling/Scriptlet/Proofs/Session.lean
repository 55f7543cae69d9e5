import Mathlib.Logic.Relation
import Scriptlet.Proofs.Round

/-!
# Sessions with a scanner

The operations of a scanner can be called in any order and at any place, past the end of the text
included.

* `tally`, `depth`: how many tokens are of a kind, and how many of the pairs that one kind opens and
  another closes are open behind them.
* `Scanner.Edit`: the four things that an operation can do. It moves the cursor, emits a token and
  counts it, remembers a width, or makes a report.
* `Call.edits`, `Scanner.edits_tokenize`: each operation is a run of edits.
* `Scanner.Counted`, `Scanner.Reported`: what the counters and the flag of a scanner mean. Edits
  keep that.

`session_coherent` puts these together for any sequence of calls.
-/

namespace Scriptlet

/-! ## Counting tokens -/

/-- How many of the tokens are of a kind. -/
def tally (k : Kind) (ts : List Token) : Nat := ts.countP (·.kind == k)

theorem tally_cons (k : Kind) (t : Token) (ts : List Token) :
    tally k (t :: ts) = tally k ts + if t.kind = k then 1 else 0 := by
  simp [tally, List.countP_cons]

theorem tally_append (k : Kind) (ts us : List Token) :
    tally k (ts ++ us) = tally k ts + tally k us :=
  List.countP_append ..

theorem tally_singleton (k : Kind) (t : Token) : tally k [t] = if t.kind = k then 1 else 0 := by
  rw [tally_cons]
  exact Nat.zero_add _

/-- How many pairs are open behind a token, if `n` are in front of it. A closing token with nothing
to close does not count. -/
def nest (opening closing : Kind) (n : Nat) (k : Kind) : Nat :=
  if k = opening then n + 1 else if k = closing then n - 1 else n

/-- How many pairs are open behind the tokens. -/
def depth (opening closing : Kind) (ts : List Token) : Nat :=
  ts.foldl (fun n t => nest opening closing n t.kind) 0

theorem depth_concat (opening closing : Kind) (ts : List Token) (t : Token) :
    depth opening closing (ts ++ [t]) = nest opening closing (depth opening closing ts) t.kind := by
  rw [depth, List.foldl_append]
  rfl

theorem nest_other {opening closing k : Kind} (hopening : k ≠ opening) (hclosing : k ≠ closing)
    (n : Nat) : nest opening closing n k = n := by
  rw [nest, if_neg hopening, if_neg hclosing]

namespace Scanner

/-! ## Edits -/

/-- The scanner `t` differs from `s` at most in the place of the cursor. -/
def Moves (s t : Scanner) : Prop :=
  t = { s with
    rest := t.rest
    pos := t.pos
    line := t.line
    column := t.column
    tokenLine := t.tokenLine
    atLineStart := t.atLineStart }

/-- Emits a token and counts it. -/
def emit (s : Scanner) (t : Token) : Scanner :=
  { s with
    emitted := t :: s.emitted
    openBlocks := nest .indent .dedent s.openBlocks t.kind
    openParens := nest .leftParen .rightParen s.openParens t.kind
    openBrackets := nest .leftBracket .rightBracket s.openBrackets t.kind }

/-- One change of a scanner. A block is closed only if one is open, and a line is ended only behind
a token that does not end one. -/
inductive Edit : Scanner → Scanner → Prop
  | move {s t : Scanner} : s.Moves t → Edit s t
  | emit {s : Scanner} (t : Token) : (t.kind = .dedent → 0 < s.openBlocks) →
      (t.kind = .newline → s.emitted ≠ [] ∧ s.endsWith .newline = false) → Edit s (s.emit t)
  | remember (s : Scanner) (width : Nat) : Edit s (s.rememberWidth width)
  | report (s : Scanner) (message : String) : Edit s (s.report message)

/-- Any number of changes. -/
abbrev Edits : Scanner → Scanner → Prop := Relation.ReflTransGen Edit

/-- What each change keeps, any number of them keeps. -/
theorem Edits.invariant {motive : Scanner → Prop}
    (step : ∀ {s t : Scanner}, s.Edit t → motive s → motive t) {s t : Scanner} (h : s.Edits t)
    (hs : motive s) : motive t := by
  induction h with
  | refl => exact hs
  | tail _ hedit ih => exact step hedit ih

theorem Moves.edits {s t : Scanner} (h : s.Moves t) : s.Edits t := .single (.move h)

theorem edits_advanceBy (s : Scanner) (n : Nat) : s.Edits (s.advanceBy n) :=
  Moves.edits rfl

theorem edits_skipWhile (s : Scanner) (p : Char → Bool) : s.Edits (s.skipWhile p) :=
  edits_advanceBy s _

theorem edits_accept (s : Scanner) (expected : String) : s.Edits (s.accept expected).2 := by
  unfold accept
  split
  · exact edits_advanceBy s 1
  · exact .refl

theorem edits_fault (s : Scanner) (f : ScanFault) : s.Edits (s.fault f) :=
  .single (.report s f.message)

/-- A token that neither closes a block nor ends a line can be emitted anywhere. -/
theorem edits_emit (s : Scanner) {t : Token} (hdedent : t.kind ≠ .dedent)
    (hnewline : t.kind ≠ .newline) : s.Edits (s.emit t) :=
  .single (.emit t (fun h => absurd h hdedent) fun h => absurd h hnewline)

/-- Tokens that neither mark a layout nor belong to a group are not counted. -/
theorem edits_add (s : Scanner) {k : Kind} (lexeme : String) (payload : Document)
    (hlayout : k.isLayout = false) (hbracket : k ∉ Kind.brackets) :
    s.Edits (s.add k lexeme payload) := by
  simp only [Kind.isLayout, Bool.or_eq_false_iff, beq_eq_false_iff_ne] at hlayout
  obtain ⟨⟨hnewline, hindent⟩, hdedent⟩ := hlayout
  simp only [Kind.brackets, List.mem_cons, List.not_mem_nil, or_false, not_or] at hbracket
  obtain ⟨hparen, hparen', hopen, hopen'⟩ := hbracket
  have hemit : s.add k lexeme payload = s.emit ⟨k, lexeme, payload, s.tokenLine⟩ := by
    simp only [emit, nest_other hindent hdedent, nest_other hparen hparen', nest_other hopen hopen']
    rfl
  rw [hemit]
  exact edits_emit s hdedent hnewline

/-! ## Lines and blocks -/

theorem edits_endLine (s : Scanner) : s.Edits s.endLine := by
  unfold endLine
  dsimp only
  split
  · exact Moves.edits rfl
  · rename_i h
    simp only [Bool.or_eq_true, not_or, Bool.not_eq_true, List.isEmpty_eq_false_iff] at h
    have hmark : s.Edit (s.mark .newline) :=
      .emit ⟨.newline, "", .null, s.tokenLine⟩ (fun h => absurd h (by simp)) fun _ => h.1
    exact .trans (.single hmark) (Moves.edits rfl)

/-- No more blocks are closed than are open. -/
theorem closed_unwind_le (width : Nat) (history : List Nat) (lowest : Option Nat) (blocks : Nat) :
    (unwind width history lowest blocks).closed ≤ blocks := by
  fun_induction unwind width history lowest blocks with
  | case1 => exact Nat.zero_le _
  | case2 => exact Nat.zero_le _
  | case3 => exact Nat.zero_le _
  | case4 _ _ _ _ _ left below ih => exact Nat.succ_le_succ ih
  | case5 _ _ _ _ _ _ ih => exact ih

theorem edits_closeBlocks {n : Nat} {s : Scanner} (h : n ≤ s.openBlocks) :
    s.Edits (closeBlocks n s) := by
  induction n generalizing s with
  | zero => exact .refl
  | succ n ih =>
    have hclose : s.Edit s.closeBlock :=
      .emit ⟨.dedent, "", .null, s.tokenLine⟩ (fun _ => by omega) fun h => absurd h (by simp)
    refine .trans (.single hclose) (ih ?_)
    show n ≤ s.openBlocks - 1
    omega

theorem edits_layOut (s : Scanner) (width : Nat) : s.Edits (s.layOut width) := by
  unfold layOut
  split
  · exact .single (.remember s width)
  · have hopen : s.Edits (if s.widths.headD 0 < width then s.openBlock else s) := by
      split
      · exact edits_emit s (t := ⟨.indent, "", .null, s.tokenLine⟩) (by simp) (by simp)
      · exact .refl
    generalize (if s.widths.headD 0 < width then s.openBlock else s) = t at hopen ⊢
    dsimp only
    have hclose := hopen.trans
      (edits_closeBlocks (closed_unwind_le width t.widths none t.openBlocks))
    -- the width is remembered only if there were blocks to close
    split
    · exact hclose.tail (.remember _ width)
    · exact hclose.trans (edits_fault _ _)

theorem edits_resolveIndentation (s : Scanner) : s.Edits s.resolveIndentation :=
  (edits_advanceBy s _).trans (edits_layOut _ _)

/-! ## Words, numbers, strings and symbols -/

theorem edits_scanWord (s : Scanner) : s.Edits s.scanWord := by
  have hkeyword : ∀ k ∈ Kind.keywords, k.isLayout = false ∧ k ∉ Kind.brackets := by decide
  unfold scanWord
  dsimp only
  refine (edits_skipWhile s isWordChar).trans ?_
  split
  · rename_i k hk
    obtain ⟨hlayout, hbracket⟩ := hkeyword k (Kind.keyword?_eq_some hk).1
    exact edits_add _ _ _ hlayout hbracket
  · split
    · exact edits_add _ _ _ rfl (by decide)
    · exact edits_add _ _ _ rfl (by decide)

theorem edits_scanNumber (s : Scanner) : s.Edits s.scanNumber := by
  unfold scanNumber
  dsimp only
  refine (edits_advanceBy s (numberSpan false s.rest).length).trans ?_
  split
  · exact edits_add _ _ _ rfl (by decide)
  · exact edits_fault _ _

theorem edits_passPiece (s : Scanner) (p : Piece) : s.Edits (s.passPiece p) := by
  cases p with
  | plain c =>
    by_cases hc : c = '\n'
    · rw [passPiece, if_pos hc]
      exact Moves.edits rfl
    · rw [passPiece, if_neg hc]
      exact Moves.edits rfl
  | escape c => exact Moves.edits rfl

theorem edits_foldl_passPiece (ps : List Piece) (s : Scanner) :
    s.Edits (ps.foldl passPiece s) := by
  induction ps generalizing s with
  | nil => exact .refl
  | cons p ps ih => exact (edits_passPiece s p).trans (ih _)

theorem edits_scanString (s : Scanner) : s.Edits s.scanString := by
  unfold scanString
  generalize splitPieces (s.rest.drop 1) = body
  obtain ⟨pieces, rest⟩ := body
  have hbody := (edits_advanceBy s 1).trans (edits_foldl_passPiece pieces s.advance)
  dsimp only
  cases rest with
  | nil => exact hbody.trans (edits_fault _ _)
  | cons c rest =>
    refine hbody.trans ((edits_advanceBy _ 1).trans ?_)
    dsimp only
    split
    · exact edits_add _ _ _ rfl (by decide)
    · exact edits_fault _ _

/-- What closes a group with nothing to close is reported, and the count stays at zero. -/
theorem close_eq (s : Scanner) (e : Enclosure) : s.close e =
    (if s.openCount e = 0 then s.fault e.unopened else s).emit
      ⟨e.closer, e.closer.spelling, .null, s.tokenLine⟩ := by
  rcases s.close_cases e with ⟨n, hcount, h⟩ | ⟨hcount, h⟩
  · rw [h, hcount, if_neg n.succ_ne_zero]
    cases e <;> simp_all [openCount, withOpen, Enclosure.closer, emit, nest, add]
  · rw [h, hcount, if_pos rfl]
    cases e <;> simp_all [openCount, Enclosure.closer, emit, nest, add, fault, report]

theorem edits_fault_if (s : Scanner) (p : Prop) [Decidable p] (f : ScanFault) :
    s.Edits (if p then s.fault f else s) := by
  split
  · exact edits_fault s f
  · exact .refl

theorem edits_close (s : Scanner) (e : Enclosure) : s.Edits (s.close e) := by
  rw [close_eq]
  refine (edits_fault_if s _ _).trans (edits_emit _ ?_ ?_)
  · cases e <;> simp [Enclosure.closer]
  · cases e <;> simp [Enclosure.closer]

theorem edits_addOperator (s : Scanner) {c : Char} {alone withEqual : Kind}
    (h : operator? c = some (alone, withEqual)) : s.Edits (s.addOperator c alone withEqual) := by
  obtain ⟨⟨hsymbol, hbracket, -⟩, hsymbol', -, hbracket', -⟩ := operator?_eq_some h
  have hlayout : ∀ k ∈ Kind.symbols, k.isLayout = false := by decide
  have haccept := edits_accept s "="
  unfold addOperator
  split <;> rename_i heq <;> rw [heq] at haccept
  · exact haccept.trans (edits_add _ _ _ (hlayout _ hsymbol') hbracket')
  · exact haccept.trans (edits_add _ _ _ (hlayout _ hsymbol) hbracket)

theorem edits_scanSymbol (s : Scanner) : s.Edits s.scanSymbol := by
  have hlayout : ∀ k ∈ Kind.symbols, k.isLayout = false := by decide
  unfold scanSymbol
  dsimp only
  refine (edits_advanceBy s 1).trans ?_
  split
  · exact edits_fault _ _
  · rename_i c _
    split
    · exact edits_emit _ (t := ⟨.leftParen, "(", .null, s.tokenLine⟩) (by simp) (by simp)
    split
    · exact edits_close _ .paren
    split
    · exact edits_emit _ (t := ⟨.leftBracket, "[", .null, s.tokenLine⟩) (by simp) (by simp)
    split
    · exact edits_close _ .bracket
    split
    · rename_i k hk
      obtain ⟨hsymbol, -, hbracket, -⟩ := separator?_eq_some hk
      exact edits_add _ _ _ (hlayout k hsymbol) hbracket
    split
    · rename_i alone withEqual hop
      exact edits_addOperator _ hop
    split
    · exact edits_endLine _
    · exact edits_fault _ _

/-! ## Whole sources -/

theorem edits_beginToken (s : Scanner) : s.Edits s.beginToken := by
  have hmark : s.Edits s.markLine := Moves.edits rfl
  unfold beginToken
  dsimp only
  refine (hmark.trans ?_).trans (edits_skipWhile _ isInlineBlank)
  split
  · exact edits_resolveIndentation _
  · exact .refl

theorem edits_scanToken (s : Scanner) (c : Char) : s.Edits (s.scanToken c) := by
  unfold scanToken
  split
  · exact edits_scanWord s
  split
  · exact edits_scanNumber s
  split
  · exact edits_scanString s
  split
  · exact edits_skipWhile s _
  · exact edits_scanSymbol s

theorem edits_round (s : Scanner) : s.Edits s.round := by
  have hbegin := edits_beginToken s
  have hmark : s.beginToken.Edits s.beginToken.markLine := Moves.edits rfl
  unfold round
  split
  · exact hbegin
  · exact (hbegin.trans hmark).trans (edits_scanToken _ _)

theorem edits_scanAll (s : Scanner) : s.Edits s.scanAll := by
  induction s using rounds_induction with
  | ended s hrest =>
    rw [scanAll_of_nil hrest]
  | next s hrest ih =>
    rw [scanAll_of_ne_nil hrest]
    exact (edits_round s).trans ih

theorem edits_finish (s : Scanner) : s.Edits s.finish := by
  unfold finish
  dsimp only
  split
  · exact edits_closeBlocks (Nat.le_refl _)
  · rename_i h
    simp only [Bool.or_eq_true, not_or, Bool.not_eq_true, List.isEmpty_eq_false_iff] at h
    have hmark : s.Edit (s.mark .newline) :=
      .emit ⟨.newline, "", .null, s.tokenLine⟩ (fun h => absurd h (by simp)) fun _ => h
    exact .trans (.single hmark) (edits_closeBlocks (Nat.le_refl _))

/-- **Reading a source is a run of edits** from its start. -/
theorem edits_tokenize (s : Scanner) : s.reset.Edits s.tokenize :=
  (edits_scanAll s.reset).trans (edits_finish _)

theorem openBlocks_tokenize (s : Scanner) : s.tokenize.openBlocks = 0 := by
  unfold tokenize finish
  dsimp only
  rw [closeBlocks_eq]
  exact Nat.sub_self _

/-! ## What edits keep -/

theorem tokens_emit (s : Scanner) (t : Token) : (s.emit t).tokens = s.tokens ++ [t] :=
  List.reverse_cons

/-- The counters of a scanner count its tokens, and no block is closed before it is opened. -/
structure Counted (s : Scanner) : Prop where
  fronts : ∀ front, front <+: s.tokens → tally .dedent front ≤ tally .indent front
  openBlocks : s.openBlocks + tally .dedent s.tokens = tally .indent s.tokens
  openParens : s.openParens = depth .leftParen .rightParen s.tokens
  openBrackets : s.openBrackets = depth .leftBracket .rightBracket s.tokens

theorem counted_reset (s : Scanner) : s.reset.Counted := by
  refine ⟨fun front h => ?_, rfl, rfl, rfl⟩
  rw [List.prefix_nil.mp h]
  exact Nat.le_refl _

theorem Counted.emit {s : Scanner} (h : s.Counted) {t : Token}
    (hdedent : t.kind = .dedent → 0 < s.openBlocks) : (s.emit t).Counted := by
  have hblocks : nest .indent .dedent s.openBlocks t.kind + tally .dedent (s.tokens ++ [t]) =
      tally .indent (s.tokens ++ [t]) := by
    have hbefore := h.openBlocks
    rw [tally_append, tally_append, tally_singleton, tally_singleton]
    by_cases hopens : t.kind = .indent
    · rw [nest, if_pos hopens, if_pos hopens, if_neg (by simp [hopens])]
      omega
    · rw [nest, if_neg hopens, if_neg hopens]
      by_cases hcloses : t.kind = .dedent
      · have := hdedent hcloses
        rw [if_pos hcloses, if_pos hcloses]
        omega
      · rw [if_neg hcloses, if_neg hcloses]
        omega
  refine ⟨?_, ?_, ?_, ?_⟩
  · intro front hfront
    rw [tokens_emit] at hfront
    rcases List.prefix_concat_iff.mp hfront with rfl | hfront
    · omega
    · exact h.fronts front hfront
  · rw [tokens_emit]
    exact hblocks
  · rw [tokens_emit, depth_concat, ← h.openParens]
    rfl
  · rw [tokens_emit, depth_concat, ← h.openBrackets]
    rfl

theorem Edit.counted {s t : Scanner} (h : s.Edit t) (hs : s.Counted) : t.Counted := by
  cases h with
  | move h =>
    rw [h]
    exact ⟨hs.fronts, hs.openBlocks, hs.openParens, hs.openBrackets⟩
  | emit t hdedent _ => exact hs.emit hdedent
  | remember width => exact ⟨hs.fronts, hs.openBlocks, hs.openParens, hs.openBrackets⟩
  | report message => exact ⟨hs.fronts, hs.openBlocks, hs.openParens, hs.openBrackets⟩

theorem counted_tokenize (s : Scanner) : s.tokenize.Counted :=
  (edits_tokenize s).invariant Edit.counted s.counted_reset

/-- The first width that a scanner remembers is zero. -/
theorem Edit.getLast?_widths {s t : Scanner} (h : s.Edit t) (hs : s.widths.getLast? = some 0) :
    t.widths.getLast? = some 0 := by
  cases h with
  | move h =>
    rw [h]
    exact hs
  | emit t _ _ => exact hs
  | remember width =>
    show (width :: s.widths).getLast? = some 0
    rw [List.getLast?_cons, hs]
    rfl
  | report message => exact hs

/-- The scanner has made reports after those that were made earlier, all of its own stage, and its
flag tells whether it has made any. -/
def Reported (earlier : Diagnostics) (s : Scanner) : Prop :=
  ∃ new : List Diagnostic, s.reports = earlier ++ new ∧ (∀ d ∈ new, d.stage = Diagnostic.lexing) ∧
    (s.failed = true ↔ new ≠ [])

theorem reported_reset (s : Scanner) : s.reset.Reported s.reports :=
  ⟨[], rfl, by simp, by simp [reset, ofChars]⟩

theorem Edit.reported {earlier : Diagnostics} {s t : Scanner} (h : s.Edit t)
    (hs : s.Reported earlier) : t.Reported earlier := by
  cases h with
  | move h =>
    rw [h]
    exact hs
  | emit t _ _ => exact hs
  | remember width => exact hs
  | report message =>
    obtain ⟨new, hreports, hstage, -⟩ := hs
    refine ⟨new ++ [⟨Diagnostic.lexing, message, some s.tokenLine⟩], ?_, ?_,
      by simp [Scanner.report]⟩
    · rw [Diagnostics.append_append, ← hreports]
      rfl
    · intro d hd
      rcases List.mem_append.mp hd with hd | hd
      · exact hstage d hd
      · rw [List.mem_singleton.mp hd]

end Scanner

/-! ## Sessions -/

/-- An operation on a scanner. -/
inductive Call where
  | reset
  | advance
  | accept (expected : String)
  | report (message : String)
  | skipBlanks
  | skipLine
  | resolveIndentation
  | scanWord
  | scanNumber
  | scanString
  | scanSymbol
  | tokenize

namespace Call

/-- The scanner behind a call. -/
def run (s : Scanner) : Call → Scanner
  | reset => s.reset
  | advance => s.advance
  | accept expected => (s.accept expected).2
  | report message => s.report message
  | skipBlanks => s.skipBlanks
  | skipLine => s.skipLine
  | resolveIndentation => s.resolveIndentation
  | scanWord => s.scanWord
  | scanNumber => s.scanNumber
  | scanString => s.scanString
  | scanSymbol => s.scanSymbol
  | tokenize => s.tokenize

/-- Whether a call goes back to the start of the source. -/
def restarts : Call → Bool
  | reset | tokenize => true
  | _ => false

/-- **A call is a run of edits**, from the start of the source if the call goes back there. -/
theorem edits (s : Scanner) (c : Call) :
    (if c.restarts then s.reset else s).Edits (c.run s) := by
  cases c with
  | reset => exact .refl
  | advance => exact Scanner.edits_advanceBy s 1
  | accept expected => exact Scanner.edits_accept s expected
  | report message => exact .single (.report s message)
  | skipBlanks => exact Scanner.edits_skipWhile s _
  | skipLine => exact Scanner.edits_skipWhile s _
  | resolveIndentation => exact Scanner.edits_resolveIndentation s
  | scanWord => exact Scanner.edits_scanWord s
  | scanNumber => exact Scanner.edits_scanNumber s
  | scanString => exact Scanner.edits_scanString s
  | scanSymbol => exact Scanner.edits_scanSymbol s
  | tokenize => exact Scanner.edits_tokenize s

end Call

/-- A scanner in use. -/
structure Session where
  scanner : Scanner
  /-- The reports that there were when the scanner was last put to the start of its source. -/
  earlier : Diagnostics

namespace Session

/-- A new scanner for a source. -/
def start (source : String) (reports : Diagnostics) : Session :=
  ⟨Scanner.ofSource source reports, reports⟩

/-- The session behind a call. -/
def call (x : Session) (c : Call) : Session :=
  ⟨c.run x.scanner, if c.restarts then x.scanner.reports else x.earlier⟩

/-- What the state of a scanner tells about the tokens it has emitted and the reports it has made
since it was last put to the start of its source. -/
structure Coherent (x : Session) : Prop where
  counted : x.scanner.Counted
  widths : x.scanner.widths.getLast? = some 0
  reported : x.scanner.Reported x.earlier

theorem coherent_reset (s : Scanner) : Coherent ⟨s.reset, s.reports⟩ :=
  ⟨s.counted_reset, rfl, s.reported_reset⟩

theorem Coherent.edits {s t : Scanner} {earlier : Diagnostics} (h : s.Edits t)
    (hs : Coherent ⟨s, earlier⟩) : Coherent ⟨t, earlier⟩ :=
  ⟨h.invariant Scanner.Edit.counted hs.counted, h.invariant Scanner.Edit.getLast?_widths hs.widths,
    h.invariant Scanner.Edit.reported hs.reported⟩

/-- What a call keeps. -/
theorem Coherent.call {x : Session} (h : x.Coherent) (c : Call) : (x.call c).Coherent := by
  refine Coherent.edits (c.edits x.scanner) ?_
  split
  · exact coherent_reset x.scanner
  · exact h

/-- What any number of calls keep. -/
theorem Coherent.foldl_call {x : Session} (h : x.Coherent) (calls : List Call) :
    (calls.foldl Session.call x).Coherent := by
  induction calls generalizing x with
  | nil => exact h
  | cons c calls ih => exact ih (h.call c)

end Session

/-- **The state of a scanner in any session.** Whatever operations were called, in any order and at
any place: in every front part of the tokens, as many blocks are opened as are closed or more, and
the counter of blocks is the difference for all tokens; the counters of parentheses and brackets are
their depth behind the tokens; the widths go back to a zero; and the flag is set exactly if a report
was made since the scanner was last put to the start of its source. So the tokens of a source, with
or without faults, close every block that they open, and none before it is opened. -/
theorem session_coherent (source : String) (reports : Diagnostics) (calls : List Call) :
    (calls.foldl Session.call (.start source reports)).Coherent ∧
    ∀ s : Scanner, tally .indent s.tokenize.tokens = tally .dedent s.tokenize.tokens ∧
      ∀ front, front <+: s.tokenize.tokens → tally .dedent front ≤ tally .indent front := by
  refine ⟨?_, fun s => ?_⟩
  · exact (Session.coherent_reset (Scanner.ofSource source reports)).foldl_call calls
  · have hcounted := s.counted_tokenize
    refine ⟨?_, hcounted.fronts⟩
    rw [← hcounted.openBlocks, s.openBlocks_tokenize, Nat.zero_add]

end Scriptlet
