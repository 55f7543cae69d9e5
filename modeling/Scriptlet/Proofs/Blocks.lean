import Mathlib.Data.List.Chain
import Scriptlet.Proofs.Groups
import Scriptlet.Proofs.TokenLines

/-!
# Blocks in programs

What the layout of a source and the grammar make of each other.

* `LaidOut`: blocks are opened only where lines start, a line end stands behind every lexeme, and
  behind what opens a block there is something that closes one. A source without a report is
  scanned to such tokens (`Scanner.laidOut_tokenize`), and so is what is left of them at any place.
* `Derives.within_line`: an expression that does not start with a block stays in its line.
* `Derives.block_first`: the only block of an expression is its first operand.

`layout_agrees` puts these together: of such tokens, the grammar never misses a line end or the end
of a block.
-/

namespace Scriptlet

/-! ## Trees -/

namespace Node

mutual

/-- The blocks of a tree, those in others behind them. -/
def blocks : Node → List Node
  | absent | token _ | literal _ => []
  | list items => blocksOf items
  | unary _ x => x.blocks
  | binary x _ y => x.blocks ++ y.blocks
  | grouping opening x closing =>
    if opening.kind = .indent then grouping opening x closing :: x.blocks else x.blocks
  | print x => x.blocks
  | expression x => x.blocks

/-- The blocks of trees. -/
def blocksOf : List Node → List Node
  | [] => []
  | n :: ns => n.blocks ++ blocksOf ns

end

/-- The first operand of an expression. -/
def first : Node → Node
  | binary x _ _ => x.first
  | n => n

/-- There is no block in what is printed, and none in another expression but its first operand. -/
def BlockFirst (n : Node) : Prop :=
  (∃ e, n = .print e ∧ e.blocks = []) ∨
    ∃ e, n = .expression e ∧ (e.blocks = [] ∨ e.blocks = [e.first])

end Node

/-- A parenthesis or a bracket is not closed. -/
def Complaint.IsUnclosed (c : Complaint) : Prop :=
  c = .expected .rightParen ∨ c = .expected .rightBracket

/-! ## Kinds -/

theorem Kind.not_isLayout_of_isLiteral {k : Kind} (h : k.isLiteral = true) :
    k.isLayout = false := by
  revert h
  cases k <;> decide

theorem not_isLayout_of_sign {k : Kind} (h : k ∈ prefixOperators) : k.isLayout = false := by
  revert h
  cases k <;> decide

theorem Level.not_isLayout {k : Kind} {l : Level} (h : k ∈ l.operators) : k.isLayout = false := by
  revert h
  cases l <;> cases k <;> decide

theorem Kind.ne_newline {k : Kind} (h : k.isLayout = false) : k ≠ .newline := by
  rintro rfl
  cases h

/-- What is not opened by indentation is a parenthesis or a bracket. -/
theorem closer_cases {k c : Kind} (h : closer? k = some c) :
    k = .indent ∧ c = .dedent ∨
      k.isLayout = false ∧ c.isLayout = false ∧ Complaint.IsUnclosed (.expected c) := by
  cases k <;> simp only [closer?, Option.some.injEq, reduceCtorEq] at h <;> subst h
  · exact .inr ⟨rfl, rfl, .inl rfl⟩
  · exact .inr ⟨rfl, rfl, .inr rfl⟩
  · exact .inl ⟨rfl, rfl⟩

theorem skipBlockNewline_of_not_isLayout {k : Kind} (h : k.isLayout = false) (ts : List Token) :
    skipBlockNewline k ts = ts := by
  have hk : k ≠ .dedent := by
    rintro rfl
    cases h
  unfold skipBlockNewline
  split
  · exact if_neg fun hand => hk hand.1
  · rfl

/-- Behind tokens of a line, all marks of the layout are left. -/
theorem mem_of_isLayout {used rest : List Token} (hused : ∀ t ∈ used, t.kind.isLayout = false)
    {t : Token} (ht : t ∈ used ++ rest) (hk : t.kind.isLayout = true) : t ∈ rest := by
  refine (List.mem_append.mp ht).resolve_left fun ht => ?_
  rw [hused t ht] at hk
  cases hk

/-! ## Lines -/

/-- Blocks are opened only where lines start. -/
def OpensAtLines (ts : List Token) : Prop :=
  ts.IsChain fun a b => b.kind = .indent → a.kind = .newline

/-- Tokens that go on with a line. -/
structure Inline (ts : List Token) : Prop where
  head : ∀ t ∈ ts.head?, t.kind ≠ .indent
  opens : OpensAtLines ts

theorem OpensAtLines.suffix {ts us : List Token} (h : OpensAtLines ts) (hus : us <:+ ts) :
    OpensAtLines us :=
  List.IsChain.suffix h hus

theorem OpensAtLines.inline {t : Token} {ts : List Token} (h : OpensAtLines (t :: ts))
    (ht : t.kind ≠ .newline) : Inline ts := by
  obtain ⟨hhead, htail⟩ := List.isChain_cons.mp h
  exact ⟨fun u hu hk => ht (hhead u hu hk), htail⟩

/-- How tokens are laid out. -/
structure LaidOut (ts : List Token) : Prop where
  opens : OpensAtLines ts
  newline : ∀ t more, t :: more <:+ ts → t.kind.isLayout = false → ∃ u ∈ more, u.kind = .newline
  dedent : ∀ t more, t :: more <:+ ts → t.kind = .indent → ∃ u ∈ more, u.kind = .dedent

theorem LaidOut.suffix {ts us : List Token} (h : LaidOut ts) (hus : us <:+ ts) : LaidOut us :=
  ⟨h.opens.suffix hus, fun t more hmore => h.newline t more (hmore.trans hus),
    fun t more hmore => h.dedent t more (hmore.trans hus)⟩

/-! ## Expressions -/

theorem expect_of_mem {k : Kind} {ts : List Token} (h : ∃ t ∈ ts, t.kind = k) :
    expect k ts = [] := by
  obtain ⟨t, ht, hk⟩ := h
  exact if_pos (List.any_eq_true.mpr ⟨t, ht, by simp [hk]⟩)

namespace Derives

variable {r : Nat} {ts rest : List Token} {n : Node} {issues : List Issue}

/-- **An expression that does not start with a block stays in its line**, and has no block. -/
theorem within_line (h : Derives r ts n rest issues) (hts : Inline ts) :
    (∃ used, ts = used ++ rest ∧ ∀ t ∈ used, t.kind.isLayout = false) ∧ n.blocks = [] ∧
      ∀ i ∈ issues, i.complaint.IsUnclosed := by
  induction h with
  | missing ts => exact ⟨⟨[], rfl, by simp⟩, rfl, by simp⟩
  | @literal t ts ht =>
    refine ⟨⟨[t], rfl, ?_⟩, rfl, by simp⟩
    rw [List.forall_mem_singleton]
    exact Kind.not_isLayout_of_isLiteral ht
  | @unary op ts rest x _ hop _ ih =>
    have hlayout := not_isLayout_of_sign hop
    obtain ⟨⟨used, rfl, hused⟩, hblocks, hissues⟩ := ih (hts.opens.inline (Kind.ne_newline hlayout))
    exact ⟨⟨op :: used, rfl, List.forall_mem_cons.mpr ⟨hlayout, hused⟩⟩, hblocks, hissues⟩
  | @closed opening closing ts inside rest x _ hclose _ hskip ih =>
    have hopening : opening.kind ≠ .indent := hts.head opening rfl
    rcases closer_cases hclose with ⟨hindent, -⟩ | ⟨hopens, hcloses, -⟩
    · exact absurd hindent hopening
    · obtain ⟨⟨used, rfl, hused⟩, hblocks, hissues⟩ :=
        ih (hts.opens.inline (Kind.ne_newline hopens))
      rw [skipBlockNewline_of_not_isLayout hcloses] at hskip
      refine ⟨⟨opening :: (used ++ [closing]), by simp [hskip], ?_⟩, ?_, hissues⟩
      · simp only [List.forall_mem_cons, List.forall_mem_append, List.not_mem_nil]
        exact ⟨hopens, hused, hcloses, by simp⟩
      · rw [Node.blocks, if_neg hopening, hblocks]
  | @unclosed opening k ts inside x _ hclose _ ih =>
    have hopening : opening.kind ≠ .indent := hts.head opening rfl
    rcases closer_cases hclose with ⟨hindent, -⟩ | ⟨hopens, hcloses, hunclosed⟩
    · exact absurd hindent hopening
    · obtain ⟨⟨used, rfl, hused⟩, hblocks, hissues⟩ :=
        ih (hts.opens.inline (Kind.ne_newline hopens))
      rw [skipBlockNewline_of_not_isLayout hcloses]
      refine ⟨⟨opening :: used, rfl, List.forall_mem_cons.mpr ⟨hopens, hused⟩⟩, ?_, ?_⟩
      · rw [Node.blocks, if_neg hopening, hblocks]
      · refine List.forall_mem_append.mpr ⟨hissues, fun i hi => ?_⟩
        rw [complaint_expect hi]
        exact hunclosed
  | @binary l op ts us rest x y _ _ hop _ _ ihx ihy =>
    have hlayout := Level.not_isLayout hop
    obtain ⟨⟨used, rfl, hused⟩, hblocks, hissues⟩ := ihx hts
    have hus : Inline us :=
      (hts.opens.suffix (List.suffix_append used (op :: us))).inline (Kind.ne_newline hlayout)
    obtain ⟨⟨used', rfl, hused'⟩, hblocks', hissues'⟩ := ihy hus
    refine ⟨⟨used ++ op :: used', by simp, ?_⟩, ?_, List.forall_mem_append.mpr ⟨hissues, hissues'⟩⟩
    · exact List.forall_mem_append.mpr ⟨hused, List.forall_mem_cons.mpr ⟨hlayout, hused'⟩⟩
    · rw [Node.blocks, hblocks, hblocks']
      rfl
  | operand _ ih => exact ih hts

/-- A group holds no block, whether it is one or not, and a block has an end ahead. -/
theorem within_group {opening : Token} {k : Kind} {inside : List Token}
    (hts : LaidOut (opening :: ts)) (hclose : closer? opening.kind = some k)
    (hx : Derives r ts n inside issues) (closing : Token) :
    ((Node.grouping opening n closing).blocks = [] ∨
      (Node.grouping opening n closing).blocks = [.grouping opening n closing]) ∧
    (∀ i ∈ issues, i.complaint.IsUnclosed) ∧
    ∀ i ∈ expect k (skipBlockNewline k inside), i.complaint.IsUnclosed := by
  have hopening : opening.kind ≠ .newline := by
    intro hnewline
    rw [hnewline] at hclose
    cases hclose
  obtain ⟨⟨used, rfl, hused⟩, hblocks, hissues⟩ := hx.within_line (hts.opens.inline hopening)
  refine ⟨?_, hissues, ?_⟩
  · rw [Node.blocks, hblocks]
    split
    · exact .inr rfl
    · exact .inl rfl
  · rcases closer_cases hclose with ⟨hindent, rfl⟩ | ⟨-, -, hunclosed⟩
    · obtain ⟨t, ht, hk⟩ := hts.dedent opening _ (List.suffix_refl _) hindent
      have hinside : t ∈ inside := mem_of_isLayout hused ht (by rw [hk]; rfl)
      -- the end of the block is not the line end that may be skipped
      have hskipped : t ∈ skipBlockNewline .dedent inside := by
        rcases skipBlockNewline_cases .dedent inside with hskip | ⟨u, hu, hskip⟩
        · rwa [hskip]
        · rw [hskip] at hinside
          refine (List.mem_cons.mp hinside).resolve_left ?_
          rintro rfl
          rw [hk] at hu
          cases hu
      rw [expect_of_mem ⟨t, hskipped, hk⟩]
      simp
    · intro i hi
      rw [complaint_expect hi]
      exact hunclosed

/-- **The only block of an expression is its first operand**, and it is closed. -/
theorem block_first (h : Derives r ts n rest issues) (hts : LaidOut ts) :
    (n.blocks = [] ∨ n.blocks = [n.first]) ∧ ∀ i ∈ issues, i.complaint.IsUnclosed := by
  induction h with
  | missing => exact ⟨.inl rfl, by simp⟩
  | literal => exact ⟨.inl rfl, by simp⟩
  | unary hop hx _ =>
    obtain ⟨-, hblocks, hissues⟩ :=
      hx.within_line (hts.opens.inline (Kind.ne_newline (not_isLayout_of_sign hop)))
    exact ⟨.inl hblocks, hissues⟩
  | closed hclose hx _ _ =>
    obtain ⟨hblocks, hissues, -⟩ := within_group hts hclose hx _
    exact ⟨hblocks, hissues⟩
  | unclosed hclose hx _ =>
    obtain ⟨hblocks, hissues, hexpect⟩ := within_group hts hclose hx _
    exact ⟨hblocks, List.forall_mem_append.mpr ⟨hissues, hexpect⟩⟩
  | binary hop hx hy ihx _ =>
    obtain ⟨hblocks, hissues⟩ := ihx hts
    obtain ⟨-, hblocks', hissues'⟩ := hy.within_line
      ((hts.opens.suffix hx.suffix).inline (Kind.ne_newline (Level.not_isLayout hop)))
    rw [Node.blocks, hblocks', List.append_nil]
    exact ⟨hblocks, List.forall_mem_append.mpr ⟨hissues, hissues'⟩⟩
  | operand _ ih => exact ih hts

end Derives

/-! ## Statements and programs -/

theorem parseStatement_laidOut {ts : List Token} (hts : LaidOut ts) :
    (parseStatement ts).value.BlockFirst ∧
      ∀ i ∈ (parseStatement ts).issues, i.complaint.IsUnclosed := by
  rcases parseStatement_cases ts with ⟨t, more, rfl, ht, hparse⟩ | ⟨-, hparse⟩
  · rw [hparse]
    have hlayout : t.kind.isLayout = false := by rw [ht]; rfl
    obtain ⟨⟨used, hused, hline⟩, hblocks, hissues⟩ :=
      (derives_parseExpression more).within_line (hts.opens.inline (Kind.ne_newline hlayout))
    obtain ⟨u, hu, hk⟩ := hts.newline t more (List.suffix_refl _) hlayout
    have hrest : u ∈ (parseExpression more).rest :=
      mem_of_isLayout hline (hused ▸ hu) (by rw [hk]; rfl)
    rw [expect_of_mem ⟨u, hrest, hk⟩, List.append_nil]
    exact ⟨.inl ⟨_, rfl, hblocks⟩, hissues⟩
  · rw [hparse]
    obtain ⟨hblocks, hissues⟩ := (derives_parseExpression ts).block_first hts
    exact ⟨.inr ⟨_, rfl, hblocks⟩, hissues⟩

theorem parseProgram_laidOut {ts : List Token} (hts : LaidOut ts) :
    (∀ n ∈ (parseProgram ts).value, n.BlockFirst) ∧
      ∀ i ∈ (parseProgram ts).issues,
        i.complaint.IsUnclosed ∨ ∃ k, i.complaint = .unexpected k := by
  fun_induction parseProgram ts with
  | case1 t next more statement hlt program ih =>
    obtain ⟨hblocks, hissues⟩ := parseStatement_laidOut hts
    obtain ⟨hblocks', hissues'⟩ := ih (hts.suffix (parseStatement_suffix _))
    exact ⟨List.forall_mem_cons.mpr ⟨hblocks, hblocks'⟩,
      List.forall_mem_append.mpr ⟨fun i hi => .inl (hissues i hi), hissues'⟩⟩
  | case2 t next more statement hlt program ih =>
    obtain ⟨-, hissues⟩ := parseStatement_laidOut hts
    obtain ⟨hblocks', hissues'⟩ := ih (hts.suffix (List.suffix_cons _ _))
    exact ⟨hblocks', List.forall_mem_append.mpr ⟨fun i hi => .inl (hissues i hi),
      List.forall_mem_cons.mpr ⟨.inr ⟨_, rfl⟩, hissues'⟩⟩⟩
  | case3 ts _ => simp

/-! ## Sources -/

/-- Behind the first token in front of a line there are only ends of blocks. -/
theorem IsFront.kind_of_mem {t : Token} {ts : List Token} (h : IsFront (t :: ts)) :
    ∀ u ∈ ts, u.kind = .dedent := by
  obtain ⟨opened, closed, hopened, hkinds⟩ := h
  rw [List.map_cons] at hkinds
  intro u hu
  have hmem : u.kind ∈ ts.map Token.kind := List.mem_map_of_mem hu
  rcases Nat.le_one_iff_eq_zero_or_eq_one.mp hopened with rfl | rfl
  · have hall : u.kind ∈ t.kind :: ts.map Token.kind := List.mem_cons_of_mem _ hmem
    rw [hkinds, List.replicate_zero, List.nil_append] at hall
    exact List.eq_of_mem_replicate hall
  · rw [List.replicate_one, List.singleton_append] at hkinds
    rw [(List.cons.inj hkinds).2] at hmem
    exact List.eq_of_mem_replicate hmem

/-- A block is opened only by the first token of a line. -/
theorem Line.not_indent_of_mem_tail (l : Line) : ∀ t ∈ l.tokens.tail, t.kind ≠ .indent := by
  have hbody : ∀ t ∈ l.body ++ [l.newline], t.kind ≠ .indent := by
    intro t ht hk
    rcases List.mem_append.mp ht with ht | ht
    · have hlayout := (l.lexemes t ht).not_isLayout
      rw [hk] at hlayout
      cases hlayout
    · rw [List.mem_singleton.mp ht, l.isNewline] at hk
      cases hk
  have hfront := l.isFront
  rw [tokens, Draft.tokens, List.append_assoc]
  cases hcons : l.front with
  | nil => exact fun t ht => hbody t (List.mem_of_mem_tail ht)
  | cons u us =>
    rw [hcons] at hfront
    have hus : ∀ t ∈ us, t.kind ≠ .indent := fun t ht hk => by
      rw [hfront.kind_of_mem t ht] at hk
      cases hk
    exact List.forall_mem_append.mpr ⟨hus, hbody⟩

/-- Tokens of which none but the first opens a block. -/
theorem opensAtLines_of_tail {ts : List Token} (h : ∀ t ∈ ts.tail, t.kind ≠ .indent) :
    OpensAtLines ts := by
  induction ts with
  | nil => exact .nil
  | cons t ts ih =>
    refine List.isChain_cons.mpr ⟨fun u hu hk => absurd hk (h u (List.mem_of_mem_head? hu)), ?_⟩
    exact ih fun u hu => h u (List.mem_of_mem_tail hu)

theorem opensAtLines_lines (lines : List Line) {ends : List Token}
    (hends : ∀ t ∈ ends, t.kind = .dedent) : OpensAtLines (lines.flatMap Line.tokens ++ ends) := by
  induction lines with
  | nil =>
    refine opensAtLines_of_tail fun t ht hk => ?_
    rw [hends t (List.mem_of_mem_tail ht)] at hk
    cases hk
  | cons l lines ih =>
    rw [List.flatMap_cons, List.append_assoc]
    refine List.isChain_append.mpr ⟨opensAtLines_of_tail l.not_indent_of_mem_tail, ih, ?_⟩
    intro t ht u _ _
    rw [Line.tokens, List.getLast?_concat, Option.mem_some_iff] at ht
    rw [← ht]
    exact l.isNewline

/-- Behind a lexeme of lines there is the end of the last of them. -/
theorem exists_newline_of_lines (lines : List Line) {ends : List Token}
    (hends : ∀ t ∈ ends, t.kind = .dedent) {t : Token} {more : List Token}
    (hmore : t :: more <:+ lines.flatMap Line.tokens ++ ends) (ht : t.kind.isLayout = false) :
    ∃ u ∈ more, u.kind = .newline := by
  have hlayout : ∀ u : Token, u.kind = .newline ∨ u.kind = .dedent → t ≠ u := by
    rintro u (hu | hu) rfl
    · rw [hu] at ht
      cases ht
    · rw [hu] at ht
      cases ht
  rcases List.eq_nil_or_concat lines with rfl | ⟨front, l, rfl⟩
  · have hmem : t ∈ ends := hmore.subset List.mem_cons_self
    exact absurd rfl (hlayout t (.inr (hends t hmem)))
  · have hlast : l.newline :: ends <:+ (front.concat l).flatMap Line.tokens ++ ends := by
      rw [List.concat_eq_append, List.flatMap_append, List.flatMap_singleton, Line.tokens]
      exact ⟨front.flatMap Line.tokens ++ l.toDraft.tokens, by simp⟩
    rcases List.suffix_or_suffix_of_suffix hmore hlast with hsuffix | hsuffix
    · rcases List.mem_cons.mp (hsuffix.subset List.mem_cons_self) with heq | hmem
      · exact absurd heq (hlayout _ (.inl l.isNewline))
      · exact absurd rfl (hlayout t (.inr (hends t hmem)))
    · rcases List.suffix_cons_iff.mp hsuffix with heq | hsuffix
      · exact absurd (List.cons.inj heq).1.symm (hlayout _ (.inl l.isNewline))
      · exact ⟨l.newline, hsuffix.subset List.mem_cons_self, l.isNewline⟩

namespace Scanner

variable {s : Scanner}

/-- Behind what opens a block there is something that closes one. -/
theorem exists_dedent_tokenize {t : Token} {more : List Token}
    (hmore : t :: more <:+ s.tokenize.tokens) (ht : t.kind = .indent) :
    ∃ u ∈ more, u.kind = .dedent := by
  obtain ⟨front, hfront⟩ := hmore
  have hcounted := s.counted_tokenize
  have hbefore := hcounted.fronts front ⟨_, hfront⟩
  have hall := hcounted.openBlocks
  rw [openBlocks_tokenize, ← hfront, tally_append, tally_append, tally_cons, tally_cons, ht,
    if_neg (by decide), if_pos rfl] at hall
  have hpos : 0 < tally .dedent more := by omega
  obtain ⟨u, hu, hk⟩ := List.countP_pos_iff.mp hpos
  exact ⟨u, hu, beq_iff_eq.mp hk⟩

/-- **Without a report, a source is scanned to tokens that are laid out.** -/
theorem laidOut_tokenize (h : s.tokenize.failed = false) : LaidOut s.tokenize.tokens := by
  obtain ⟨lines, ends, htokens, hends, -⟩ := exists_lines h
  refine ⟨?_, fun t more hmore ht => ?_, fun t more hmore => exists_dedent_tokenize hmore⟩
  · rw [htokens]
    exact opensAtLines_lines lines hends
  · rw [htokens] at hmore
    exact exists_newline_of_lines lines hends hmore ht

end Scanner

/-- **The layout of a source is one that the grammar can follow.** If a source is scanned without a
report, all that is reported of its tokens is that a parenthesis or a bracket is not closed, or that
a token starts no statement: no line end is missed, and no end of a block. There is no block in what
is printed, and none in another statement but its first operand. -/
theorem layout_agrees (s : Scanner) (p : Parser) (hp : p.tokens = s.tokenize.tokens)
    (hscanned : s.tokenize.failed = false) :
    (∃ new : List Diagnostic, p.parse.2.reports = p.reports ++ new ∧
      ∀ d ∈ new, d.stage = Diagnostic.parsing ∧
      d.message ≠ "expected token of type NEWLINE" ∧ d.message ≠ "expected token of type DEDENT" ∧
      (d.message = "expected token of type RIGHT_PAREN" ∨
        d.message = "expected token of type RIGHT_BRACKET" ∨
        ∃ k : Kind, d.message = "unexpected token " ++ k.name)) ∧
    ∀ n ∈ p.parse.1, (∃ e, n = .print e ∧ e.blocks = []) ∨
      ∃ e, n = .expression e ∧ (e.blocks = [] ∨ e.blocks = [e.first]) := by
  obtain ⟨hvalue, hreports, -, -⟩ := p.parse_eq
  have hlaidOut : LaidOut p.tokens := hp ▸ Scanner.laidOut_tokenize hscanned
  obtain ⟨hblocks, hissues⟩ := parseProgram_laidOut hlaidOut
  refine ⟨⟨_, hreports, fun d hd => ?_⟩, hvalue ▸ hblocks⟩
  obtain ⟨i, hi, rfl⟩ := List.mem_map.mp hd
  refine ⟨rfl, ?_⟩
  dsimp only [Issue.diagnostic]
  rcases hissues i hi with (hk | hk) | ⟨k, hk⟩
  · rw [hk]
    exact ⟨by decide, by decide, .inl rfl⟩
  · rw [hk]
    exact ⟨by decide, by decide, .inr (.inl rfl)⟩
  · rw [hk]
    refine ⟨?_, ?_, .inr (.inr ⟨k, rfl⟩)⟩ <;> cases k <;> decide

/-- In a source with a block that an operator goes on with, a comma at which no statement starts and
a parenthesis that is not closed, the block is the first operand of the first statement. -/
theorem layout_agrees_sample :
    let s := Scanner.ofSource "  a\n+ b , (c\n" {}
    let p := Parser.ofTokens s.tokenize.tokens s.tokenize.reports
    s.tokenize.failed = false ∧
      p.parse.2.reports.records.map Diagnostic.message =
        ["unexpected token COMMA", "expected token of type RIGHT_PAREN"] ∧
      p.parse.1.map (·.blocks.length) = [1, 0] ∧
      ∀ n ∈ p.parse.1, (∃ e, n = .print e ∧ e.blocks = []) ∨
        ∃ e, n = .expression e ∧ (e.blocks = [] ∨ e.blocks = [e.first]) := by
  intro s p
  have hscanned : s.tokenize.failed = false := by decide +kernel
  exact ⟨hscanned, by decide +kernel, by decide +kernel, (layout_agrees s p rfl hscanned).2⟩

end Scriptlet
