import Mathlib.Data.List.Chain
import Scriptlet.Proofs.Record
import Scriptlet.Proofs.Session

/-!
# Lines of tokens

What a source is scanned to, seen as lines.

* `Line`: tokens that open and close blocks, lexemes of the source, and a line end.
* `Scanner.Written`: the tokens so far are lines, and perhaps a line that is not ended. A round
  keeps that (`Written.round`), and so does the whole run (`scanAll_written`).
* `Scanner.exists_lines`: without a report, a source is scanned to lines and the ends of blocks.
* `Scanner.Spaced`: line ends come neither first nor twice in a row, reports or not.

`tokenize_gives_lines` puts these together.
-/

namespace Scriptlet

/-- No parenthesis and no bracket is open behind the tokens. -/
def Closed (ts : List Token) : Prop :=
  depth .leftParen .rightParen ts = 0 ∧ depth .leftBracket .rightBracket ts = 0

/-- What can stand in front of a line: at most one token that opens a block, and then tokens that
close blocks. -/
def IsFront (ts : List Token) : Prop :=
  ∃ opened closed, opened ≤ 1 ∧
    ts.map Token.kind = List.replicate opened .indent ++ List.replicate closed .dedent

/-- A line that may go on. -/
structure Draft where
  front : List Token
  body : List Token
  isFront : IsFront front
  body_ne_nil : body ≠ []
  lexemes : ∀ t ∈ body, Lexeme t.kind t.lexeme.toList t.payload

/-- A line that is ended. -/
structure Line extends Draft where
  newline : Token
  isNewline : newline.kind = .newline

/-- The tokens of a line so far. -/
def Draft.tokens (d : Draft) : List Token := d.front ++ d.body

/-- The line with an end. -/
def Draft.ended (d : Draft) (t : Token) (h : t.kind = .newline) : Line := ⟨d, t, h⟩

/-- The tokens of a line. -/
def Line.tokens (l : Line) : List Token := l.toDraft.tokens ++ [l.newline]

theorem isFront_nil : IsFront [] := ⟨0, 0, by simp⟩

theorem IsFront.isLayout {ts : List Token} (h : IsFront ts) : ∀ t ∈ ts, t.kind.isLayout = true := by
  obtain ⟨opened, closed, -, hkinds⟩ := h
  intro t ht
  have hmem : t.kind ∈ ts.map Token.kind := List.mem_map_of_mem ht
  rw [hkinds] at hmem
  rcases List.mem_append.mp hmem with hmem | hmem
  · rw [List.eq_of_mem_replicate hmem]
    rfl
  · rw [List.eq_of_mem_replicate hmem]
    rfl

/-- The lexemes of a line are its tokens that a text stands for. -/
theorem Line.lexical_tokens (l : Line) : lexical l.tokens = l.body := by
  have hfront : lexical l.front = [] := by
    refine List.filter_eq_nil_iff.mpr fun t ht => ?_
    simp [l.isFront.isLayout t ht]
  have hbody : lexical l.body = l.body := by
    refine List.filter_eq_self.mpr fun t ht => ?_
    simp [(l.lexemes t ht).not_isLayout]
  have hnewline : lexical [l.newline] = [] := by simp [lexical, Kind.isLayout, l.isNewline]
  unfold lexical at *
  rw [tokens, Draft.tokens, List.filter_append, List.filter_append, hfront, hbody, hnewline,
    List.nil_append, List.append_nil]

/-- The tokens of a layout are the front of a line. -/
theorem Margin.isFront_marks (m : Margin) (width line : Nat) :
    IsFront ((m.layOut width).marks.map fun k => ⟨k, "", .null, line⟩) := by
  have hkinds : ∀ ks : List Kind,
      (ks.map fun k => (⟨k, "", .null, line⟩ : Token)).map Token.kind = ks := by
    intro ks
    rw [List.map_map]
    exact List.map_id ks
  unfold layOut
  split
  · exact isFront_nil
  · refine ⟨_, _, ?_, hkinds _⟩
    split <;> omega

namespace Scanner

/-- The tokens that are emitted in front of the next item. -/
def front (s : Scanner) : List Token :=
  (s.layouts.flatMap Layout.marks).map fun k => ⟨k, "", .null, s.line⟩

theorem tokens_begun (s : Scanner) : s.begun.tokens = s.tokens ++ s.front := by
  rw [tokens, emitted_begun, List.reverse_append, List.reverse_reverse]
  rfl

theorem isFront_front (s : Scanner) : IsFront s.front := by
  unfold front layouts
  split
  · rw [List.flatMap_singleton]
    exact s.margin.isFront_marks _ s.line
  · exact isFront_nil

theorem begun_of_not_startsLine {s : Scanner} (h : s.startsLine = false) :
    s.begun = s.markLine := by
  simp [begun, h]

theorem front_eq_nil {s : Scanner} (h : s.startsLine = false) : s.front = [] := by
  rw [front, layouts, h]
  rfl

/-- A line that has a layout starts neither with a comment nor with a line end. -/
theorem startsLine_eq_false {s : Scanner} {blanks text rest : List Char} {item : Item}
    (hsplit : s.rest = blanks ++ (text ++ rest))
    (hblanks : ∀ c ∈ blanks, isInlineBlank c = true) (hreads : Reads text item rest)
    (hitem : item = .comment ∨ item = .newline) : s.startsLine = false := by
  have hempty : s.atEmptyLine = true := by
    unfold atEmptyLine
    rw [hsplit, List.dropWhile_append_of_pos hblanks]
    rcases hitem with rfl | rfl
    · cases hreads
      rw [List.cons_append, List.dropWhile_cons_of_neg (by decide)]
      rfl
    · cases hreads
      rfl
  rw [startsLine, hempty]
  simp

/-! ## What has been written -/

/-- The tokens so far: lines, at the end of each of which everything is closed, and perhaps a line
that may go on. There is none of the latter at the start of a line that has a layout. -/
structure Written (s : Scanner) (lines : List Line) (draft : Option Draft) : Prop where
  tokens : s.tokens = lines.flatMap Line.tokens ++ draft.elim [] Draft.tokens
  closed : ∀ front, front <+: lines → Closed (front.flatMap Line.tokens)
  fresh : s.rest ≠ [] → s.atLineStart = true → s.nested = false → draft = none

/-- There is nothing to end exactly if no line is begun. -/
theorem Written.ended {s : Scanner} {lines : List Line} {draft : Option Draft}
    (h : s.Written lines draft) :
    (s.emitted.isEmpty || s.endsWith .newline) = draft.isNone := by
  have hlast : (s.emitted.isEmpty || s.endsWith .newline) =
      s.tokens.getLast?.all (·.kind == .newline) := by
    rw [Scanner.tokens, List.getLast?_reverse, endsWith]
    cases s.emitted with
    | nil => rfl
    | cons t ts => rfl
  rw [hlast, h.tokens]
  cases draft with
  | none =>
    rw [Option.elim_none, List.append_nil]
    rcases List.eq_nil_or_concat lines with rfl | ⟨more, l, rfl⟩
    · rfl
    · rw [List.concat_eq_append, List.flatMap_append, List.flatMap_singleton, Line.tokens,
        ← List.append_assoc, List.getLast?_concat]
      simp [l.isNewline]
  | some d =>
    obtain ⟨more, t, hbody⟩ := (List.eq_nil_or_concat d.body).resolve_left d.body_ne_nil
    rw [List.concat_eq_append] at hbody
    have ht : t.kind ≠ .newline := by
      have hlayout := (d.lexemes t (by simp [hbody])).not_isLayout
      intro hk
      rw [hk] at hlayout
      cases hlayout
    rw [Option.elim_some, Draft.tokens, hbody, ← List.append_assoc, ← List.append_assoc,
      List.getLast?_concat]
    simp [ht]

theorem written_reset (s : Scanner) : s.reset.Written [] none := by
  refine ⟨rfl, fun front hfront => ?_, fun _ _ _ => rfl⟩
  rw [List.prefix_nil.mp hfront]
  exact ⟨rfl, rfl⟩

/-- A lexeme begins a line or goes on with one. -/
theorem Written.lexeme {s u : Scanner} {lines : List Line} {draft : Option Draft}
    (h : s.Written lines draft) {front : List Token} {t : Token}
    (htokens : u.tokens = s.tokens ++ front ++ [t]) (hfront : IsFront front)
    (hbegins : front = [] ∨ draft = none) (hlex : Lexeme t.kind t.lexeme.toList t.payload)
    (hstart : u.atLineStart = false) : ∃ draft', u.Written lines draft' := by
  have hfresh : ∀ draft' : Option Draft, u.rest ≠ [] → u.atLineStart = true → u.nested = false →
      draft' = none := by
    intro draft' _ hline
    rw [hstart] at hline
    cases hline
  have hlexeme : ∀ u ∈ [t], Lexeme u.kind u.lexeme.toList u.payload := by
    intro u hu
    rw [List.mem_singleton.mp hu]
    exact hlex
  cases draft with
  | none =>
    refine ⟨some ⟨front, [t], hfront, by simp, hlexeme⟩, ?_, h.closed, hfresh _⟩
    rw [htokens, h.tokens, Option.elim_none, List.append_nil, List.append_assoc]
    rfl
  | some d =>
    have hnone : front = [] := hbegins.resolve_right (by simp)
    refine ⟨some ⟨d.front, d.body ++ [t], d.isFront, by simp, ?_⟩, ?_, h.closed, hfresh _⟩
    · intro u hu
      rcases List.mem_append.mp hu with hu | hu
      · exact d.lexemes u hu
      · exact hlexeme u hu
    · rw [htokens, h.tokens, hnone, List.append_nil]
      simp only [Option.elim_some, Draft.tokens, List.append_assoc]

theorem Counted.closed {s : Scanner} (h : s.Counted) (hnested : s.nested = false) :
    Closed s.tokens := by
  simp only [nested, Bool.or_eq_false_iff, decide_eq_false_iff_not, Nat.pos_iff_ne_zero,
    not_not] at hnested
  exact ⟨h.openParens.symm.trans hnested.1, h.openBrackets.symm.trans hnested.2⟩

/-- The tokens with a line end behind the line at hand. -/
theorem Written.concat {s : Scanner} {lines : List Line} {d : Draft} (h : s.Written lines (some d))
    {t : Token} (ht : t.kind = .newline) :
    s.tokens ++ [t] = (lines ++ [d.ended t ht]).flatMap Line.tokens := by
  rw [h.tokens, List.flatMap_append, List.flatMap_singleton, List.append_assoc]
  rfl

/-- A line end ends the line at hand if there is one and nothing is open. -/
theorem Written.endLine {s : Scanner} {lines : List Line} {draft : Option Draft}
    (h : s.Written lines draft) (hcounted : s.Counted) :
    ∃ lines' draft', s.endLine.Written lines' draft' := by
  unfold Scanner.endLine
  rw [h.ended]
  cases hend : draft.isNone || s.nested with
  | true =>
    refine ⟨lines, draft, h.tokens, h.closed, fun _ _ hnested => ?_⟩
    have hsame : s.nested = false := hnested
    rw [hsame, Bool.or_false] at hend
    exact Option.isNone_iff_eq_none.mp hend
  | false =>
    rw [Bool.or_eq_false_iff] at hend
    obtain ⟨d, rfl⟩ := Option.isSome_iff_exists.mp (Option.isNone_eq_false_iff.mp hend.1)
    obtain ⟨t, ht⟩ : ∃ t : Token, t = ⟨.newline, "", .null, s.tokenLine⟩ := ⟨_, rfl⟩
    have hkind : t.kind = .newline := by rw [ht]
    have hconcat := h.concat hkind
    refine ⟨lines ++ [d.ended t hkind], none, ?_, ?_, fun _ _ _ => rfl⟩
    · rw [Option.elim_none, List.append_nil, ← hconcat, ht]
      exact List.reverse_cons
    · intro front hfront
      rcases List.prefix_concat_iff.mp hfront with rfl | hfront
      · obtain ⟨hparens, hbrackets⟩ := hcounted.closed hend.2
        rw [← hconcat, Closed, depth_concat, depth_concat, hparens, hbrackets, hkind]
        exact ⟨rfl, rfl⟩
      · exact h.closed front hfront

/-! ## Rounds -/

/-- **A round goes on with the lines**, if it makes no report. -/
theorem Written.round {s : Scanner} {lines : List Line} {draft : Option Draft}
    (h : s.Written lines draft) (hcounted : s.Counted) (hrest : s.rest ≠ [])
    (hfailed : s.round.failed = false) : ∃ lines' draft', s.round.Written lines' draft' := by
  rcases round_cases s with ⟨pos, column, start, hblank, hround⟩ |
    ⟨blanks, text, item, rest, pos, line, column, hsplit, hblank, -, hreads, hround⟩
  · rw [begun_of_blank hblank] at hround
    rw [hround]
    exact ⟨lines, draft, h.tokens, h.closed, fun hrest => absurd rfl hrest⟩
  · obtain ⟨u, hu⟩ : ∃ u, u = s.begun.placed rest pos line column false := ⟨_, rfl⟩
    have hstart : u.atLineStart = false := by rw [hu]; rfl
    rw [hround, ← hu] at hfailed ⊢
    -- without a layout, nothing has been emitted in front of the item
    have hsame : s.startsLine = false → u.Written lines draft ∧ u.Counted := by
      intro hline
      rw [begun_of_not_startsLine hline] at hu
      rw [hu]
      exact ⟨⟨h.tokens, h.closed, fun _ hline => absurd hline (by simp [placed])⟩,
        hcounted.fronts, hcounted.openBlocks, hcounted.openParens, hcounted.openBrackets⟩
    cases hreads with
    | @token k _ _ p hlex =>
      have htokens : (u.perform text (.token k p)).tokens =
          s.tokens ++ s.front ++ [⟨k, String.ofList text, p, u.tokenLine⟩] := by
        rw [← tokens_begun, Scanner.tokens, emitted_perform_token u hlex, List.reverse_cons, hu]
        rfl
      have hbegins : s.front = [] ∨ draft = none := by
        cases hline : s.startsLine with
        | false => exact .inl (front_eq_nil hline)
        | true =>
          simp only [startsLine, Bool.and_eq_true, Bool.not_eq_true'] at hline
          exact .inr (h.fresh hrest hline.1.1 hline.2)
      have hinside : (u.perform text (.token k p)).atLineStart = false := by
        rw [(perform_frame u text _).2 (by simp), hstart]
      exact ⟨lines, h.lexeme htokens s.isFront_front hbegins (by simpa using hlex) hinside⟩
    | comment hbody hend =>
      have hline := startsLine_eq_false hsplit hblank (.comment hbody hend) (.inl rfl)
      exact ⟨lines, draft, (hsame hline).1⟩
    | newline =>
      have hline := startsLine_eq_false hsplit hblank .newline (.inr rfl)
      exact (hsame hline).1.endLine (hsame hline).2
    | numeral => exact absurd rfl ((failed_perform hfailed).2 _)
    | openString => exact absurd rfl ((failed_perform hfailed).2 _)
    | unknown => exact absurd rfl ((failed_perform hfailed).2 _)

/-- **A run goes on with the lines**, if it makes no report. -/
theorem scanAll_written (s : Scanner) {lines : List Line} {draft : Option Draft}
    (h : s.Written lines draft) (hcounted : s.Counted) (hfailed : s.scanAll.failed = false) :
    ∃ lines' draft', s.scanAll.Written lines' draft' := by
  induction s using rounds_induction generalizing lines draft with
  | ended s hrest =>
    rw [scanAll_of_nil hrest]
    exact ⟨lines, draft, h⟩
  | next s hrest ih =>
    rw [scanAll_of_ne_nil hrest] at hfailed ⊢
    obtain ⟨lines', draft', hround⟩ := h.round hcounted hrest (scanAll_covers s.round hfailed).1
    exact ih hround ((edits_round s).invariant Edit.counted hcounted) hfailed

/-! ## The whole source -/

/-- At the end of the source the line at hand is ended, whatever is open, and so are all blocks. -/
theorem Written.finish {s : Scanner} {lines : List Line} {draft : Option Draft}
    (h : s.Written lines draft) :
    ∃ lines' ends, s.finish.tokens = lines'.flatMap Line.tokens ++ ends ∧
      (∀ t ∈ ends, t.kind = .dedent) ∧
      ∀ front later, lines' = front ++ later → later ≠ [] → Closed (front.flatMap Line.tokens) := by
  have hclose : ∀ (u : Scanner) (lines' : List Line), u.tokens = lines'.flatMap Line.tokens →
      ∃ ends, (closeBlocks u.openBlocks u).tokens = lines'.flatMap Line.tokens ++ ends ∧
        ∀ t ∈ ends, t.kind = .dedent := by
    intro u lines' hu
    refine ⟨List.replicate u.openBlocks ⟨.dedent, "", .null, u.tokenLine⟩, ?_, ?_⟩
    · rw [closeBlocks_eq, ← hu]
      simp [Scanner.tokens]
    · intro t ht
      rw [List.eq_of_mem_replicate ht]
  unfold Scanner.finish
  rw [h.ended]
  cases draft with
  | none =>
    obtain ⟨ends, htokens, hends⟩ := hclose s lines (h.tokens.trans (List.append_nil _))
    refine ⟨lines, ends, htokens, hends, fun front later hlines _ => h.closed front ?_⟩
    exact hlines ▸ List.prefix_append front later
  | some d =>
    have hmark : (s.mark .newline).tokens =
        (lines ++ [d.ended ⟨.newline, "", .null, s.tokenLine⟩ rfl]).flatMap Line.tokens :=
      List.reverse_cons.trans (h.concat rfl)
    obtain ⟨ends, htokens, hends⟩ := hclose _ _ hmark
    refine ⟨_, ends, htokens, hends, fun front later hlines hlater => h.closed front ?_⟩
    -- a line stands behind the front part, so that part does not reach the last one
    obtain ⟨more, l, rfl⟩ := (List.eq_nil_or_concat later).resolve_left hlater
    rw [List.concat_eq_append, ← List.append_assoc] at hlines
    exact (List.append_inj' hlines rfl).1 ▸ List.prefix_append front more

/-- **Without a report, a source is scanned to lines**, and then to the ends of blocks. -/
theorem exists_lines {s : Scanner} (h : s.tokenize.failed = false) :
    ∃ (lines : List Line) (ends : List Token),
      s.tokenize.tokens = lines.flatMap Line.tokens ++ ends ∧ (∀ t ∈ ends, t.kind = .dedent) ∧
      ∀ front later, lines = front ++ later → later ≠ [] → Closed (front.flatMap Line.tokens) := by
  have hscan : s.reset.scanAll.failed = false := by rwa [tokenize, failed_finish] at h
  obtain ⟨lines, draft, hwritten⟩ := scanAll_written s.reset (written_reset s) s.counted_reset hscan
  exact hwritten.finish

/-- The lexemes of lines are the tokens that a text stands for. -/
theorem lexical_lines {lines : List Line} {ends : List Token} (h : ∀ t ∈ ends, t.kind = .dedent) :
    lexical (lines.flatMap Line.tokens ++ ends) = lines.flatMap (·.body) := by
  have hends : lexical ends = [] := by
    refine List.filter_eq_nil_iff.mpr fun t ht => ?_
    simp [h t ht, Kind.isLayout]
  unfold lexical at *
  rw [List.filter_append, hends, List.append_nil, List.filter_flatMap]
  exact List.flatMap_congr fun l _ => l.lexical_tokens

/-! ## Line ends -/

/-- Line ends are neither the first of the tokens nor two in a row. -/
structure Spaced (s : Scanner) : Prop where
  first : ∀ t ∈ s.emitted.getLast?, t.kind ≠ .newline
  apart : s.emitted.IsChain fun a b => b.kind = .newline → a.kind ≠ .newline

theorem Edit.spaced {s t : Scanner} (h : s.Edit t) (hs : s.Spaced) : t.Spaced := by
  cases h with
  | move h =>
    rw [h]
    exact ⟨hs.first, hs.apart⟩
  | emit t _ hnewline =>
    refine ⟨fun u hu => ?_, ?_⟩
    · rcases List.eq_nil_or_concat s.emitted with hnil | ⟨more, v, hconcat⟩
      · have hsame : t = u := by simpa [Scanner.emit, hnil] using hu
        rw [← hsame]
        exact fun hk => (hnewline hk).1 hnil
      · refine hs.first u ?_
        rw [List.concat_eq_append] at hconcat
        simpa [Scanner.emit, hconcat, List.getLast?_cons] using hu
    · refine List.isChain_cons.mpr ⟨fun u hu hk hnew => ?_, hs.apart⟩
      have hends := (hnewline hnew).2
      rw [endsWith, Option.mem_def.mp hu, Option.any_some, hk] at hends
      cases hends
  | remember width => exact ⟨hs.first, hs.apart⟩
  | report message => exact ⟨hs.first, hs.apart⟩

theorem spaced_tokenize (s : Scanner) : s.tokenize.Spaced := by
  refine (edits_tokenize s).invariant Edit.spaced ⟨?_, .nil⟩
  rintro t ⟨⟩

/-- **The shape of what a source is scanned to.** Line ends come neither first nor twice in a row.
Without a report, the tokens are lines and then the ends of blocks. In each line there is at most
one token that opens a block, and then some that close blocks; behind these there is at least one
lexeme, and behind the lexemes a line end. The lexemes of the lines are those of the source, in
order. At each line end but the last, all parentheses and brackets are closed. -/
theorem tokenize_gives_lines (s : Scanner) :
    (∀ t ∈ s.tokenize.tokens.head?, t.kind ≠ .newline) ∧
    (s.tokenize.tokens.IsChain fun a b => a.kind = .newline → b.kind ≠ .newline) ∧
    (s.tokenize.failed = false → ∃ (lines : List Line) (ends : List Token),
      s.tokenize.tokens = lines.flatMap Line.tokens ++ ends ∧ (∀ t ∈ ends, t.kind = .dedent) ∧
      Lexed (lines.flatMap (·.body)) s.source ∧
      ∀ front later, lines = front ++ later → later ≠ [] → Closed (front.flatMap Line.tokens)) := by
  obtain ⟨hfirst, hapart⟩ := s.spaced_tokenize
  refine ⟨?_, List.isChain_reverse.mpr hapart, fun h => ?_⟩
  · rw [tokens, List.head?_reverse]
    exact hfirst
  · obtain ⟨lines, ends, htokens, hends, hclosed⟩ := exists_lines h
    refine ⟨lines, ends, htokens, hends, ?_, hclosed⟩
    rw [← lexical_lines hends, ← htokens]
    exact (lexed_tokens h).1

/-- Blank lines, a comment, a group over several lines, a line that closes the block it opens, and
no line end at the end of the source. -/
theorem gives_lines_sample :
    let s := Scanner.ofSource "\n  a # b\n\n\t[c,\nd]\n  e\n   f\n  (g" {}
    s.tokenize.failed = false ∧
      s.tokenize.tokens.map Token.kind =
        [.indent, .identifier, .newline,
          .indent, .leftBracket, .identifier, .comma, .identifier, .rightBracket, .newline,
          .dedent, .identifier, .newline, .indent, .dedent, .identifier, .newline,
          .dedent, .leftParen, .identifier, .newline] ∧
      ∃ (lines : List Line) (ends : List Token),
        s.tokenize.tokens = lines.flatMap Line.tokens ++ ends ∧ (∀ t ∈ ends, t.kind = .dedent) ∧
        Lexed (lines.flatMap (·.body)) s.source ∧
        ∀ front later, lines = front ++ later → later ≠ [] →
          Closed (front.flatMap Line.tokens) := by
  intro s
  have hfailed : s.tokenize.failed = false := by decide +kernel
  exact ⟨hfailed, by decide +kernel, (tokenize_gives_lines s).2.2 hfailed⟩

end Scanner

end Scriptlet
