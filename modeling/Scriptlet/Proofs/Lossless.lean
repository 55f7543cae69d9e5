import Scriptlet.Proofs.Round

/-!
# Nothing of a source is lost

A source that scans without a report is its tokens' lexemes with gaps between them.

* `Gap`: white space and comments.
* `Lexed`: lexemes in order, with gaps between, each as long as it can be.
* `tokenize_lossless`: a source without reports is `Lexed` to its tokens, and there is no token
  exactly when all of it is a gap.
-/

namespace Scriptlet

/-! ## Gaps -/

/-- White space and comments in front of a text. A comment goes up to a line end or the end of the
source. -/
inductive Gap (next : List Char) : List Char → Prop
  | nil : Gap next []
  | blank {c : Char} {gap : List Char} : Text.isBlank c = true → Gap next gap →
      Gap next (c :: gap)
  | comment {body gap : List Char} : '\n' ∉ body → (∀ c ∈ (gap ++ next).head?, c = '\n') →
      Gap next gap → Gap next ('#' :: body ++ gap)

theorem Gap.append {next g g' : List Char} (h : Gap (g' ++ next) g) (h' : Gap next g') :
    Gap next (g ++ g') := by
  induction h with
  | nil => exact h'
  | blank hc _ ih => exact .blank hc ih
  | comment hbody hend _ ih =>
    rw [List.append_assoc]
    exact .comment hbody (by rwa [List.append_assoc]) ih

theorem Gap.of_blanks {next blanks : List Char}
    (h : ∀ c ∈ blanks, Scanner.isInlineBlank c = true) : Gap next blanks := by
  induction blanks with
  | nil => exact .nil
  | cons c cs ih =>
    have hc : Text.isBlank c = true := by
      have := h c List.mem_cons_self
      simp only [Scanner.isInlineBlank, Bool.and_eq_true] at this
      exact this.1
    exact .blank hc (ih fun d hd => h d (List.mem_cons_of_mem c hd))

theorem Gap.head {next gap : List Char} {c : Char} (h : Gap next (c :: gap)) :
    Text.isBlank c = true ∨ c = '#' := by
  cases h with
  | blank hc _ => exact .inl hc
  | comment => exact .inr rfl

theorem Gap.tail {next gap : List Char} {c : Char} (h : Gap next (c :: gap)) (hc : c ≠ '#') :
    Gap next gap := by
  cases h with
  | blank _ hgap => exact hgap
  | comment => exact absurd rfl hc

theorem Gap.of_append_blanks {next blanks gap : List Char} (h : Gap next (blanks ++ gap))
    (hblanks : ∀ c ∈ blanks, Scanner.isInlineBlank c = true) : Gap next gap := by
  induction blanks with
  | nil => exact h
  | cons c cs ih =>
    have hc : c ≠ '#' := by
      rintro rfl
      exact absurd (hblanks '#' List.mem_cons_self) (by decide)
    exact ih (h.tail hc) fun d hd => hblanks d (List.mem_cons_of_mem c hd)

/-- A comment is the text up to the first line end. -/
theorem dropWhile_body {body rest : List Char} (hbody : '\n' ∉ body)
    (hend : ∀ c ∈ rest.head?, c = '\n') : (body ++ rest).dropWhile (· != '\n') = rest := by
  rw [List.dropWhile_append_of_pos]
  · cases rest with
    | nil => rfl
    | cons c cs => rw [List.dropWhile_cons_of_neg (by simp [hend c rfl])]
  · intro c hc
    have : c ≠ '\n' := fun h => hbody (h ▸ hc)
    simpa using this

theorem Gap.of_comment {body gap : List Char} (h : Gap [] ('#' :: body ++ gap))
    (hbody : '\n' ∉ body) (hend : ∀ c ∈ gap.head?, c = '\n') : Gap [] gap := by
  generalize htext : '#' :: body ++ gap = text at h
  cases h with
  | nil => cases htext
  | blank hc _ =>
    cases htext
    exact absurd hc (by decide)
  | @comment body' gap' hbody' hend' hgap =>
    have hsame : body ++ gap = body' ++ gap' := (List.cons.inj htext).2
    have : gap = gap' := by
      rw [← dropWhile_body hbody hend, hsame, dropWhile_body hbody' (by simpa using hend')]
    rwa [this]

/-! ## Lexemes with gaps between -/

/-- The text is the lexemes of the tokens in order, with gaps before, between and after them. -/
inductive Lexed : List Token → List Char → Prop
  | done {gap : List Char} : Gap [] gap → Lexed [] gap
  | token {gap rest : List Char} {t : Token} {ts : List Token} :
      Gap (t.lexeme.toList ++ rest) gap → Lexeme t.kind t.lexeme.toList t.payload →
      Maximal t.kind t.lexeme.toList rest → Lexed ts rest →
      Lexed (t :: ts) (gap ++ (t.lexeme.toList ++ rest))

theorem Lexed.prepend {gap rest : List Char} {ts : List Token} (h : Lexed ts rest)
    (hgap : Gap rest gap) : Lexed ts (gap ++ rest) := by
  cases h with
  | done hdone => exact .done (.append (by simpa using hgap) hdone)
  | token hbefore hlex hmax hrest =>
    rw [← List.append_assoc]
    exact .token (.append hgap hbefore) hlex hmax hrest

/-- The tokens that a text stands for. -/
def lexical (ts : List Token) : List Token := ts.filter fun t => !t.kind.isLayout

/-- A token that no text stands for. -/
def Token.IsMarker (t : Token) : Prop :=
  t.kind.isLayout = true ∧ t.lexeme = "" ∧ t.payload = .null

theorem lexical_eq_nil {ts : List Token} (h : ∀ t ∈ ts, t.IsMarker) : lexical ts = [] := by
  refine List.filter_eq_nil_iff.mpr ?_
  intro t ht
  simp [(h t ht).1]

/-- In a gap, behind the white space of a line, there are only comments and line ends. -/
theorem Reads.of_gap {text rest : List Char} {item : Item} (h : Reads text item rest)
    (hgap : Gap [] (text ++ rest)) (hhead : ∀ c ∈ text.head?, Scanner.isInlineBlank c = false) :
    (item = .comment ∨ item = .newline) ∧ Gap [] rest := by
  have hfirst : ¬ ∀ c ∈ text.head?, c ∉ breaks := by
    cases text with
    | nil => exact absurd rfl h.text_ne_nil
    | cons c cs =>
      intro hne
      rcases hgap.head with hblank | hhash
      · have hinline := hhead c rfl
        simp only [Scanner.isInlineBlank, hblank, Bool.true_and, bne_eq_false_iff_eq] at hinline
        exact hne c rfl (by simp [breaks, hinline])
      · exact hne c rfl (by simp [breaks, hhash])
  cases h with
  | token hlex => exact absurd hlex.head_not_mem hfirst
  | numeral hnumber => exact absurd hnumber.head_not_mem hfirst
  | openString hopening =>
    refine absurd ?_ hfirst
    rintro c ⟨⟩
    exact not_mem_of_class hopening (by decide)
  | unknown hc =>
    refine absurd ?_ hfirst
    rintro c ⟨⟩ hmem
    simp only [breaks, List.mem_cons, List.not_mem_nil, or_false] at hmem
    rcases hmem with rfl | rfl
    · exact hc (by decide)
    · exact hc (by decide)
  | comment hbody hend => exact ⟨.inl rfl, hgap.of_comment hbody hend⟩
  | newline => exact ⟨.inr rfl, hgap.tail (by decide)⟩

namespace Scanner

/-! ## What each part of a round emits -/

theorem failed_close {s : Scanner} {e : Enclosure} (h : (s.close e).failed = false) :
    s.failed = false := by
  rcases s.close_cases e with ⟨n, -, hclose⟩ | ⟨-, hclose⟩
  · rw [hclose] at h
    exact h
  · rw [hclose] at h
    cases h

theorem emitted_close (s : Scanner) (e : Enclosure) :
    (s.close e).emitted = ⟨e.closer, e.closer.spelling, .null, s.tokenLine⟩ :: s.emitted := by
  rcases s.close_cases e with ⟨n, -, h⟩ | ⟨-, h⟩
  · rw [h]; rfl
  · rw [h]; rfl

/-- Without a report after it, an item was not a flaw and there was no report before. -/
theorem failed_perform {s : Scanner} {text : List Char} {item : Item}
    (h : (s.perform text item).failed = false) : s.failed = false ∧ ∀ f, item ≠ .flaw f := by
  unfold perform at h
  split at h
  · exact ⟨h, by simp⟩
  · exact ⟨failed_close h, by simp⟩
  · exact ⟨h, by simp⟩
  · exact ⟨failed_close h, by simp⟩
  · exact ⟨h, by simp⟩
  · exact ⟨h, by simp⟩
  · refine ⟨?_, by simp⟩
    unfold endLine at h
    split at h
    · exact h
    · exact h
  · cases h

/-- A token is emitted with the text it was read from. -/
theorem emitted_perform_token (s : Scanner) {text : List Char} {k : Kind} {p : Document}
    (h : Lexeme k text p) : (s.perform text (.token k p)).emitted =
      ⟨k, String.ofList text, p, s.tokenLine⟩ :: s.emitted := by
  by_cases hk : k ∈ Kind.brackets
  · have hsymbol : ∀ k ∈ Kind.brackets, k ∈ Kind.symbols := by decide
    obtain ⟨htext, hp⟩ := h.of_mem_symbols (hsymbol k hk)
    rw [htext, hp, String.ofList_toList]
    simp only [Kind.brackets, List.mem_cons, List.not_mem_nil, or_false] at hk
    rcases hk with rfl | rfl | rfl | rfl
    · rfl
    · exact emitted_close s .paren
    · rfl
    · exact emitted_close s .bracket
  · rw [perform_token s text p hk]
    rfl

theorem isMarker_newline (line : Nat) : Token.IsMarker ⟨.newline, "", .null, line⟩ :=
  ⟨rfl, rfl, rfl⟩

/-- A line end emits a marker or nothing. -/
theorem emitted_endLine (s : Scanner) :
    ∃ new, s.endLine.emitted = new ++ s.emitted ∧ ∀ t ∈ new, t.IsMarker := by
  unfold endLine
  split
  · exact ⟨[], rfl, by simp⟩
  · refine ⟨[⟨.newline, "", .null, s.tokenLine⟩], rfl, ?_⟩
    intro t ht
    rw [List.mem_singleton.mp ht]
    exact isMarker_newline s.tokenLine

theorem isMarker_of_mem_replicate {n line : Nat} {t : Token}
    (h : t ∈ List.replicate n ⟨.dedent, "", .null, line⟩) : t.IsMarker := by
  rw [List.eq_of_mem_replicate h]
  exact ⟨rfl, rfl, rfl⟩

/-- A layout emits markers. -/
theorem markers_begun (s : Scanner) :
    ∃ new, s.begun.emitted = new ++ s.emitted ∧ ∀ t ∈ new, t.IsMarker := by
  refine ⟨_, emitted_begun s, ?_⟩
  intro t ht
  obtain ⟨k, hk, rfl⟩ := List.mem_map.mp (List.mem_reverse.mp ht)
  rcases mem_marks_layouts hk with rfl | rfl
  · exact ⟨rfl, rfl, rfl⟩
  · exact ⟨rfl, rfl, rfl⟩

theorem failed_begun {s : Scanner} (h : s.begun.failed = false) : s.failed = false := by
  unfold begun laidOut at h
  split at h
  · split at h
    · exact h
    · cases h
  · exact h

/-! ## The run -/

/-- Between two states of a run, tokens are emitted for the text that remains at the first. -/
def Covers (s t : Scanner) : Prop :=
  ∃ new, t.emitted = new ++ s.emitted ∧ Lexed (lexical new.reverse) s.rest ∧
    ∀ t ∈ new, t.kind.isLayout = true → t.IsMarker

/-- Markers and a gap may come first. -/
theorem Covers.of_markers {s u t : Scanner} {gap : List Char} {ms : List Token}
    (h : u.Covers t) (hemitted : u.emitted = ms ++ s.emitted) (hms : ∀ t ∈ ms, t.IsMarker)
    (hrest : s.rest = gap ++ u.rest) (hgap : Gap u.rest gap) : s.Covers t := by
  obtain ⟨new, hnew, hlexed, hmarkers⟩ := h
  refine ⟨new ++ ms, by rw [hnew, hemitted, List.append_assoc], ?_, ?_⟩
  · have hnone : lexical ms.reverse = [] :=
      lexical_eq_nil fun t ht => hms t (List.mem_reverse.mp ht)
    have : lexical (new ++ ms).reverse = lexical new.reverse := by
      rw [List.reverse_append, lexical, List.filter_append]
      show lexical ms.reverse ++ lexical new.reverse = _
      rw [hnone, List.nil_append]
    rw [this, hrest]
    exact hlexed.prepend hgap
  · intro t ht hlayout
    rcases List.mem_append.mp ht with ht | ht
    · exact hmarkers t ht hlayout
    · exact hms t ht

/-- A token may come first, if it can be read there. -/
theorem Covers.of_token {s u t : Scanner} {tok : Token} (h : u.Covers t)
    (hemitted : u.emitted = tok :: s.emitted)
    (hlex : Lexeme tok.kind tok.lexeme.toList tok.payload)
    (hmax : Maximal tok.kind tok.lexeme.toList u.rest)
    (hrest : s.rest = tok.lexeme.toList ++ u.rest) : s.Covers t := by
  obtain ⟨new, hnew, hlexed, hmarkers⟩ := h
  refine ⟨new ++ [tok], ?_, ?_, ?_⟩
  · rw [hnew, hemitted, List.append_assoc]
    rfl
  · have : lexical (new ++ [tok]).reverse = tok :: lexical new.reverse := by
      rw [List.reverse_append, List.reverse_singleton, List.singleton_append, lexical,
        List.filter_cons_of_pos (by simp [hlex.not_isLayout])]
      rfl
    rw [this, hrest]
    exact .token .nil hlex hmax hlexed
  · intro t ht hlayout
    rcases List.mem_append.mp ht with ht | ht
    · exact hmarkers t ht hlayout
    · rw [List.mem_singleton.mp ht, hlex.not_isLayout] at hlayout
      cases hlayout

/-- What was read comes first, unless it was a flaw. -/
theorem Covers.of_reads {s t : Scanner} {text rest : List Char} {item : Item}
    {pos line column : Nat} (h : ((s.placed rest pos line column false).perform text item).Covers t)
    (hreads : Reads text item rest) (hrest : s.rest = text ++ rest) (hflaw : ∀ f, item ≠ .flaw f) :
    s.Covers t := by
  have hafter : ((s.placed rest pos line column false).perform text item).rest = rest :=
    rest_perform ..
  cases hreads with
  | token hlex hmax =>
    have hemitted := emitted_perform_token (s.placed rest pos line column false) hlex
    refine h.of_token hemitted (by simpa using hlex) ?_ ?_
    · rw [hafter]
      simpa using hmax
    · rw [hafter]
      simpa using hrest
  | comment hbody hend =>
    have hgap : Gap rest ('#' :: _ ++ []) := .comment hbody (by simpa using hend) .nil
    rw [List.append_nil] at hgap
    exact h.of_markers (List.nil_append _).symm (by simp) hrest hgap
  | newline =>
    obtain ⟨ms, hms, hmarkers⟩ := emitted_endLine (s.placed rest pos line column false)
    have hgap : Gap rest ['\n'] := .blank (by decide) .nil
    refine h.of_markers hms hmarkers ?_ (hafter ▸ hgap)
    rw [hafter]
    exact hrest
  | numeral => exact absurd rfl (hflaw _)
  | openString => exact absurd rfl (hflaw _)
  | unknown => exact absurd rfl (hflaw _)

/-- **A run without a report covers the text that remained.** The induction goes from the end of the
run back, since a lexeme is as long as it can be because of what follows it. -/
theorem scanAll_covers (s : Scanner) (h : s.scanAll.failed = false) :
    s.failed = false ∧ s.Covers s.scanAll := by
  induction s using rounds_induction with
  | ended s hrest =>
    rw [scanAll_of_nil hrest] at h ⊢
    exact ⟨h, [], rfl, by rw [hrest]; exact .done .nil, by simp⟩
  | next s hrest ih =>
    rw [scanAll_of_ne_nil hrest] at h ⊢
    obtain ⟨hfailed, hcovers⟩ := ih h
    obtain ⟨ms, hms, hmarkers⟩ := markers_begun s
    rcases round_cases s with ⟨pos, column, start, hblank, hround⟩ |
      ⟨blanks, text, item, rest, pos, line, column, hsplit, hblank, -, hreads, hround⟩
    · generalize s.round.scanAll = last at hcovers ⊢
      rw [hround] at hfailed hcovers
      exact ⟨failed_begun hfailed, hcovers.of_markers hms hmarkers (by simp [placed])
        (Gap.of_blanks hblank)⟩
    · generalize s.round.scanAll = last at hcovers ⊢
      rw [hround] at hfailed hcovers
      obtain ⟨hbegun, hflaw⟩ := failed_perform hfailed
      have hitem : (s.begun.placed (text ++ rest) pos line column false).Covers last :=
        Covers.of_reads hcovers hreads rfl hflaw
      exact ⟨failed_begun hbegun, hitem.of_markers hms hmarkers hsplit (Gap.of_blanks hblank)⟩

theorem atEmptyLine_of_gap {s : Scanner} (h : Gap [] s.rest) : s.atEmptyLine = true := by
  unfold atEmptyLine
  generalize s.rest = text at h
  induction h with
  | nil => rfl
  | @blank c gap hc _ ih =>
    by_cases hline : isInlineBlank c = true
    · rwa [List.dropWhile_cons_of_pos hline]
    · rw [List.dropWhile_cons_of_neg hline]
      simp only [isInlineBlank, hc, Bool.true_and, bne_iff_ne, not_not] at hline
      simp [hline]
  | comment =>
    rw [List.cons_append, List.dropWhile_cons_of_neg (by decide)]
    rfl

/-- **A run over a gap emits and reports nothing.** -/
theorem scanAll_of_gap (s : Scanner) (h : Gap [] s.rest) (hemitted : s.emitted = []) :
    s.scanAll.emitted = [] ∧ s.scanAll.failed = s.failed ∧
      s.scanAll.openBlocks = s.openBlocks := by
  induction s using rounds_induction with
  | ended s hrest =>
    rw [scanAll_of_nil hrest]
    exact ⟨hemitted, rfl, rfl⟩
  | next s hrest ih =>
    have hbegun : s.begun = s.markLine := by
      simp [begun, startsLine, atEmptyLine_of_gap h]
    rw [scanAll_of_ne_nil hrest]
    rcases round_cases s with ⟨pos, column, start, -, hround⟩ |
      ⟨blanks, text, item, rest, pos, line, column, hsplit, hblank, hhead, hreads, hround⟩
    · rw [hround, hbegun] at ih ⊢
      exact ih .nil hemitted
    · rw [hsplit] at h
      obtain ⟨hitem, hgap⟩ := hreads.of_gap (h.of_append_blanks hblank) hhead
      rw [hround, hbegun] at ih ⊢
      rcases hitem with rfl | rfl
      · exact ih hgap hemitted
      · have hline : ((s.markLine.placed rest pos line column false).perform text .newline) =
            (s.markLine.placed rest pos (line + 1) 1 true) := by
          simp [perform, endLine, placed, markLine, hemitted, breakLine]
        rw [hline] at ih ⊢
        exact ih hgap hemitted

theorem finish_of_emitted_nil {s : Scanner} (hemitted : s.emitted = [])
    (hblocks : s.openBlocks = 0) : s.finish = s := by
  simp [finish, hemitted, hblocks, closeBlocks]

/-- What the end of the source emits. -/
theorem emitted_finish (s : Scanner) :
    ∃ new, s.finish.emitted = new ++ s.emitted ∧ ∀ t ∈ new, t.IsMarker := by
  unfold finish
  dsimp only
  rw [closeBlocks_eq]
  split
  · exact ⟨_, rfl, fun t ht => isMarker_of_mem_replicate ht⟩
  · refine ⟨List.replicate s.openBlocks ⟨.dedent, "", .null, s.tokenLine⟩ ++
      [⟨.newline, "", .null, s.tokenLine⟩], ?_, ?_⟩
    · rw [List.append_assoc]
      rfl
    intro t ht
    rcases List.mem_append.mp ht with ht | ht
    · exact isMarker_of_mem_replicate ht
    · rw [List.mem_singleton.mp ht]
      exact isMarker_newline s.tokenLine

theorem failed_finish (s : Scanner) : s.finish.failed = s.failed := by
  unfold finish
  dsimp only
  rw [closeBlocks_eq]
  split
  · rfl
  · rfl

/-! ## The whole source -/

/-- Without a report, the tokens of a source are read off it with nothing left but gaps. -/
theorem lexed_tokens {s : Scanner} (h : s.tokenize.failed = false) :
    Lexed (lexical s.tokenize.tokens) s.source ∧
      ∀ t ∈ s.tokenize.tokens, t.kind.isLayout = true → t.IsMarker := by
  have hscan : s.reset.scanAll.failed = false := by rwa [tokenize, failed_finish] at h
  obtain ⟨-, new, hnew, hlexed, hmarkers⟩ := scanAll_covers s.reset hscan
  obtain ⟨ms, hms, hend⟩ := emitted_finish s.reset.scanAll
  have htokens : s.tokenize.tokens = new.reverse ++ ms.reverse := by
    rw [tokens, tokenize, hms, hnew, ← List.reverse_append]
    exact congrArg (fun l => (ms ++ l).reverse) (List.append_nil new)
  rw [htokens]
  refine ⟨?_, ?_⟩
  · have hnone : lexical ms.reverse = [] :=
      lexical_eq_nil fun t ht => hend t (List.mem_reverse.mp ht)
    rw [lexical, List.filter_append]
    show Lexed (lexical new.reverse ++ lexical ms.reverse) s.source
    rw [hnone, List.append_nil]
    exact hlexed
  · intro t ht hlayout
    rcases List.mem_append.mp ht with ht | ht
    · exact hmarkers t (List.mem_reverse.mp ht) hlayout
    · exact hend t (List.mem_reverse.mp ht)

theorem tokenize_of_gap {s : Scanner} (h : Gap [] s.source) :
    s.tokenize.tokens = [] ∧ s.tokenize.failed = false := by
  obtain ⟨hemitted, hfailed, hblocks⟩ := scanAll_of_gap s.reset h rfl
  have hfinish : s.tokenize = s.reset.scanAll := finish_of_emitted_nil hemitted hblocks
  rw [hfinish, tokens, hemitted]
  exact ⟨rfl, hfailed⟩

/-- **Lossless scanning.** A source without reports is, in order, the lexemes of its tokens with
gaps of white space and comments before, between and after them. Each lexeme belongs to its token's
kind with its token's payload and is as long as it can be, and the tokens of lines and blocks have
no text. There are no tokens and no reports exactly when the whole source is a gap. -/
theorem tokenize_lossless (s : Scanner) :
    (s.tokenize.failed = false →
      Lexed (lexical s.tokenize.tokens) s.source ∧
        ∀ t ∈ s.tokenize.tokens, t.kind.isLayout = true → t.lexeme = "" ∧ t.payload = .null) ∧
    (s.tokenize.tokens = [] ∧ s.tokenize.failed = false ↔ Gap [] s.source) := by
  refine ⟨fun h => ?_, ⟨fun ⟨hnone, hfailed⟩ => ?_, tokenize_of_gap⟩⟩
  · obtain ⟨hlexed, hmarkers⟩ := lexed_tokens h
    exact ⟨hlexed, fun t ht hlayout => (hmarkers t ht hlayout).2⟩
  · have hlexed := (lexed_tokens hfailed).1
    rw [hnone] at hlexed
    cases hlexed with
    | done hgap => exact hgap

/-- A source with a comment, an escape, a block and operators that `=` goes on. -/
theorem tokenize_lossless_sample :
    let s := Scanner.ofSource "print x1>=_y # less\n\tnot true^-\"a\\n\"\n" {}
    s.tokenize.failed = false ∧
      (lexical s.tokenize.tokens).map Token.lexeme =
        ["print", "x1", ">=", "_y", "not", "true", "^", "-", "\"a\\n\""] ∧
      Lexed (lexical s.tokenize.tokens) s.source :=
  ⟨by decide +kernel, by decide +kernel, ((tokenize_lossless _).1 (by decide +kernel)).1⟩

end Scanner

end Scriptlet
