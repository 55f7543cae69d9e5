import Scriptlet.Proofs.Concatenation
import Scriptlet.Proofs.Parallel
import Scriptlet.Proofs.TokenLines

/-!
# What does not show

Blank lines, comments and what stands behind the last token of a line leave nothing, wherever the
line is.

* `Invisible`: white space, with or without a comment behind it.
* `Breaks`: a newline character of the source is taken for a line end. `breaks_iff_unquoted`: these
  are the newline characters that are not in strings.
* `scanAll_invisible`: what is invisible at the end of a line is passed with the line end.
  `Abreast.emptyLine`: if there is nothing else on the line, it leaves nothing.
* `Abreast.breaks`: two texts that are the same up to a line end are scanned alike up to there.
-/

namespace Scriptlet

open Scanner (isInlineBlank)

/-- White space within a line, and a comment behind it or none. -/
inductive Invisible : List Char → Prop
  | blanks {b : List Char} : (∀ c ∈ b, isInlineBlank c = true) → Invisible b
  | comment {b body : List Char} : (∀ c ∈ b, isInlineBlank c = true) → '\n' ∉ body →
      Invisible (b ++ '#' :: body)

namespace Invisible

theorem newline_not_mem {w : List Char} (h : Invisible w) : '\n' ∉ w := by
  have hblanks {b : List Char} (hb : ∀ c ∈ b, isInlineBlank c = true) : '\n' ∉ b :=
    fun hmem => absurd (hb _ hmem) (by decide)
  cases h with
  | blanks hb => exact hblanks hb
  | comment hb hbody => simp [hblanks hb, hbody]

theorem append {b w : List Char} (hb : ∀ c ∈ b, isInlineBlank c = true) (h : Invisible w) :
    Invisible (b ++ w) := by
  cases h with
  | blanks hw => exact .blanks fun c hc => (List.mem_append.mp hc).elim (hb c) (hw c)
  | comment hw hbody =>
    rw [← List.append_assoc]
    exact .comment (fun c hc => (List.mem_append.mp hc).elim (hb c) (hw c)) hbody

/-- Nothing that is invisible goes on a token. -/
theorem bounded {w : List Char} (h : Invisible w) (q : List Char) : Bounded (w ++ '\n' :: q) := by
  have hblanks {b rest : List Char} (hb : ∀ c ∈ b, isInlineBlank c = true)
      (hrest : Bounded rest) : Bounded (b ++ rest) := by
    cases b with
    | nil => exact hrest
    | cons d ds =>
      rintro c ⟨⟩
      have hc := hb d List.mem_cons_self
      simp only [isInlineBlank, Bool.and_eq_true] at hc
      exact .inl (by simp [hc])
  cases h with
  | blanks hb =>
    refine hblanks hb ?_
    rintro c ⟨⟩
    exact .inl (by decide)
  | comment hb =>
    rw [List.append_assoc]
    refine hblanks hb ?_
    rintro c ⟨⟩
    exact .inr rfl

end Invisible

namespace Scanner

variable {lined : Bool} {s t : Scanner}

/-! ## Line ends -/

theorem line_endLine (s : Scanner) : s.endLine.line = s.line + 1 := by
  unfold endLine
  dsimp only
  split
  · rfl
  · rfl

/-- A round counts the newline characters that it passes. -/
theorem line_round_of_passage {passed : List Char} {n : Nat} {p : Place} (hpassed : passed ≠ [])
    (hs : s.rest = passed ++ s.round.rest) (h : Passage .code passed n p) :
    s.round.line = s.line + n := by
  have hline := line_round hpassed hs
  have hbreaks := h.breaks
  omega

theorem scanAll_blanks {blanks q : List Char} (hblanks : ∀ c ∈ blanks, isInlineBlank c = true)
    (hrest : s.rest = blanks ++ '\n' :: q) : ∃ pos column,
      s.scanAll = (s.markLine.placed q pos s.line column false).endLine.scanAll := by
  have htakes : Takes ['\n'] .newline q := .of_reads .newline fun f hf => by cases hf
  have hbegun := begun_of_not_startsLine (startsLine_eq_false hrest hblanks htakes.reads (.inr rfl))
  obtain ⟨pos, line, column, hround⟩ := htakes.round_eq hrest hblanks (by rintro c ⟨⟩; decide)
  have hround' : s.round = (s.markLine.placed q pos line column false).endLine := by
    rw [hround, hbegun]
    rfl
  have hleft : s.round.rest = q := by
    rw [hround', rest_endLine]
    rfl
  have hline : line = s.line := by
    have hpassage := (passage_blanks hblanks).append .newline
    have hcount := line_round_of_passage (s := s) (by simp)
      (by rw [hleft, hrest, List.append_assoc]; rfl) hpassage
    rw [hround', line_endLine] at hcount
    have : line + 1 = s.line + (0 + 1) := hcount
    omega
  refine ⟨pos, column, ?_⟩
  rw [scanAll_of_ne_nil (by rw [hrest]; simp), hround', hline]

/-- **What is invisible is passed with the line end behind it.** -/
theorem scanAll_invisible {w q : List Char} (h : Invisible w) (hrest : s.rest = w ++ '\n' :: q) :
    ∃ pos column, s.scanAll = (s.markLine.placed q pos s.line column false).endLine.scanAll := by
  cases h with
  | blanks hblanks => exact scanAll_blanks hblanks hrest
  | @comment b body hblanks hbody =>
    rw [List.append_assoc] at hrest
    have htakes : Takes ('#' :: body) .comment ('\n' :: q) :=
      .of_reads (.comment hbody (by rintro c ⟨⟩; rfl)) fun f hf => by cases hf
    have hbegun :=
      begun_of_not_startsLine (startsLine_eq_false hrest hblanks htakes.reads (.inl rfl))
    obtain ⟨pos, line, column, hround⟩ := htakes.round_eq hrest hblanks (by rintro c ⟨⟩; decide)
    rw [hbegun] at hround
    have hround' : s.round = s.markLine.placed ('\n' :: q) pos line column false := hround
    have hleft : s.round.rest = [] ++ '\n' :: q := by rw [hround']; rfl
    have hpassage := (passage_blanks hblanks).append (.comment hbody)
    have hline := line_round_of_passage (s := s) (by simp)
      (by rw [hleft, hrest, List.append_assoc]; rfl) hpassage
    obtain ⟨pos', column', hscan⟩ := scanAll_blanks (by simp) hleft
    refine ⟨pos', column', ?_⟩
    rw [scanAll_of_ne_nil (by rw [hrest]; simp), hscan, hline, hround']
    rw [hround'] at hline
    have hline : line = s.line := hline
    rw [hline]
    rfl

/-- Past a line end on each side, two scanners are abreast again, at the start of a line. -/
theorem Abreast.lineEnd (h : Abreast lined s t) {v w q q' : List Char} (hv : Invisible v)
    (hw : Invisible w) (hs : s.rest = v ++ '\n' :: q) (ht : t.rest = w ++ '\n' :: q') :
    ∃ s' t', s.scanAll = s'.scanAll ∧ t.scanAll = t'.scanAll ∧ Abreast lined s' t' ∧
      s'.rest = q ∧ t'.rest = q' ∧ t'.AtStart := by
  obtain ⟨pos, column, hscan⟩ := scanAll_invisible hv hs
  obtain ⟨pos', column', hscan'⟩ := scanAll_invisible hw ht
  refine ⟨_, _, hscan, hscan', ⟨?_, fun hlined => ?_, ?_, ?_⟩, rest_endLine _, rest_endLine _,
    atStart_endLine _⟩
  · exact ((h.toSameRecord.markLine h.line).placed ..).endLine
  · rw [line_endLine, line_endLine]
    exact congrArg (· + 1) (h.line hlined)
  · rw [(sameBlocks_endLine _).margin, (sameBlocks_endLine _).margin]
    exact h.margin
  · rw [(context_endLine _).1, (context_endLine _).1]

/-- **An empty line leaves nothing**, at any margin and within groups. -/
theorem Abreast.emptyLine (h : Abreast false s t) (hstart : t.AtStart) {w q : List Char}
    (hw : Invisible w) (ht : t.rest = w ++ '\n' :: q) :
    ∃ t', t.scanAll = t'.scanAll ∧ Abreast false s t' ∧ t'.rest = q := by
  obtain ⟨pos, column, hscan⟩ := scanAll_invisible hw ht
  have hended : (t.emitted.isEmpty || t.endsWith .newline || t.nested) = true := by
    cases hnested : t.nested with
    | true => exact Bool.or_true _
    | false =>
      have hlast := hstart.ended hnested
      cases hemitted : t.emitted with
      | nil => rfl
      | cons last before =>
        rw [hemitted] at hlast
        simp [endsWith, hemitted, hlast last rfl]
  have hplaced : SameRecord false t (t.markLine.placed q pos t.line column false) :=
    ⟨rfl, rfl, rfl, by simp, rfl, rfl⟩
  refine ⟨_, hscan, ⟨?_, by simp, ?_, ?_⟩, rest_endLine _⟩
  · exact (h.toSameRecord.trans hplaced).trans (sameRecord_endLine hended)
  · rw [(sameBlocks_endLine _).margin]
    exact h.margin
  · rw [(context_endLine _).1, h.atLineStart, hstart.atLineStart]

/-! ## Newline characters -/

/-- The newline character in front of `q` is taken for a line end: the scanner comes to it between
two items. -/
def Breaks (s : Scanner) (q : List Char) : Prop :=
  ∃ u ∈ s.rounds, u.beginToken.rest = '\n' :: q

theorem breaks_iff {q : List Char} (hne : s.rest ≠ []) :
    s.Breaks q ↔ s.rest.dropWhile isInlineBlank = '\n' :: q ∨ s.round.Breaks q := by
  rw [Breaks, rounds, if_neg hne]
  simp only [Breaks, List.mem_cons, or_and_right, exists_or, exists_eq_left, rest_beginToken]

theorem Breaks.length_lt {q : List Char} (h : s.Breaks q) : q.length < s.rest.length := by
  induction s using rounds_induction with
  | ended s hnil =>
    obtain ⟨u, hu, -⟩ := h
    rw [rounds, if_pos hnil] at hu
    cases hu
  | next s hne ih =>
    rcases (breaks_iff hne).mp h with hhere | hlater
    · have hle := length_dropWhile_le isInlineBlank s.rest
      rw [hhere, List.length_cons] at hle
      omega
    · have := ih hlater
      have := length_rest_round_lt hne
      omega

/-- Where a newline character can be: behind blanks, behind the next item, or in it. -/
inductive Ahead (a q : List Char) : Prop
  | blanks : (∀ c ∈ a, isInlineBlank c = true) → Ahead a q
  | behind {blanks text a' : List Char} {item : Item} : a = blanks ++ (text ++ a') →
      (∀ c ∈ blanks, isInlineBlank c = true) → (∀ c ∈ text.head?, isInlineBlank c = false) →
      Takes text item (a' ++ '\n' :: q) → Ahead a q
  | within {blanks front back rest : List Char} {item : Item} : a = blanks ++ front → front ≠ [] →
      q = back ++ rest → (∀ c ∈ blanks, isInlineBlank c = true) →
      (∀ c ∈ front.head?, isInlineBlank c = false) → Takes (front ++ '\n' :: back) item rest →
      Ahead a q

theorem ahead {a q : List Char} (hs : s.rest = a ++ '\n' :: q) : Ahead a q := by
  obtain ⟨blanks, text, item, rest, hsplit, hblanks, hhead, htakes⟩ :=
    exists_takes_rest (s := s) ⟨'\n', by rw [hs]; simp, by decide⟩
  rw [hs] at hsplit
  rcases List.append_eq_append_iff.mp hsplit with ⟨b, rfl, -⟩ | ⟨front, rfl, hfront⟩
  · exact .blanks fun c hc => hblanks c (List.mem_append_left b hc)
  rcases List.append_eq_append_iff.mp hfront with ⟨a', rfl, rfl⟩ | ⟨back, rfl, hback⟩
  · exact .behind rfl hblanks hhead htakes
  cases back with
  | nil =>
    rw [List.append_nil] at hhead htakes
    obtain rfl : '\n' :: q = rest := hback
    have hfront : blanks ++ front = blanks ++ (front ++ []) := by rw [List.append_nil]
    exact .behind hfront hblanks hhead htakes
  | cons c back =>
    obtain ⟨rfl, rfl⟩ := List.cons.inj hback
    cases front with
    | nil => exact .blanks (by simpa using hblanks)
    | cons d ds => exact .within rfl (by simp) rfl hblanks hhead htakes

/-- The scanner comes to what is behind the next item once it has read the item. -/
theorem breaks_behind {blanks text rest q : List Char} {item : Item}
    (hs : s.rest = blanks ++ (text ++ rest)) (hblanks : ∀ c ∈ blanks, isInlineBlank c = true)
    (hhead : ∀ c ∈ text.head?, isInlineBlank c = false) (htakes : Takes text item rest)
    (hq : q.length < rest.length) : s.Breaks q ↔ s.round.Breaks q := by
  have hne := htakes.reads.text_ne_nil
  rw [breaks_iff (by rw [hs]; simp [hne]), or_iff_right]
  rw [hs, dropWhile_blanks hblanks hhead hne]
  intro heq
  have hlength := congrArg List.length heq
  have hpos := List.length_pos_of_ne_nil hne
  rw [List.length_append, List.length_cons] at hlength
  omega

/-- A newline character within an item is no line end. -/
theorem not_breaks_within {blanks front back rest : List Char} {item : Item}
    (hs : s.rest = blanks ++ (front ++ '\n' :: (back ++ rest))) (hfront : front ≠ [])
    (hblanks : ∀ c ∈ blanks, isInlineBlank c = true)
    (hhead : ∀ c ∈ front.head?, isInlineBlank c = false)
    (htakes : Takes (front ++ '\n' :: back) item rest) : ¬ s.Breaks (back ++ rest) := by
  have hne : s.rest ≠ [] := by rw [hs]; simp
  have hsplit : s.rest = blanks ++ ((front ++ '\n' :: back) ++ rest) := by
    rw [hs, List.append_assoc, List.cons_append]
  have hhead' : ∀ c ∈ (front ++ '\n' :: back).head?, isInlineBlank c = false := by
    rwa [List.head?_append_of_ne_nil _ hfront]
  obtain ⟨pos, line, column, hround⟩ := htakes.round_eq hsplit hblanks hhead'
  have hrest : s.round.rest = rest := by rw [hround, rest_perform]; rfl
  rw [breaks_iff hne, hs, dropWhile_blanks hblanks hhead hfront]
  rintro (heq | hlater)
  · have hlength := congrArg List.length heq
    have hpos := List.length_pos_of_ne_nil hfront
    rw [List.length_append] at hlength
    omega
  · have hlength := hlater.length_lt
    rw [hrest, List.length_append] at hlength
    omega

/-- **Scanning two texts up to a line end.** They are the same up to there, but for something
invisible in front of the line end of the second. -/
theorem Abreast.breaks (h : Abreast lined s t) {a w q q' : List Char}
    (hs : s.rest = a ++ '\n' :: q) (ht : t.rest = a ++ (w ++ '\n' :: q')) (hw : Invisible w)
    (hbreaks : s.Breaks q) :
    ∃ s' t', s.scanAll = s'.scanAll ∧ t.scanAll = t'.scanAll ∧ Abreast lined s' t' ∧
      s'.rest = q ∧ t'.rest = q' ∧ t'.AtStart := by
  induction s using rounds_induction generalizing t a with
  | ended s hnil => simp [hnil] at hs
  | next s hne ih =>
    cases ahead hs with
    | blanks ha =>
      exact h.lineEnd (.blanks ha) (.append ha hw) hs (by rw [ht, List.append_assoc])
    | @behind blanks text a' item ha hblanks hhead htakes =>
      have hsplit : s.rest = blanks ++ (text ++ (a' ++ '\n' :: q)) := by
        rw [hs, ha, List.append_assoc, List.append_assoc]
      have hsplit' : t.rest = blanks ++ (text ++ (a' ++ (w ++ '\n' :: q'))) := by
        rw [ht, ha, List.append_assoc, List.append_assoc]
      have hopen : item ≠ .flaw .openString := by
        rintro rfl
        have hnil := htakes.reads
        generalize hrest : a' ++ '\n' :: q = rest at hnil
        cases hnil
        simp at hrest
      -- the last comment of the line goes on with what is put behind it
      by_cases hcomment : item = .comment ∧ a' = []
      · obtain ⟨rfl, rfl⟩ := hcomment
        obtain ⟨body, rfl, hbody⟩ : ∃ body, text = '#' :: body ∧ '\n' ∉ body := by
          cases htakes.reads with
          | comment hbody => exact ⟨_, rfl, hbody⟩
        have hbody' : '\n' ∉ body ++ w := by simp [hbody, hw.newline_not_mem]
        refine h.lineEnd (.comment hblanks hbody) (.comment hblanks hbody') ?_ ?_
        · rw [hsplit, List.append_assoc]
          rfl
        · rw [hsplit', List.append_assoc, List.cons_append, List.cons_append, List.append_assoc]
          rfl
      · have htakes' : Takes text item (a' ++ (w ++ '\n' :: q')) := by
          cases a' with
          | nil => exact htakes.of_bounded (fun heq => hcomment ⟨heq, rfl⟩) hopen (hw.bounded q')
          | cons c cs => exact htakes.of_head hopen rfl
        obtain ⟨habreast, hleft, hleft'⟩ := h.round hsplit hsplit' hblanks hhead htakes htakes'
        have hlater : s.round.Breaks q :=
          (breaks_behind hsplit hblanks hhead htakes (by simp; omega)).mp hbreaks
        obtain ⟨s', t', hscan, hscan', hrest⟩ := ih habreast hleft hleft' hlater
        have hne' : t.rest ≠ [] := by rw [ht]; simp
        exact ⟨s', t', (scanAll_of_ne_nil hne).trans hscan, (scanAll_of_ne_nil hne').trans hscan',
          hrest⟩
    | @within blanks front back rest item ha hfront hq hblanks hhead htakes =>
      subst hq
      rw [ha, List.append_assoc] at hs
      exact absurd hbreaks (not_breaks_within hs hfront hblanks hhead htakes)

end Scanner

/-! ## Strings -/

/-- Not in a string. -/
def Place.isUnquoted : Place → Bool
  | .code | .comment => true
  | .string | .escape => false

/-- Outside of strings and comments, a text leads where it leads from code. -/
theorem Place.Outside.after {p : Place} {text rest : List Char} (h : p.Outside (text ++ rest))
    (htext : text ≠ []) : p.after text = Place.code.after text := by
  have hcode : Passage .code text (text.count '\n' - escapedBreaks .code text)
      (Place.code.after text) := ⟨Nat.sub_add_cancel (escapedBreaks_le_count .code text), rfl⟩
  exact (h.passage htext hcode).place

/-- The pieces of a string do not lead out of it, and no part of them does. -/
theorem isUnquoted_pieces {ps : List Piece} (h : ∀ p ∈ ps, p.Proper) {front back : List Char}
    (hsplit : ps.flatMap Piece.raw = front ++ back) :
    (Place.string.after front).isUnquoted = false := by
  induction ps generalizing front with
  | nil =>
    rw [(List.append_eq_nil_iff.mp hsplit.symm).1]
    rfl
  | cons p ps ih =>
    have hps : ∀ q ∈ ps, q.Proper := fun q hq => h q (List.mem_cons_of_mem p hq)
    cases front with
    | nil => rfl
    | cons d front =>
      cases p with
      | plain c =>
        obtain ⟨rfl, hrest⟩ := List.cons.inj hsplit
        obtain ⟨hquote, hslash⟩ := h (.plain c) List.mem_cons_self
        have hnext : Place.next .string c = .string := by
          simp [Place.next, Context.next, hquote, hslash]
        show ((Place.next .string c).after front).isUnquoted = false
        rw [hnext]
        exact ih hps hrest
      | escape c =>
        obtain ⟨rfl, hrest⟩ := List.cons.inj hsplit
        cases front with
        | nil => rfl
        | cons e front =>
          obtain ⟨rfl, hleft⟩ := List.cons.inj hrest
          show (Place.string.after front).isUnquoted = false
          exact ih hps hleft

theorem isUnquoted_opening {opening : Char} {ps : List Piece} {tail front back : List Char}
    (hopening : isQuote opening = true) (h : ∀ p ∈ ps, p.Proper) (htail : '\n' ∉ tail)
    (hsplit : front ++ '\n' :: back = opening :: ps.flatMap Piece.raw ++ tail)
    (hfront : front ≠ []) : (Place.code.after front).isUnquoted = false := by
  obtain ⟨c, front, rfl⟩ := List.exists_cons_of_ne_nil hfront
  obtain ⟨rfl, hrest⟩ := List.cons.inj hsplit
  have hnext : Place.next .code c = .string := by simp [Place.next, Context.next, hopening]
  show ((Place.next .code c).after front).isUnquoted = false
  rw [hnext]
  rcases List.append_eq_append_iff.mp hrest with ⟨more, hpieces, -⟩ | ⟨more, -, rfl⟩
  · exact isUnquoted_pieces h hpieces
  · simp at htail

theorem Lexeme.newline_not_mem {k : Kind} {text : List Char} {p : Document} (h : Lexeme k text p)
    (hk : k ≠ .string) : '\n' ∉ text := by
  have hspelling : ∀ k : Kind, k ∈ Kind.keywords ∨ k ∈ Kind.symbols →
      k.spelling.toList.contains '\n' = false := by
    intro k
    cases k <;> decide
  cases h with
  | keyword hkeyword => simpa using hspelling k (.inl hkeyword)
  | symbol hsymbol => simpa using hspelling k (.inr hsymbol)
  | truth b => cases b <;> decide
  | name hword => exact fun hmem => hword.not_special _ hmem (by decide)
  | number hnumber => exact fun hmem => hnumber.not_special _ hmem (by decide)
  | string => exact absurd rfl hk

/-- **Newline characters within items are in strings.** -/
theorem Reads.isUnquoted_front {front back rest : List Char} {item : Item}
    (h : Reads (front ++ '\n' :: back) item rest) (hfront : front ≠ []) :
    (Place.code.after front).isUnquoted = false := by
  generalize htext : front ++ '\n' :: back = text at h
  have hmem : '\n' ∈ text := by rw [← htext]; simp
  cases h with
  | @token k _ _ p hlexeme _ =>
    by_cases hk : k = .string
    · subst hk
      cases hlexeme with
      | string hopening hclosing hpieces =>
        refine isUnquoted_opening hopening hpieces ?_ htext hfront
        rw [List.mem_singleton]
        exact (Passage.quote_ne hclosing).symm
      | keyword hkeyword => exact absurd hkeyword (by decide)
      | symbol hsymbol => exact absurd hsymbol (by decide)
    · exact absurd hmem (hlexeme.newline_not_mem hk)
  | comment hbody => simp [hbody] at hmem
  | newline =>
    rw [List.append_eq_singleton_iff] at htext
    simp [hfront] at htext
  | numeral hnumber => exact absurd (by decide) (hnumber.not_special _ hmem)
  | openString hopening hpieces htail =>
    refine isUnquoted_opening hopening hpieces ?_ htext hfront
    rcases htail with rfl | rfl
    · exact List.not_mem_nil
    · decide
  | unknown =>
    rw [List.append_eq_singleton_iff] at htext
    simp [hfront] at htext

namespace Scanner

variable {s : Scanner}

/-- **Every newline character that is not in a string is a line end**, and no other is. -/
theorem breaks_iff_unquoted {p : Place} {a q : List Char} (hp : p.Outside s.rest)
    (hs : s.rest = a ++ '\n' :: q) : s.Breaks q ↔ (p.after a).isUnquoted = true := by
  induction s using rounds_induction generalizing p a with
  | ended s hnil => simp [hnil] at hs
  | next s hne ih =>
    cases ahead hs with
    | blanks ha =>
      have hbreaks : s.Breaks q := by
        rw [breaks_iff hne, hs, List.dropWhile_append_of_pos ha]
        exact .inl (List.dropWhile_cons_of_neg (by decide))
      have hplace : (p.after a).isUnquoted = true := by
        rw [hs] at hp
        by_cases hnil : a = []
        · subst hnil
          rcases hp with hp | rfl | ⟨rfl, -⟩
          · simp at hp
          · rfl
          · rfl
        · rw [hp.after hnil, (passage_blanks ha).place]
          rfl
      exact iff_of_true hbreaks hplace
    | @behind blanks text a' item ha hblanks hhead htakes =>
      have hsplit : s.rest = blanks ++ (text ++ (a' ++ '\n' :: q)) := by
        rw [hs, ha, List.append_assoc, List.append_assoc]
      obtain ⟨pos, line, column, hround⟩ := htakes.round_eq hsplit hblanks hhead
      have hrest : s.round.rest = a' ++ '\n' :: q := by rw [hround, rest_perform]; rfl
      obtain ⟨passed, n, p', hpassed, hne', hpassage, houtside, -⟩ := round_counts hne
      obtain rfl : blanks ++ text = passed := by
        refine List.append_cancel_right (hpassed.symm.trans ?_).symm
        rw [hsplit, hrest, List.append_assoc]
      rw [breaks_behind hsplit hblanks hhead htakes (by simp; omega), ih houtside hrest, ha,
        ← List.append_assoc, Place.after_append]
      rw [hpassed] at hp
      rw [(hp.passage hne' hpassage).place]
    | @within blanks front back rest item ha hfront hq hblanks hhead htakes =>
      subst hq
      have hplace : (p.after a).isUnquoted = false := by
        rw [hs] at hp
        rw [hp.after (by rw [ha]; simp [hfront]), ha, Place.after_append,
          (passage_blanks hblanks).place]
        exact htakes.reads.isUnquoted_front hfront
      rw [ha, List.append_assoc] at hs
      exact iff_of_false (not_breaks_within hs hfront hblanks hhead htakes) (by simp [hplace])

/-! ## Sources -/

theorem abreast_ofChars (lined : Bool) (source source' : List Char) (earlier : Diagnostics) :
    Abreast lined (ofChars source earlier) (ofChars source' earlier) :=
  ⟨⟨rfl, rfl, rfl, fun _ => rfl, rfl, rfl⟩, fun _ => rfl, rfl, rfl⟩

theorem breaks_ofChars_iff (a q : List Char) (earlier : Diagnostics) :
    (ofChars (a ++ '\n' :: q) earlier).Breaks q ↔ (Place.code.after a).isUnquoted = true :=
  breaks_iff_unquoted (.inr (.inl rfl)) rfl

/-- What is put at the end of a line leaves nothing. -/
theorem sameRecord_lineEnd {a q w : List Char} {earlier : Diagnostics}
    (h : (ofChars (a ++ '\n' :: q) earlier).Breaks q) (hw : Invisible w) :
    SameRecord true (ofChars (a ++ '\n' :: q) earlier).tokenize
      (ofChars (a ++ (w ++ '\n' :: q)) earlier).tokenize := by
  obtain ⟨s', t', hs, ht, habreast, hrest, hrest', -⟩ :=
    (abreast_ofChars true (a ++ '\n' :: q) (a ++ (w ++ '\n' :: q)) earlier).breaks rfl rfl hw h
  have hfinish := habreast.finish_scanAll (hrest.trans hrest'.symm)
  rwa [← hs, ← ht] at hfinish

/-- A line that is put between lines leaves nothing. -/
theorem sameRecord_emptyLine {p q w : List Char} {earlier : Diagnostics}
    (h : p = [] ∨ ∃ a, p = a ++ ['\n'] ∧ (ofChars (p ++ q) earlier).Breaks q)
    (hw : Invisible w) :
    SameRecord false (ofChars (p ++ q) earlier).tokenize
      (ofChars (p ++ (w ++ '\n' :: q)) earlier).tokenize := by
  obtain ⟨s', t', hs, ht, habreast, hrest, hrest', hstart⟩ :
      ∃ s' t', (ofChars (p ++ q) earlier).scanAll = s'.scanAll ∧
        (ofChars (p ++ (w ++ '\n' :: q)) earlier).scanAll = t'.scanAll ∧ Abreast false s' t' ∧
        s'.rest = q ∧ t'.rest = w ++ '\n' :: q ∧ t'.AtStart := by
    rcases h with rfl | ⟨a, rfl, hbreaks⟩
    · exact ⟨_, _, rfl, rfl, abreast_ofChars false _ _ earlier, rfl, rfl, rfl, rfl, Nat.one_pos,
        fun _ t ht => by cases ht⟩
    · rw [List.append_assoc, List.singleton_append] at hbreaks ⊢
      refine (abreast_ofChars false _ _ earlier).breaks (w := []) rfl ?_ (.blanks (by simp)) hbreaks
      simp [ofChars]
  obtain ⟨u, hu, habreast', hrest''⟩ := habreast.emptyLine hstart hw hrest'
  have hfinish := habreast'.finish_scanAll (hrest.trans hrest''.symm)
  rwa [← hs, ← hu, ← ht] at hfinish

/-- A text with a carriage return in front of each newline character that is not in a string. -/
def withReturns : Place → List Char → List Char
  | _, [] => []
  | p, c :: cs =>
    if c = '\n' ∧ p.isUnquoted then '\r' :: c :: withReturns (p.next c) cs
    else c :: withReturns (p.next c) cs

/-- The carriage returns are put in one after the other, from the front. -/
theorem sameRecord_withReturns (front source : List Char) (earlier : Diagnostics) :
    SameRecord true (ofChars (front ++ source) earlier).tokenize
      (ofChars (front ++ withReturns (Place.code.after front) source) earlier).tokenize := by
  induction source generalizing front with
  | nil => exact .refl true _
  | cons c cs ih =>
    rw [withReturns]
    split
    · rename_i h
      obtain ⟨rfl, hplace⟩ := h
      have hreturn : Invisible ['\r'] := .blanks (List.forall_mem_singleton.mpr (by decide))
      have hbreaks := (breaks_ofChars_iff front cs earlier).mpr hplace
      have hnext : Place.code.after (front ++ ['\r', '\n']) =
          (Place.code.after front).next '\n' := by
        rw [Place.after_append]
        cases hafter : Place.code.after front with
        | code => rfl
        | comment => rfl
        | string => simp [hafter, Place.isUnquoted] at hplace
        | escape => simp [hafter, Place.isUnquoted] at hplace
      have hrest := ih (front ++ ['\r', '\n'])
      rw [hnext, List.append_assoc, List.append_assoc] at hrest
      exact (sameRecord_lineEnd hbreaks hreturn).trans hrest
    · have hrest := ih (front ++ [c])
      rwa [Place.after_append, List.append_assoc, List.append_assoc] at hrest

/-- **Blank lines, comments and trailing white space leave nothing.**

A line of white space and perhaps a comment can be put at the start of a source or behind any line
end, at any margin and within groups: the tokens stay the same, lines aside, and so do the reports.
White space and perhaps a comment can be put in front of any line end: tokens and reports stay the
same with their lines. The line ends are the newline characters that are not in strings. So a
carriage return in front of each of them changes nothing. -/
theorem invisible_text_leaves_nothing (earlier : Diagnostics) :
    (∀ p q w, (p = [] ∨ ∃ a, p = a ++ ['\n'] ∧ (ofChars (p ++ q) earlier).Breaks q) →
      Invisible w →
      let s := (ofChars (p ++ q) earlier).tokenize
      let t := (ofChars (p ++ (w ++ '\n' :: q)) earlier).tokenize
      t.tokens.map Token.unlined = s.tokens.map Token.unlined ∧
        t.reports.records.map Diagnostic.unlined = s.reports.records.map Diagnostic.unlined ∧
        t.failed = s.failed) ∧
    (∀ p q w, (ofChars (p ++ '\n' :: q) earlier).Breaks q → Invisible w →
      let s := (ofChars (p ++ '\n' :: q) earlier).tokenize
      let t := (ofChars (p ++ (w ++ '\n' :: q)) earlier).tokenize
      t.tokens = s.tokens ∧ t.reports = s.reports ∧ t.failed = s.failed) ∧
    (∀ p q, (ofChars (p ++ '\n' :: q) earlier).Breaks q ↔
      (Place.code.after p).isUnquoted = true) ∧
    ∀ source,
      let s := (ofChars source earlier).tokenize
      let t := (ofChars (withReturns .code source) earlier).tokenize
      t.tokens = s.tokens ∧ t.reports = s.reports ∧ t.failed = s.failed := by
  refine ⟨fun p q w h hw => ?_, fun p q w h hw => ?_, fun p q => breaks_ofChars_iff p q earlier,
    fun source => ?_⟩
  · have hrecord := sameRecord_emptyLine h hw
    exact ⟨hrecord.tokens.symm, congrArg Diagnostics.records hrecord.reports.symm,
      hrecord.failed.symm⟩
  · exact (sameRecord_lineEnd h hw).symm.outcome
  · exact (sameRecord_withReturns [] source earlier).symm.outcome

/-- Within brackets in a block, with a string over two lines to come. -/
theorem invisible_text_sample :
    let a := "a\n  [b".toList
    let q := "c]\n  'd\n'\ne".toList
    let w := "\t # [f".toList
    let s := ofChars (a ++ '\n' :: q) {}
    Invisible w ∧ s.Breaks q ∧ ¬ s.Breaks "'\ne".toList ∧
      (ofChars (a ++ '\n' :: (w ++ '\n' :: q)) {}).tokenize.tokens.map Token.unlined =
        s.tokenize.tokens.map Token.unlined ∧
      (ofChars (a ++ (w ++ '\n' :: q)) {}).tokenize.tokens = s.tokenize.tokens ∧
      (ofChars (withReturns .code (a ++ '\n' :: q)) {}).tokenize.tokens = s.tokenize.tokens ∧
      withReturns .code (a ++ '\n' :: q) = "a\r\n  [b\r\nc]\r\n  'd\n'\r\ne".toList ∧
      s.tokenize.tokens.map Token.kind =
        [.identifier, .newline, .indent, .leftBracket, .identifier, .identifier, .rightBracket,
          .newline, .string, .newline, .dedent, .identifier, .newline] := by
  intro a q w s
  have hblanks : ∀ c ∈ ['\t', ' '], isInlineBlank c = true :=
    List.forall_mem_cons.mpr ⟨by decide, List.forall_mem_singleton.mpr (by decide)⟩
  have hw : Invisible w := .comment hblanks (by decide : '\n' ∉ [' ', '[', 'f'])
  obtain ⟨hempty, hend, hbreaks, hreturns⟩ := invisible_text_leaves_nothing {}
  have hq : s.Breaks q := (hbreaks a q).mpr (by decide)
  have hstring : ¬ s.Breaks "'\ne".toList := by
    have hsplit : a ++ '\n' :: q = "a\n  [b\nc]\n  'd".toList ++ '\n' :: "'\ne".toList := by decide
    show ¬ (ofChars (a ++ '\n' :: q) {}).Breaks _
    rw [hsplit, hbreaks]
    decide
  have hlines := hempty (a ++ ['\n']) q w (.inr ⟨a, rfl, hq⟩) hw
  exact ⟨hw, hq, hstring, hlines.1, (hend a q w hq hw).1, (hreturns _).1, by decide,
    by decide +kernel⟩

end Scanner

end Scriptlet
