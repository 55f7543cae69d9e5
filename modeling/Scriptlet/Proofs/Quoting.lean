import Scriptlet.Proofs.Munch

/-!
# String literals

A string literal ends at the first quote that stands outside an escape, whichever quote opened it.
So every text has a literal, if its quotes and backslashes are escaped.

* `Escaped`: the written forms of a text between quotes. `exists_escaped`: every text has one.
* `escapeUnits`: a text read as escape pairs and single characters.
* `splitPieces_unclosed_iff`: the scanner finds no closing quote exactly if no quote is a unit.

`Scanner.scanString_delimits` says of every place that holds a quote what is passed there and what
comes of it.
-/

namespace Scriptlet

/-! ## Written forms -/

/-- Characters that may be written by a letter behind a backslash, or as themselves. -/
def shorthands : List (Char × Char) := [('\n', 'n'), ('\r', 'r'), ('\t', 't'), ('\x7b', '\x7b')]

/-- `Escaped text written`: the text may be written so between quotes. Its quotes and backslashes
have a backslash in front, and a character that has a shorthand may be written by it. -/
inductive Escaped : List Char → List Char → Prop
  | nil : Escaped [] []
  | plain {c : Char} {text written : List Char} : isQuote c = false → c ≠ '\\' →
      Escaped text written → Escaped (c :: text) (c :: written)
  | guarded {c : Char} {text written : List Char} : isQuote c = true ∨ c = '\\' →
      Escaped text written → Escaped (c :: text) ('\\' :: c :: written)
  | shorthand {c d : Char} {text written : List Char} : (c, d) ∈ shorthands →
      Escaped text written → Escaped (c :: text) ('\\' :: d :: written)

/-- Every text can be written between quotes. -/
theorem exists_escaped (text : List Char) : ∃ written, Escaped text written := by
  induction text with
  | nil => exact ⟨[], .nil⟩
  | cons c text ih =>
    obtain ⟨written, h⟩ := ih
    by_cases hc : isQuote c = true ∨ c = '\\'
    · exact ⟨_, .guarded hc h⟩
    · rw [not_or, Bool.not_eq_true] at hc
      exact ⟨_, .plain hc.1 hc.2 h⟩

theorem value_guarded {c : Char} (h : isQuote c = true ∨ c = '\\') :
    (Piece.escape c).value = [c] := by
  rw [isQuote, Bool.or_eq_true, beq_iff_eq, beq_iff_eq] at h
  rcases h with (rfl | rfl) | rfl
  · rfl
  · rfl
  · rfl

theorem value_shorthand {c d : Char} (h : (c, d) ∈ shorthands) : (Piece.escape d).value = [c] := by
  have hall : shorthands.all fun p => (Piece.escape p.2).value == [p.1] := by decide
  simpa using List.all_eq_true.mp hall _ h

/-- A written form is made of pieces, which stand for the text. -/
theorem Escaped.exists_pieces {text written : List Char} (h : Escaped text written) :
    ∃ pieces : List Piece, (∀ p ∈ pieces, p.Proper) ∧ pieces.flatMap Piece.raw = written ∧
      pieces.flatMap Piece.value = text := by
  induction h with
  | nil => exact ⟨[], by simp, rfl, rfl⟩
  | @plain c text written hquote hslash _ ih =>
    obtain ⟨pieces, hproper, rfl, rfl⟩ := ih
    exact ⟨.plain c :: pieces, List.forall_mem_cons.mpr ⟨⟨hquote, hslash⟩, hproper⟩, rfl, rfl⟩
  | @guarded c text written hc _ ih =>
    obtain ⟨pieces, hproper, rfl, rfl⟩ := ih
    refine ⟨.escape c :: pieces, List.forall_mem_cons.mpr ⟨trivial, hproper⟩, rfl, ?_⟩
    rw [List.flatMap_cons, value_guarded hc]
    rfl
  | @shorthand c d text written hc _ ih =>
    obtain ⟨pieces, hproper, rfl, rfl⟩ := ih
    refine ⟨.escape d :: pieces, List.forall_mem_cons.mpr ⟨trivial, hproper⟩, rfl, ?_⟩
    rw [List.flatMap_cons, value_shorthand hc]
    rfl

/-! ## Where a literal ends -/

/-- The text, read from left to right as escape pairs, a backslash and its next character, and as
single characters. -/
def escapeUnits : List Char → List (List Char)
  | [] => []
  | [c] => [[c]]
  | c :: d :: cs =>
    if c = '\\' then [c, d] :: escapeUnits cs else [c] :: escapeUnits (d :: cs)

/-- No quote stands outside the escape pairs. -/
def Unclosed (text : List Char) : Prop := ∀ c, isQuote c = true → [c] ∉ escapeUnits text

/-- **No closing quote is found exactly if there is none outside the escape pairs.** -/
theorem splitPieces_unclosed_iff (cs : List Char) :
    (splitPieces cs).2 = [] ∨ (splitPieces cs).2 = ['\\'] ↔ Unclosed cs := by
  have hslash : isQuote '\\' = false := by decide
  fun_induction splitPieces cs with
  | case1 => simp [Unclosed, escapeUnits]
  | case2 c hc =>
    -- the text is a quote, which closes, or a lone backslash
    rw [Bool.or_eq_true, beq_iff_eq] at hc
    rcases hc with hquote | rfl
    · have hne : c ≠ '\\' := by
        rintro rfl
        rw [hslash] at hquote
        cases hquote
      simp only [reduceCtorEq, List.cons.injEq, hne, false_and, or_false, false_iff]
      exact fun h => h c hquote List.mem_cons_self
    · simp only [reduceCtorEq, or_true, true_iff]
      intro d hd hmem
      rw [escapeUnits, List.mem_singleton, List.cons.injEq] at hmem
      rw [hmem.1, hslash] at hd
      cases hd
  | case3 c hc =>
    rw [Bool.or_eq_true, not_or, Bool.not_eq_true] at hc
    simp only [true_or, true_iff]
    intro d hd hmem
    rw [escapeUnits, List.mem_singleton, List.cons.injEq] at hmem
    rw [hmem.1, hc.1] at hd
    cases hd
  | case4 c d cs hc =>
    have hne : c ≠ '\\' := by
      rintro rfl
      rw [hslash] at hc
      cases hc
    simp only [reduceCtorEq, List.cons.injEq, hne, false_and, or_false, false_iff]
    intro h
    refine h c hc ?_
    rw [escapeUnits, if_neg hne]
    exact List.mem_cons_self
  | case5 d cs ps rest heq hc ih =>
    rw [heq] at ih
    refine ih.trans ?_
    simp [Unclosed, escapeUnits]
  | case6 c d cs hc hb ps rest heq ih =>
    rw [heq] at ih
    refine ih.trans ?_
    simp only [Unclosed, escapeUnits, if_neg hb, List.mem_cons, List.cons.injEq, not_or]
    constructor
    · intro h e he
      refine ⟨?_, h e he⟩
      rintro ⟨rfl, -⟩
      exact hc he
    · exact fun h e he => (h e he).2

namespace Scanner

/-- What a literal leaves behind: its text is passed and is the lexeme of one string. -/
structure Quotes (s t : Scanner) (lexeme : List Char) (value : String) (rest : List Char) :
    Prop where
  rest : t.rest = rest
  pos : t.pos = s.pos + lexeme.length
  emitted : t.emitted = ⟨.string, String.ofList lexeme, .text value, s.tokenLine⟩ :: s.emitted
  reports : t.reports = s.reports
  failed : t.failed = s.failed

/-- What a literal without an end leaves behind: all is passed, and one report is made. -/
structure RunsOut (s t : Scanner) (report : Diagnostic) : Prop where
  rest : t.rest = []
  pos : t.pos = s.pos + s.rest.length
  emitted : t.emitted = s.emitted
  reports : t.reports = s.reports ++ [report]

theorem Quotes.not_runsOut {s t : Scanner} {lexeme rest : List Char} {value : String}
    (h : s.Quotes t lexeme value rest) {report : Diagnostic} : ¬ s.RunsOut t report := by
  intro hout
  exact List.cons_ne_self _ _ (h.emitted.symm.trans hout.emitted)

theorem quotes_scanString {s : Scanner} {opening closing : Char} {pieces : List Piece}
    {rest : List Char} (hopening : isQuote opening = true) (hclosing : isQuote closing = true)
    (hproper : ∀ p ∈ pieces, p.Proper)
    (hrest : s.rest = opening :: pieces.flatMap Piece.raw ++ [closing] ++ rest) :
    s.Quotes s.scanString (opening :: pieces.flatMap Piece.raw ++ [closing])
      (String.ofList (pieces.flatMap Piece.value)) rest := by
  obtain ⟨line, column, hscan⟩ := scanToken_string hopening hclosing hproper hrest
  rw [scanToken_quote hopening] at hscan
  rw [hscan]
  refine ⟨?_, rfl, rfl, rfl, rfl⟩
  rw [rest_perform, moved, hrest]
  exact List.drop_left

theorem runsOut_scanString {s : Scanner} {opening : Char} {pieces : List Piece}
    {tail : List Char} (hopening : isQuote opening = true) (hproper : ∀ p ∈ pieces, p.Proper)
    (htail : tail = [] ∨ tail = ['\\'])
    (hrest : s.rest = opening :: pieces.flatMap Piece.raw ++ tail) :
    s.RunsOut s.scanString
      ⟨Diagnostic.lexing, ScanFault.openString.message, some s.tokenLine⟩ := by
  obtain ⟨line, column, hscan⟩ := scanToken_openString hopening hproper htail hrest
  rw [scanToken_quote hopening] at hscan
  rw [hscan]
  refine ⟨?_, ?_, rfl, rfl⟩
  · rw [rest_perform, moved, hrest, List.drop_length]
  · rw [hrest]
    rfl

/-- From an opening quote, the scanner runs out of text or comes to a closing quote. -/
theorem scanString_cases {s : Scanner} {opening : Char} {text : List Char}
    (hopening : isQuote opening = true) (hrest : s.rest = opening :: text) :
    Unclosed text ∧ s.RunsOut s.scanString
        ⟨Diagnostic.lexing, ScanFault.openString.message, some s.tokenLine⟩ ∨
      ¬ Unclosed text ∧ ∃ lexeme value rest, s.rest = lexeme ++ rest ∧
        s.Quotes s.scanString lexeme value rest := by
  obtain ⟨hsplit, hproper, hend⟩ := splitPieces_spec text
  have hunclosed := splitPieces_unclosed_iff text
  generalize splitPieces text = body at hsplit hproper hend hunclosed
  obtain ⟨pieces, tail⟩ := body
  dsimp only at hsplit hproper hend hunclosed
  rw [hsplit] at hrest
  rcases or_assoc.mpr hend with htail | ⟨closing, rest, rfl, hclosing⟩
  · exact .inl ⟨hunclosed.mp htail, runsOut_scanString hopening hproper htail hrest⟩
  · have hrest' : s.rest = opening :: pieces.flatMap Piece.raw ++ [closing] ++ rest := by
      rw [hrest, List.append_assoc]
      rfl
    refine .inr ⟨fun h => ?_, _, _, rest, hrest',
      quotes_scanString hopening hclosing hproper hrest'⟩
    rcases hunclosed.mpr h with hnil | hslash
    · cases hnil
    · obtain ⟨rfl, -⟩ := List.cons.inj hslash
      cases hclosing

/-- **String literals can express every text, and end where they should.** Every text has written
forms, and each of them between two quotes, alike or not, is passed exactly, whatever follows, and
gives one string with that text as its value and no report. From any opening quote the scanner runs
out, with one report and no token, exactly if what follows has no quote outside an escape pair; else
it gives one string, and no report. -/
theorem scanString_delimits :
    (∀ text, ∃ written, Escaped text written) ∧
    (∀ (s : Scanner) (opening closing : Char) (text : String) (written rest : List Char),
      isQuote opening = true → isQuote closing = true → Escaped text.toList written →
      s.rest = opening :: written ++ [closing] ++ rest →
      s.Quotes s.scanString (opening :: written ++ [closing]) text rest) ∧
    (∀ (s : Scanner) (opening : Char) (text : List Char),
      isQuote opening = true → s.rest = opening :: text →
      ((∃ report, s.RunsOut s.scanString report) ↔ Unclosed text) ∧
      (Unclosed text → s.RunsOut s.scanString ⟨Diagnostic.lexing,
        "found end of input while looking for end of string", some s.tokenLine⟩) ∧
      (¬ Unclosed text → ∃ lexeme value rest, s.rest = lexeme ++ rest ∧
        s.Quotes s.scanString lexeme value rest)) := by
  refine ⟨exists_escaped, ?_, ?_⟩
  · intro s opening closing text written rest hopening hclosing hescaped hrest
    obtain ⟨pieces, hproper, rfl, hvalue⟩ := hescaped.exists_pieces
    have hquotes := quotes_scanString hopening hclosing hproper hrest
    rwa [hvalue, String.ofList_toList] at hquotes
  · intro s opening text hopening hrest
    rcases scanString_cases hopening hrest with ⟨hunclosed, hout⟩ | ⟨hclosed, hquotes⟩
    · exact ⟨⟨fun _ => hunclosed, fun _ => ⟨_, hout⟩⟩, fun _ => hout, fun h => absurd hunclosed h⟩
    · refine ⟨⟨?_, fun h => absurd h hclosed⟩, fun h => absurd h hclosed, fun _ => hquotes⟩
      rintro ⟨report, hout⟩
      obtain ⟨lexeme, value, rest, -, hquotes⟩ := hquotes
      exact absurd hout hquotes.not_runsOut

/-- Two backslashes in front of a quote leave it closing, and three do not. -/
theorem scanString_delimits_sample :
    (ofSource "'a\\\\\x22 + 1" {}).Quotes (ofSource "'a\\\\\x22 + 1" {}).scanString
        "'a\\\\\x22".toList "a\\" " + 1".toList ∧
      ∃ report, (ofSource "'a\\\\\\'" {}).RunsOut (ofSource "'a\\\\\\'" {}).scanString report := by
  obtain ⟨-, hquotes, hends⟩ := scanString_delimits
  have hescaped : Escaped "a\\".toList ['a', '\\', '\\'] :=
    .plain (by decide) (by decide) (.guarded (.inr rfl) .nil)
  refine ⟨?_, (hends _ '\x27' "a\\\\\\'".toList (by decide) (by decide +kernel)).1.mpr ?_⟩
  · exact hquotes _ '\x27' '\x22' "a\\" ['a', '\\', '\\'] " + 1".toList (by decide) (by decide)
      hescaped (by decide +kernel)
  · rw [← splitPieces_unclosed_iff]
    exact .inl (by decide +kernel)

end Scanner

end Scriptlet
