import Scriptlet.Proofs.Derivation
import Scriptlet.Proofs.SourceLines

/-!
# What becomes of the tokens

* `Node.tokens`, `yield`: the tokens of trees in order, with and without those that the parser made
  up. A token that was made up is on line zero.
* `Accounted`: tokens in order, each kept, passed or skipped.
* `Derives.accounted`, `parseStatement_accounted`, `parseProgram_accounted`: an expression, a
  statement and a program account for the tokens that they take.

`parse_accounts_for_tokens` puts these together: trees keep every token in order, line ends, `print`
and the tokens that are reported as unexpected apart.
-/

namespace Scriptlet

namespace Node

variable {τ : Type}

mutual

/-- The tokens of a tree, in order. -/
def tokens : Node τ → List τ
  | absent => []
  | list items => tokensOf items
  | token t => [t]
  | literal t => [t]
  | unary op x => op :: x.tokens
  | binary x op y => x.tokens ++ op :: y.tokens
  | grouping opening x closing => opening :: (x.tokens ++ [closing])
  | print x => x.tokens
  | expression x => x.tokens

/-- The tokens of trees, one after the other. -/
def tokensOf : List (Node τ) → List τ
  | [] => []
  | n :: ns => n.tokens ++ tokensOf ns

end

end Node

/-- The tokens that were not made up. -/
def scanned (ts : List Token) : List Token := ts.filter fun t => t.line ≠ 0

/-- The tokens of trees that were not made up, in order. -/
def yield (ns : List Node) : List Token := scanned (Node.tokensOf ns)

theorem scanned_append (ts us : List Token) : scanned (ts ++ us) = scanned ts ++ scanned us :=
  List.filter_append ..

theorem scanned_cons {t : Token} (h : t.line ≠ 0) (ts : List Token) :
    scanned (t :: ts) = t :: scanned ts :=
  List.filter_cons_of_pos (by simpa using h)

theorem scanned_ofKind (k : Kind) : scanned [.ofKind k] = [] := rfl

/-- Kinds of tokens that are passed and that no tree keeps. -/
def Kind.passing : List Kind := [newline, kwPrint]

/-- `Accounted used kept skipped`: of the tokens `used`, in order, line ends and `print` are passed,
and each other one is either kept or skipped. -/
inductive Accounted : List Token → List Token → List Token → Prop
  | nil : Accounted [] [] []
  | passed {t : Token} {used kept skipped : List Token} : t.kind ∈ Kind.passing →
      Accounted used kept skipped → Accounted (t :: used) kept skipped
  | kept {t : Token} {used kept skipped : List Token} : t.kind ∉ Kind.passing →
      Accounted used kept skipped → Accounted (t :: used) (t :: kept) skipped
  | skipped {t : Token} {used kept skipped : List Token} : t.kind ∉ Kind.passing →
      Accounted used kept skipped → Accounted (t :: used) kept (t :: skipped)

namespace Accounted

theorem append {used kept skipped used' kept' skipped' : List Token}
    (h : Accounted used kept skipped) (h' : Accounted used' kept' skipped') :
    Accounted (used ++ used') (kept ++ kept') (skipped ++ skipped') := by
  induction h with
  | nil => exact h'
  | passed ht _ ih => exact .passed ht ih
  | kept ht _ ih => exact .kept ht ih
  | skipped ht _ ih => exact .skipped ht ih

theorem single {t : Token} (h : t.kind ∉ Kind.passing) : Accounted [t] [t] [] := .kept h .nil

end Accounted

/-! ## Kinds that trees keep -/

/-- A kind that is not passed and neither opens nor closes a parenthesis or bracket. -/
def Kind.IsPlain (k : Kind) : Prop := k ∉ Kind.passing ∧ k ∉ Kind.brackets

instance (k : Kind) : Decidable k.IsPlain := inferInstanceAs (Decidable (_ ∧ _))

theorem Kind.isPlain_of_isLiteral {k : Kind} (h : k.isLiteral = true) : k.IsPlain := by
  revert h
  cases k <;> decide

theorem isPlain_of_sign {k : Kind} (h : k ∈ prefixOperators) : k.IsPlain := by
  revert h
  cases k <;> decide

theorem Level.isPlain {k : Kind} {l : Level} (h : k ∈ l.operators) : k.IsPlain := by
  revert h
  cases l <;> cases k <;> decide

/-- Neither what opens a group nor what closes it is passed. -/
theorem not_passing_of_closer {k c : Kind} (h : closer? k = some c) :
    k ∉ Kind.passing ∧ c ∉ Kind.passing := by
  cases k <;> simp only [closer?, Option.some.injEq, reduceCtorEq] at h <;> subst h <;> decide

/-! ## Expressions -/

/-- What is skipped in front of a token that closes a block is passed. -/
theorem skipBlockNewline_accounted (k : Kind) (ts : List Token) :
    ∃ used, ts = used ++ skipBlockNewline k ts ∧ Accounted used [] [] := by
  rcases Derives.skipBlockNewline_cases k ts with h | ⟨t, ht, h⟩
  · exact ⟨[], h.symm, .nil⟩
  · exact ⟨[t], h, .passed (by rw [ht]; decide) .nil⟩

/-- **An expression accounts for the tokens it takes**, and skips none. -/
theorem Derives.accounted {r : Nat} {ts rest : List Token} {n : Node} {issues : List Issue}
    (h : Derives r ts n rest issues) (hline : ∀ t ∈ ts, t.line ≠ 0) :
    ∃ used, ts = used ++ rest ∧ Accounted used (scanned n.tokens) [] := by
  induction h with
  | missing ts => exact ⟨[], rfl, .nil⟩
  | @literal t ts ht =>
    refine ⟨[t], rfl, ?_⟩
    rw [Node.tokens, scanned_cons (hline t List.mem_cons_self)]
    exact .single (Kind.isPlain_of_isLiteral ht).1
  | @unary op ts rest x _ hop _ ih =>
    obtain ⟨used, rfl, hused⟩ := ih fun t ht => hline t (List.mem_cons_of_mem _ ht)
    refine ⟨op :: used, rfl, ?_⟩
    rw [Node.tokens, scanned_cons (hline op List.mem_cons_self)]
    exact .kept (isPlain_of_sign hop).1 hused
  | @closed opening closing ts inside rest x _ hclose _ hskip ih =>
    obtain ⟨used, rfl, hused⟩ := ih fun t ht => hline t (List.mem_cons_of_mem _ ht)
    obtain ⟨passed, hinside, hpassed⟩ := skipBlockNewline_accounted closing.kind inside
    rw [hskip] at hinside
    obtain ⟨hopener, hcloser⟩ := not_passing_of_closer hclose
    have hclosing : closing.line ≠ 0 := hline closing (by simp [hinside])
    refine ⟨opening :: (used ++ (passed ++ [closing])), by simp [hinside], ?_⟩
    rw [Node.tokens, scanned_cons (hline opening List.mem_cons_self), scanned_append,
      scanned_cons hclosing]
    exact .kept hopener (hused.append (hpassed.append (.single hcloser)))
  | @unclosed opening k ts inside x _ hclose _ ih =>
    obtain ⟨used, rfl, hused⟩ := ih fun t ht => hline t (List.mem_cons_of_mem _ ht)
    obtain ⟨passed, hinside, hpassed⟩ := skipBlockNewline_accounted k inside
    refine ⟨opening :: (used ++ passed), ?_, ?_⟩
    · rw [List.cons_append, List.append_assoc, ← hinside]
    · rw [Node.tokens, scanned_cons (hline opening List.mem_cons_self), scanned_append,
        scanned_ofKind]
      exact .kept (not_passing_of_closer hclose).1 (hused.append hpassed)
  | @binary l op ts us rest x y _ _ hop _ _ ihx ihy =>
    obtain ⟨used, rfl, hused⟩ := ihx hline
    have hop' : op.line ≠ 0 := hline op (by simp)
    obtain ⟨used', rfl, hused'⟩ := ihy fun t ht => hline t (by simp [ht])
    refine ⟨used ++ op :: used', by simp, ?_⟩
    rw [Node.tokens, scanned_append, scanned_cons hop']
    exact hused.append (.kept (Level.isPlain hop).1 hused')
  | operand _ ih => exact ih hline

/-! ## Statements -/

theorem skipNewline_accounted (ts : List Token) :
    ∃ used, ts = used ++ skipNewline ts ∧ Accounted used [] [] := by
  cases ts with
  | nil => exact ⟨[], rfl, .nil⟩
  | cons t ts =>
    by_cases ht : t.kind = .newline
    · rw [skipNewline_newline ht]
      exact ⟨[t], rfl, .passed (by rw [ht]; decide) .nil⟩
    · exact ⟨[], by simp [skipNewline, ht], .nil⟩

/-- **A statement accounts for the tokens it takes**, and skips none. -/
theorem parseStatement_accounted (ts : List Token) (hline : ∀ t ∈ ts, t.line ≠ 0) :
    ∃ used, ts = used ++ (parseStatement ts).rest ∧
      Accounted used (scanned (parseStatement ts).value.tokens) [] := by
  rcases parseStatement_cases ts with ⟨t, more, rfl, ht, hparse⟩ | ⟨-, hparse⟩
  · obtain ⟨used, hused, haccounted⟩ := (derives_parseExpression more).accounted
      fun u hu => hline u (List.mem_cons_of_mem t hu)
    obtain ⟨passed, hpassed, haccounted'⟩ := skipNewline_accounted (parseExpression more).rest
    rw [hparse]
    refine ⟨t :: (used ++ passed), ?_, .passed (by rw [ht]; decide) ?_⟩
    · rw [List.cons_append, List.append_assoc, ← hpassed, ← hused]
    · simpa [Node.tokens] using haccounted.append haccounted'
  · obtain ⟨used, hused, haccounted⟩ := (derives_parseExpression ts).accounted hline
    obtain ⟨passed, hpassed, haccounted'⟩ := skipNewline_accounted (parseExpression ts).rest
    rw [hparse]
    refine ⟨used ++ passed, ?_, ?_⟩
    · rw [List.append_assoc, ← hpassed, ← hused]
    · simpa [Node.tokens] using haccounted.append haccounted'

/-- A statement takes a line end or a `print` that it starts at. -/
theorem length_rest_parseStatement_lt {t : Token} (more : List Token)
    (h : t.kind ∈ Kind.passing) :
    (parseStatement (t :: more)).rest.length < (t :: more).length := by
  rcases parseStatement_cases (t :: more) with ⟨u, us, hcons, hu, hparse⟩ | ⟨hfirst, hparse⟩
  · cases hcons
    have hexpression := length_rest_parseExpression_le more
    have hskip := length_skipNewline_le (parseExpression more).rest
    rw [hparse, List.length_cons]
    dsimp only
    omega
  · have ht : t.kind = .newline := by
      rcases List.mem_cons.mp h with ht | ht
      · exact ht
      · exact absurd (List.mem_singleton.mp ht) (hfirst t rfl)
    obtain ⟨used, hused⟩ := (derives_parseExpression (t :: more)).suffix
    have hskip := length_skipNewline_le (parseExpression (t :: more)).rest
    rw [hparse]
    dsimp only
    -- an expression that takes nothing leaves the line end to the statement
    cases used with
    | nil =>
      rw [List.nil_append] at hused
      rw [hused, skipNewline_newline ht, List.length_cons]
      omega
    | cons u us =>
      have hlength := congrArg List.length hused
      simp only [List.cons_append, List.length_cons, List.length_append] at hlength ⊢
      omega

theorem parseStatement_expected (ts : List Token) :
    ∀ i ∈ (parseStatement ts).issues, ∃ k, i.complaint = .expected k := by
  rcases parseStatement_cases ts with ⟨t, more, -, -, hparse⟩ | ⟨-, hparse⟩
  · rw [hparse]
    intro i hi
    rcases List.mem_append.mp hi with hi | hi
    · exact (derives_parseExpression more).expected i hi
    · exact expect_expected _ _ i hi
  · rw [hparse]
    exact (derives_parseExpression ts).expected

/-! ## Programs -/

/-- Whether a complaint is about a token that starts no statement. -/
def Complaint.isUnexpected : Complaint → Bool
  | unexpected _ => true
  | expected _ => false

/-- The issue that a token starts no statement. -/
def Token.unexpectedIssue (t : Token) : Issue := ⟨.unexpected t.kind, some t.line⟩

theorem filter_unexpected_parseStatement (ts : List Token) :
    (parseStatement ts).issues.filter (·.complaint.isUnexpected) = [] := by
  refine List.filter_eq_nil_iff.mpr ?_
  intro i hi
  obtain ⟨k, hk⟩ := parseStatement_expected ts i hi
  simp [hk, Complaint.isUnexpected]

/-- Reading statements stops when at most one token is left. -/
theorem length_rest_parseProgram_le (ts : List Token) : (parseProgram ts).rest.length ≤ 1 := by
  fun_induction parseProgram ts with
  | case1 t next more statement hlt program ih => exact ih
  | case2 t next more statement hlt program ih => exact ih
  | case3 ts hshort =>
    cases ts with
    | nil => exact Nat.zero_le 1
    | cons t more =>
      cases more with
      | nil => exact Nat.le_refl 1
      | cons next more => exact absurd rfl (hshort t next more)

/-- **A program accounts for the tokens it takes.** Those that are skipped are complained about, one
by one and in order. -/
theorem parseProgram_accounted (ts : List Token) (hline : ∀ t ∈ ts, t.line ≠ 0) :
    ∃ used skipped, ts = used ++ (parseProgram ts).rest ∧
      Accounted used (yield (parseProgram ts).value) skipped ∧
      (parseProgram ts).issues.filter (·.complaint.isUnexpected) =
        skipped.map Token.unexpectedIssue := by
  fun_induction parseProgram ts with
  | case1 t next more statement hlt program ih =>
    obtain ⟨used, hused, haccounted⟩ := parseStatement_accounted (t :: next :: more) hline
    obtain ⟨used', skipped, hused', haccounted', hissues⟩ := ih fun u hu => by
      refine hline u ?_
      rw [hused]
      exact List.mem_append_right used hu
    refine ⟨used ++ used', skipped, ?_, ?_, ?_⟩
    · rw [List.append_assoc, ← hused']
      exact hused
    · rw [yield, Node.tokensOf, scanned_append]
      exact haccounted.append haccounted'
    · rw [List.filter_append, filter_unexpected_parseStatement]
      exact hissues
  | case2 t next more statement hlt program ih =>
    obtain ⟨used, skipped, hused, haccounted, hissues⟩ := ih fun u hu =>
      hline u (List.mem_cons_of_mem t hu)
    have ht : t.kind ∉ Kind.passing := fun h => hlt (length_rest_parseStatement_lt _ h)
    refine ⟨t :: used, t :: skipped, congrArg (t :: ·) hused, .skipped ht haccounted, ?_⟩
    rw [List.filter_append, filter_unexpected_parseStatement, List.nil_append,
      List.filter_cons_of_pos rfl, List.map_cons]
    exact congrArg _ hissues
  | case3 ts _ => exact ⟨[], [], rfl, .nil, rfl⟩

/-! ## Token lists -/

/-- Whether a report is about a token that starts no statement. -/
def Diagnostic.isUnexpected (d : Diagnostic) : Bool :=
  "unexpected token ".toList.isPrefixOf d.message.toList

/-- The report that a token starts no statement. -/
def Token.unexpected (t : Token) : Diagnostic :=
  ⟨Diagnostic.parsing, "unexpected token " ++ t.kind.name, some t.line⟩

theorem isUnexpected_diagnostic (i : Issue) :
    i.diagnostic.isUnexpected = i.complaint.isUnexpected := by
  obtain ⟨complaint, line⟩ := i
  cases complaint with
  | expected k =>
    show "unexpected token ".toList.isPrefixOf ("expected token of type " ++ k.name).toList = false
    rw [String.toList_append]
    rfl
  | unexpected k =>
    show "unexpected token ".toList.isPrefixOf ("unexpected token " ++ k.name).toList = true
    rw [String.toList_append, List.isPrefixOf_iff_prefix]
    exact List.prefix_append _ _

namespace Scanner

/-- Every token of a source is on a line of it. -/
theorem one_le_line_tokenize (s : Scanner) : ∀ t ∈ s.tokenize.tokens, 1 ≤ t.line := by
  obtain ⟨ts, ms, ds, htokens, hmarkers, -, hrecorded⟩ := tokenize_recorded s
  intro t ht
  rw [htokens] at ht
  rcases List.mem_append.mp ht with ht | ht
  · obtain ⟨-, before, hline⟩ := hrecorded.wellFormed t ht
    rw [hline, countedLine]
    omega
  · exact (hmarkers t ht).2

end Scanner

theorem line_ne_zero {ts : List Token} (h : ∀ t ∈ ts, 1 ≤ t.line) : ∀ t ∈ ts, t.line ≠ 0 := by
  intro t ht
  have := h t ht
  omega

/-- At most the last token of a source is not looked at. No text stands for it. -/
theorem kind_rest_parseProgram_tokenize (s : Scanner) :
    ∀ t ∈ (parseProgram s.tokenize.tokens).rest, t.kind = .newline ∨ t.kind = .dedent := by
  intro t ht
  obtain ⟨used, skipped, hused, -, -⟩ :=
    parseProgram_accounted s.tokenize.tokens (line_ne_zero s.one_le_line_tokenize)
  have hone : (parseProgram s.tokenize.tokens).rest.length = 1 :=
    Nat.le_antisymm (length_rest_parseProgram_le _) (List.length_pos_of_mem ht)
  obtain ⟨u, hrest⟩ := List.length_eq_one_iff.mp hone
  rw [hrest, List.mem_singleton] at ht
  subst ht
  refine s.getLast?_tokenize t ?_
  rw [hused, hrest]
  simp

/-- **What parsing does with the tokens.** If no token is on line zero, the tokens passed so far are
kept in the trees in order, line ends and `print` apart, and those apart that are skipped; for each
of the latter, in order, there is a report that it is unexpected, and there is no other such report.
At most the last token is not looked at. In what a source gives, no token is on line zero, and the
last one ends a line or a block. -/
theorem parse_accounts_for_tokens (p : Parser) :
    ((∀ t ∈ p.tokens, 1 ≤ t.line) →
      ∃ (skipped : List Token) (new : List Diagnostic), p.parse.2.reports = p.reports ++ new ∧
        new.filter Diagnostic.isUnexpected = skipped.map Token.unexpected ∧
        Accounted (p.tokens.take p.parse.2.pos) (yield p.parse.1) skipped) ∧
    p.tokens.length ≤ p.parse.2.pos + 1 ∧ p.parse.2.pos ≤ p.tokens.length ∧
    ∀ s : Scanner, p.tokens = s.tokenize.tokens → (∀ t ∈ p.tokens, 1 ≤ t.line) ∧
      ∀ t ∈ p.tokens.drop p.parse.2.pos, t.kind = .newline ∨ t.kind = .dedent := by
  obtain ⟨hvalue, hreports, -, hpos⟩ := p.parse_eq
  have hshort := length_rest_parseProgram_le p.tokens
  -- the tokens that were passed and those that were not
  have hsplit : ∀ used, p.tokens = used ++ (parseProgram p.tokens).rest →
      p.tokens.take p.parse.2.pos = used ∧
        p.tokens.drop p.parse.2.pos = (parseProgram p.tokens).rest := by
    intro used hused
    have hlength : p.parse.2.pos = used.length := by
      have := congrArg List.length hused
      rw [List.length_append] at this
      omega
    rw [hlength]
    generalize (parseProgram p.tokens).rest = rest at hused
    rw [hused]
    exact ⟨List.take_left, List.drop_left⟩
  refine ⟨fun hline => ?_, by omega, by omega, fun s hs => ?_⟩
  · obtain ⟨used, skipped, hused, haccounted, hissues⟩ :=
      parseProgram_accounted p.tokens (line_ne_zero hline)
    refine ⟨skipped, _, hreports, ?_, ?_⟩
    · rw [List.filter_map]
      have hsame : Diagnostic.isUnexpected ∘ Issue.diagnostic = (·.complaint.isUnexpected) :=
        funext isUnexpected_diagnostic
      rw [hsame, hissues, List.map_map]
      rfl
    · rw [(hsplit used hused).1, hvalue]
      exact haccounted
  · have hline : ∀ t ∈ p.tokens, 1 ≤ t.line := by
      rw [hs]
      exact s.one_le_line_tokenize
    obtain ⟨used, skipped, hused, -, -⟩ := parseProgram_accounted p.tokens (line_ne_zero hline)
    refine ⟨hline, ?_⟩
    rw [(hsplit used hused).2, hs]
    exact kind_rest_parseProgram_tokenize s

/-- In `(a b)` the parenthesis is closed by a token that was made up, `b` is a statement of its own,
and the closing parenthesis is skipped. -/
theorem parse_accounts_for_stray_closer :
    let opening : Token := ⟨.leftParen, "(", .null, 1⟩
    let a : Token := ⟨.identifier, "a", .text "a", 1⟩
    let b : Token := ⟨.identifier, "b", .text "b", 1⟩
    let closing : Token := ⟨.rightParen, ")", .null, 1⟩
    let p := Parser.ofTokens [opening, a, b, closing, ⟨.newline, "", .null, 1⟩] {}
    (∀ t ∈ p.tokens, 1 ≤ t.line) ∧ p.parse.2.pos = 4 ∧ yield p.parse.1 = [opening, a, b] ∧
      ∃ skipped new, p.parse.2.reports.records = new ∧
        new.filter Diagnostic.isUnexpected = skipped.map Token.unexpected ∧
        Accounted (p.tokens.take 4) [opening, a, b] skipped := by
  intro opening a b closing p
  have hline : ∀ t ∈ p.tokens, 1 ≤ t.line := by decide
  have hpos : p.parse.2.pos = 4 := by decide +kernel
  have hyield : yield p.parse.1 = [opening, a, b] := by decide +kernel
  refine ⟨hline, hpos, hyield, ?_⟩
  rw [← hpos, ← hyield]
  obtain ⟨skipped, new, hreports, hskipped, haccounted⟩ := (parse_accounts_for_tokens p).1 hline
  exact ⟨skipped, new, by rw [hreports, Diagnostics.records_append]; rfl, hskipped, haccounted⟩

end Scriptlet
