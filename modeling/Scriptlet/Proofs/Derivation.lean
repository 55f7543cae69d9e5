import Scriptlet.Proofs.Spelling

/-!
# Derivations

What the grammar makes of a token list, whether it spells a program or not.

* `Derives`: the productions, with the tokens left over and the issues met. A missing expression
  takes no token; a group whose closing token does not come next is closed by a token that no text
  stands for.
* `Rule.sound_expression`: the rules derive what they read. The combinators are gone through once,
  and every fact about trees that were parsed comes from the productions.
* `Derives.grammatical`: such trees respect the operator levels.
* `exists_derives_of_mem`: a statement of a program is made from an expression that is derived.

`parse_grammatical` puts these together for a parser over any tokens.
-/

namespace Scriptlet

/-- `Derives r ts n rest issues`: the front of `ts` makes the tree `n` and leaves `rest`. The rank
`r` is that of the loosest level whose operators may stand at the root; operands have rank 5. -/
inductive Derives : Nat → List Token → Node → List Token → List Issue → Prop
  | missing (ts : List Token) : Derives 5 ts missing ts []
  | literal {t : Token} (ts : List Token) : t.kind.isLiteral = true →
      Derives 5 (t :: ts) (.literal t) ts []
  | unary {op : Token} {ts rest : List Token} {x : Node} {issues : List Issue} :
      op.kind ∈ prefixOperators → Derives 5 ts x rest issues →
      Derives 5 (op :: ts) (.unary op x) rest issues
  | closed {opening closing : Token} {ts inside rest : List Token} {x : Node}
      {issues : List Issue} : closer? opening.kind = some closing.kind →
      Derives 0 ts x inside issues → skipBlockNewline closing.kind inside = closing :: rest →
      Derives 5 (opening :: ts) (.grouping opening x closing) rest issues
  | unclosed {opening : Token} {k : Kind} {ts inside : List Token} {x : Node}
      {issues : List Issue} : closer? opening.kind = some k → Derives 0 ts x inside issues →
      Derives 5 (opening :: ts) (.grouping opening x (.ofKind k)) (skipBlockNewline k inside)
        (issues ++ expect k (skipBlockNewline k inside))
  | binary {l : Level} {op : Token} {ts us rest : List Token} {x y : Node}
      {issues issues' : List Issue} : op.kind ∈ l.operators →
      Derives l.rank ts x (op :: us) issues → Derives (l.rank + 1) us y rest issues' →
      Derives l.rank ts (.binary x op y) rest (issues ++ issues')
  | operand {r : Nat} {ts rest : List Token} {x : Node} {issues : List Issue} :
      Derives (r + 1) ts x rest issues → Derives r ts x rest issues

namespace Rule

/-- What the rule reads is derived at the given rank. -/
def Sound (rule : Rule) (r : Nat) : Prop :=
  ∀ ts, Derives r ts (rule.run ts).value (rule.run ts).rest (rule.run ts).issues

/-- A closing token that comes next is taken without an issue. -/
theorem closeGroup_cases (closer : Kind) (ts : List Token) :
    (∃ t more, skipBlockNewline closer ts = t :: more ∧ t.kind = closer ∧
      closeGroup closer ts = ⟨t, more, []⟩) ∨
    closeGroup closer ts =
      ⟨.ofKind closer, skipBlockNewline closer ts, expect closer (skipBlockNewline closer ts)⟩ := by
  unfold closeGroup
  cases hskip : skipBlockNewline closer ts with
  | nil => exact .inr rfl
  | cons t more =>
    by_cases ht : t.kind = closer
    · subst ht
      refine .inl ⟨t, more, rfl, rfl, ?_⟩
      simp [expect_cons_self]
    · right
      simp [ht]

theorem Sound.primary {inner : Rule} (h : inner.Sound 0) : (primary inner).Sound 5 := by
  intro ts
  cases ts with
  | nil => exact .missing []
  | cons t ts =>
    unfold Rule.primary
    dsimp only
    by_cases hliteral : t.kind.isLiteral = true
    · rw [if_pos hliteral]
      exact .literal ts hliteral
    · rw [if_neg hliteral]
      cases hcloser : closer? t.kind with
      | none => exact .missing (t :: ts)
      | some k =>
        dsimp only
        rcases closeGroup_cases k (inner.run ts).rest with ⟨c, more, hskip, rfl, hclose⟩ | hclose
        · rw [hclose, List.append_nil]
          exact .closed hcloser (h ts) hskip
        · rw [hclose]
          exact .unclosed hcloser (h ts)

theorem Sound.prefixed {operand : Rule} (h : operand.Sound 5) :
    (operand.prefixed prefixOperators).Sound 5 := by
  intro ts
  induction ts with
  | nil => exact h []
  | cons t ts ih =>
    by_cases ht : t.kind ∈ prefixOperators
    · rw [run_prefixed_operator operand ht]
      exact .unary ht ih
    · rw [run_prefixed_other operand ht]
      exact h (t :: ts)

/-- A chain goes on from a left operand that has been derived. -/
theorem Sound.chainFrom {operand : Rule} {l : Level} (h : operand.Sound (l.rank + 1))
    {ts : List Token} (left : Node) (issues : List Issue) (us : List Token)
    (hleft : Derives l.rank ts left us issues) :
    Derives l.rank ts (chainFrom operand l.operators left issues us).value
      (chainFrom operand l.operators left issues us).rest
      (chainFrom operand l.operators left issues us).issues := by
  fun_induction Rule.chainFrom operand l.operators left issues us with
  | case1 => exact hleft
  | case2 left issues op us hop right ih =>
    exact ih (.binary (List.contains_iff_mem.mp hop) hleft (h us))
  | case3 => exact hleft

theorem Sound.chain {operand : Rule} {l : Level} (h : operand.Sound (l.rank + 1)) :
    (operand.chain l.operators).Sound l.rank :=
  fun ts => h.chainFrom _ _ _ (.operand (h ts))

theorem Sound.equalities {inner : Rule} (h : inner.Sound 0) : (equalities inner).Sound 0 := by
  have hpowers : (powers inner).Sound 4 := h.primary.prefixed.chain (l := .exponent)
  have hproducts : (products inner).Sound 3 := hpowers.chain (l := .factor)
  have hsums : (sums inner).Sound 2 := hproducts.chain (l := .term)
  have hcomparisons : (comparisons inner).Sound 1 := hsums.chain (l := .comparison)
  exact hcomparisons.chain (l := .equality)

/-- **The rules derive what they read**, to any depth. -/
theorem sound_expression (depth : Nat) : (expression depth).Sound 0 := by
  induction depth with
  | zero => exact fun ts => .operand (.operand (.operand (.operand (.operand (.missing ts)))))
  | succ depth ih => exact ih.equalities

end Rule

theorem derives_parseExpression (ts : List Token) :
    Derives 0 ts (parseExpression ts).value (parseExpression ts).rest
      (parseExpression ts).issues :=
  Rule.sound_expression _ ts

theorem complaint_expect {k : Kind} {ts : List Token} {i : Issue} (h : i ∈ expect k ts) :
    i.complaint = .expected k := by
  unfold expect at h
  split at h
  · cases h
  · rw [List.mem_singleton.mp h]

theorem expect_expected (k : Kind) (ts : List Token) :
    ∀ i ∈ expect k ts, ∃ k, i.complaint = .expected k :=
  fun _ hi => ⟨k, complaint_expect hi⟩

namespace Derives

/-- At most the line end in front of a token that closes a block is skipped. -/
theorem skipBlockNewline_cases (k : Kind) (ts : List Token) :
    skipBlockNewline k ts = ts ∨
      ∃ t, t.kind = .newline ∧ ts = t :: skipBlockNewline k ts := by
  unfold skipBlockNewline
  split
  · rename_i a b more
    split
    · rename_i h
      exact .inr ⟨a, h.2.1, rfl⟩
    · exact .inl rfl
  · exact .inl rfl

theorem skipBlockNewline_suffix (k : Kind) (ts : List Token) : skipBlockNewline k ts <:+ ts := by
  rcases skipBlockNewline_cases k ts with h | ⟨t, -, h⟩
  · exact ⟨[], h⟩
  · exact ⟨[t], h.symm⟩

variable {r : Nat} {ts rest : List Token} {n : Node} {issues : List Issue}

/-- What is left over stands at the end of the tokens. -/
theorem suffix (h : Derives r ts n rest issues) : rest <:+ ts := by
  induction h with
  | missing ts => exact List.suffix_refl ts
  | literal ts _ => exact List.suffix_cons _ ts
  | unary _ _ ih => exact ih.trans (List.suffix_cons _ _)
  | @closed opening closing ts inside rest x _ _ _ hskip ih =>
    have hrest : rest <:+ closing :: rest := List.suffix_cons _ _
    rw [← hskip] at hrest
    exact ((hrest.trans (skipBlockNewline_suffix _ _)).trans ih).trans (List.suffix_cons _ _)
  | unclosed _ _ ih =>
    exact ((skipBlockNewline_suffix _ _).trans ih).trans (List.suffix_cons _ _)
  | binary _ _ _ ihx ihy => exact (ihy.trans (List.suffix_cons _ _)).trans ihx
  | operand _ ih => exact ih

/-- **Trees that are derived respect the operator levels**, over leaves that are literals of the
token list or stand for what is missing. -/
theorem grammatical {leaf : Token → Prop} (h : Derives r ts n rest issues)
    (hmissing : leaf (.ofKind .endOfInput))
    (hliteral : ∀ t ∈ ts, t.kind.isLiteral = true → leaf t) :
    n.Grammatical leaf ∧ (∀ m, n.BinaryOf m → r ≤ m.rank) ∧ (5 ≤ r → n.IsOperand) := by
  induction h with
  | missing ts => exact ⟨.literal hmissing, fun _ h => h.elim, fun _ => trivial⟩
  | literal ts ht =>
    exact ⟨.literal (hliteral _ List.mem_cons_self ht), fun _ h => h.elim, fun _ => trivial⟩
  | unary hop _ ih =>
    obtain ⟨hx, -, hoperand⟩ := ih fun t ht => hliteral t (List.mem_cons_of_mem _ ht)
    exact ⟨.unary hop (hoperand (Nat.le_refl 5)) hx, fun _ h => h.elim, fun _ => trivial⟩
  | closed hclose _ _ ih =>
    obtain ⟨hx, -, -⟩ := ih fun t ht => hliteral t (List.mem_cons_of_mem _ ht)
    exact ⟨.grouping hclose hx, fun _ h => h.elim, fun _ => trivial⟩
  | unclosed hclose _ ih =>
    obtain ⟨hx, -, -⟩ := ih fun t ht => hliteral t (List.mem_cons_of_mem _ ht)
    exact ⟨.grouping hclose hx, fun _ h => h.elim, fun _ => trivial⟩
  | @binary l op ts us rest x y _ _ hop hx _ ihx ihy =>
    have hus : ∀ t ∈ us, t ∈ ts := fun t ht => hx.suffix.subset (List.mem_cons_of_mem op ht)
    obtain ⟨hleft, hlooser, -⟩ := ihx hliteral
    obtain ⟨hright, htighter, -⟩ := ihy fun t ht => hliteral t (hus t ht)
    refine ⟨.binary hop hlooser htighter hleft hright, ?_, ?_⟩
    · intro m hm
      exact Nat.le_of_eq (congrArg Level.rank (Level.eq_of_mem_operators hop hm))
    · intro hrank
      have : l.rank ≤ 4 := by cases l <;> decide
      omega
  | operand _ ih =>
    obtain ⟨hx, hlooser, hoperand⟩ := ih hliteral
    exact ⟨hx, fun m hm => Nat.le_of_succ_le (hlooser m hm), fun hr => hoperand (by omega)⟩

/-- The issues met in an expression are about tokens that are missing. -/
theorem expected (h : Derives r ts n rest issues) :
    ∀ i ∈ issues, ∃ k, i.complaint = .expected k := by
  induction h with
  | missing => simp
  | literal => simp
  | unary _ _ ih => exact ih
  | closed _ _ _ ih => exact ih
  | unclosed _ _ ih =>
    intro i hi
    rcases List.mem_append.mp hi with hi | hi
    · exact ih i hi
    · exact expect_expected _ _ i hi
  | binary _ _ _ ihx ihy =>
    intro i hi
    rcases List.mem_append.mp hi with hi | hi
    · exact ihx i hi
    · exact ihy i hi
  | operand _ ih => exact ih

end Derives

/-! ## Statements -/

/-- What a statement is read from: an expression behind an optional `print`. -/
theorem parseStatement_cases (ts : List Token) :
    (∃ t more, ts = t :: more ∧ t.kind = .kwPrint ∧ parseStatement ts =
      ⟨.print (parseExpression more).value, skipNewline (parseExpression more).rest,
        (parseExpression more).issues ++ expect .newline (parseExpression more).rest⟩) ∨
    (∀ t ∈ ts.head?, t.kind ≠ .kwPrint) ∧ parseStatement ts =
      ⟨.expression (parseExpression ts).value, skipNewline (parseExpression ts).rest,
        (parseExpression ts).issues⟩ := by
  cases ts with
  | nil => exact .inr ⟨by simp, rfl⟩
  | cons t more =>
    unfold parseStatement
    by_cases ht : t.kind = .kwPrint
    · exact .inl ⟨t, more, rfl, ht, by simp [ht]⟩
    · refine .inr ⟨?_, by simp [ht]⟩
      rintro u ⟨⟩
      exact ht

theorem skipNewline_suffix (ts : List Token) : skipNewline ts <:+ ts := by
  unfold skipNewline
  split
  · exact List.suffix_refl []
  · split
    · exact List.suffix_cons _ _
    · exact List.suffix_refl _

theorem parseStatement_suffix (ts : List Token) : (parseStatement ts).rest <:+ ts := by
  rcases parseStatement_cases ts with ⟨t, more, rfl, -, hparse⟩ | ⟨-, hparse⟩
  · rw [hparse]
    exact ((skipNewline_suffix _).trans (derives_parseExpression more).suffix).trans
      (List.suffix_cons t more)
  · rw [hparse]
    exact (skipNewline_suffix _).trans (derives_parseExpression ts).suffix

/-- **A statement of a program is made from an expression that is derived** from tokens of it. -/
theorem exists_derives_of_mem {ts : List Token} {n : Node} (h : n ∈ (parseProgram ts).value) :
    ∃ us e rest issues, us <:+ ts ∧ Derives 0 us e rest issues ∧
      (n = .print e ∨ n = .expression e) := by
  fun_induction parseProgram ts with
  | case1 t next more statement hlt program ih =>
    rcases List.mem_cons.mp h with rfl | h
    · rcases parseStatement_cases (t :: next :: more) with ⟨u, us, hcons, -, hparse⟩ | ⟨-, hparse⟩
      · cases hcons
        exact ⟨next :: more, _, _, _, List.suffix_cons _ _, derives_parseExpression _,
          .inl (congrArg Parsed.value hparse)⟩
      · exact ⟨t :: next :: more, _, _, _, List.suffix_refl _, derives_parseExpression _,
          .inr (congrArg Parsed.value hparse)⟩
    · obtain ⟨us, e, rest, issues, hus, hderives, hn⟩ := ih h
      exact ⟨us, e, rest, issues, hus.trans (parseStatement_suffix _), hderives, hn⟩
  | case2 t next more statement hlt program ih =>
    obtain ⟨us, e, rest, issues, hus, hderives, hn⟩ := ih h
    exact ⟨us, e, rest, issues, hus.trans (List.suffix_cons _ _), hderives, hn⟩
  | case3 ts _ => cases h

/-! ## Parsers -/

namespace Parser

/-- Parsing reads the program from the first token on. -/
theorem parse_eq (p : Parser) : p.parse.1 = (parseProgram p.tokens).value ∧
    p.parse.2.reports = p.reports ++ (parseProgram p.tokens).issues.map Issue.diagnostic ∧
    p.parse.2.failed = !(parseProgram p.tokens).issues.isEmpty ∧
    p.parse.2.pos = p.tokens.length - (parseProgram p.tokens).rest.length :=
  ⟨rfl, rfl, rfl, rfl⟩

end Parser

/-- **Whatever the tokens, what is parsed respects the grammar.** Its leaves are literals of the
token list, or stand for what is missing. All that parsing reports is of its own stage, and the
parser has failed exactly if there is a report. -/
theorem parse_grammatical (p : Parser) :
    (∀ n ∈ p.parse.1, ∃ e : Node, (n = .print e ∨ n = .expression e) ∧
      e.Grammatical fun t => t ∈ p.tokens ∧ t.kind.isLiteral = true ∨ t = .ofKind .endOfInput) ∧
    ∃ new : List Diagnostic, p.parse.2.reports = p.reports ++ new ∧
      (∀ d ∈ new, d.stage = Diagnostic.parsing) ∧
      (p.parse.2.failed = true ↔ new ≠ []) := by
  obtain ⟨hvalue, hreports, hfailed, -⟩ := p.parse_eq
  refine ⟨fun n hn => ?_, _, hreports, fun d hd => ?_, ?_⟩
  · rw [hvalue] at hn
    obtain ⟨us, e, rest, issues, hus, hderives, hstatement⟩ := exists_derives_of_mem hn
    have hliteral : ∀ t ∈ us, t.kind.isLiteral = true →
        t ∈ p.tokens ∧ t.kind.isLiteral = true ∨ t = .ofKind .endOfInput :=
      fun t ht hk => .inl ⟨hus.subset ht, hk⟩
    exact ⟨e, hstatement, (hderives.grammatical (.inr rfl) hliteral).1⟩
  · obtain ⟨i, -, rfl⟩ := List.mem_map.mp hd
    rfl
  · rw [hfailed, Bool.not_eq_true', List.isEmpty_eq_false_iff, ne_eq, ne_eq, List.map_eq_nil_iff]

end Scriptlet
