import Scriptlet.Proofs.Blocks

/-!
# Programs one behind the other

A rule that reads without an issue and leaves a token has not seen what stands behind: the search
for a token that is missing is the only look ahead, and it found one.

* `Rule.Local`: what a rule reads of a token list it also reads with more tokens behind, where it
  may allow for more nesting. `Local.primary`, `Local.prefixed`, `Local.chain` go through the
  combinators, and `local_expression` ties the knot.
* `WholeLines`: lines without blocks, each ended by a line end.
* `parseProgram_append`: a program in whole lines is read the same in front of another one, which is
  read as if it were alone.
-/

namespace Scriptlet

/-- What has been read, with more tokens behind. -/
def Parsed.before {α : Type} (parsed : Parsed α) (behind : List Token) : Parsed α :=
  { parsed with rest := parsed.rest ++ behind }

theorem expect_append {k : Kind} {ts : List Token} (h : expect k ts = []) (behind : List Token) :
    expect k (ts ++ behind) = [] := by
  obtain ⟨t, ht, hk⟩ := Derives.exists_mem_of_expect h
  exact expect_of_mem ⟨t, List.mem_append_left behind ht, hk⟩

/-- The token that closes a group is found before what stands behind. -/
theorem closeGroup_append {closer : Kind} {ts : List Token}
    (hissues : (closeGroup closer ts).issues = []) (hrest : (closeGroup closer ts).rest ≠ [])
    (behind : List Token) :
    closeGroup closer (ts ++ behind) = (closeGroup closer ts).before behind := by
  have hclose : ∀ (t : Token) (us : List Token), skipBlockNewline closer ts = t :: us →
      skipBlockNewline closer (ts ++ behind) = t :: us ++ behind →
      closeGroup closer (ts ++ behind) = (closeGroup closer ts).before behind := by
    intro t us hskip hskip'
    unfold closeGroup at hissues ⊢
    rw [hskip] at hissues ⊢
    rw [hskip']
    by_cases ht : t.kind = closer
    · rw [← ht]
      simp [Parsed.before, Rule.expect_cons_self]
    · simp only [List.cons_append, ht, if_false] at hissues ⊢
      have hexpect := expect_append hissues behind
      rw [List.cons_append] at hexpect
      rw [hexpect]
      simp only [Parsed.before, hissues, List.cons_append]
  cases ts with
  | nil => cases hissues
  | cons a ts =>
    cases ts with
    | nil =>
      -- a single token is the one that closes, with nothing left, or it is missing
      by_cases ha : a.kind = closer
      · exact absurd (by simp [closeGroup, skipBlockNewline, ha]) hrest
      · simp [closeGroup, skipBlockNewline, expect, ha] at hissues
    | cons b ts =>
      by_cases hblock : closer = .dedent ∧ a.kind = .newline ∧ b.kind = .dedent
      · exact hclose b ts (if_pos hblock) (if_pos hblock)
      · exact hclose a (b :: ts) (if_neg hblock) (if_neg hblock)

namespace Rule

/-- In fewer than `n` tokens, what `r` reads without an issue and without coming to the end is what
`r'` reads with more tokens behind. -/
def Local (n : Nat) (r r' : Rule) : Prop :=
  ∀ ts behind : List Token, ts.length < n → (r.run ts).issues = [] → (r.run ts).rest ≠ [] →
    r'.run (ts ++ behind) = (r.run ts).before behind

variable {n : Nat} {r r' : Rule}

theorem Local.primary (h : Local n r r') : Local (n + 1) (primary r) (primary r') := by
  intro ts behind hlength hissues hrest
  cases ts with
  | nil => exact absurd rfl hrest
  | cons t ts =>
    unfold Rule.primary at hissues hrest ⊢
    simp only [List.cons_append] at hissues hrest ⊢
    by_cases hliteral : t.kind.isLiteral = true
    · rw [if_pos hliteral, if_pos hliteral]
      rfl
    · rw [if_neg hliteral] at hissues hrest
      rw [if_neg hliteral, if_neg hliteral]
      cases hcloser : closer? t.kind with
      | none => rfl
      | some closer =>
        rw [hcloser] at hissues hrest
        dsimp only at hissues hrest ⊢
        obtain ⟨hbody, hclosing⟩ := List.append_eq_nil_iff.mp hissues
        have hleft : (r.run ts).rest ≠ [] := by
          intro hnil
          rw [hnil] at hclosing
          cases hclosing
        rw [h ts behind (Nat.lt_of_succ_lt_succ hlength) hbody hleft]
        have hclose := closeGroup_append hclosing hrest behind
        simp only [Parsed.before] at hclose ⊢
        rw [hclose]

theorem Local.prefixed (h : Local n r r') (operators : List Kind) :
    Local n (r.prefixed operators) (r'.prefixed operators) := by
  intro ts behind hlength hissues hrest
  unfold Rule.prefixed at hissues hrest ⊢
  dsimp only at hissues hrest ⊢
  have hne : ts.dropWhile (fun t => operators.contains t.kind) ≠ [] := by
    intro hnil
    have hle := r.length_rest_le (ts.dropWhile fun t => operators.contains t.kind)
    rw [hnil] at hle hrest
    exact hrest (List.eq_nil_of_length_eq_zero (Nat.le_zero.mp hle))
  have hshort : (ts.dropWhile fun t => operators.contains t.kind).length ≤ ts.length :=
    (List.dropWhile_sublist _).length_le
  obtain ⟨htake, hdrop⟩ := takeWhile_append_of_dropWhile_ne hne behind
  rw [htake, hdrop, h _ behind (Nat.lt_of_le_of_lt hshort hlength) hissues hrest]
  rfl

/-- The issues met so far come first. -/
theorem issues_chainFrom_prefix (operand : Rule) (operators : List Kind) (left : Node)
    (issues : List Issue) (ts : List Token) :
    issues <+: (chainFrom operand operators left issues ts).issues := by
  fun_induction chainFrom operand operators left issues ts with
  | case1 left issues => exact List.prefix_refl issues
  | case2 left issues t ts _ right ih => exact (List.prefix_append issues right.issues).trans ih
  | case3 left issues => exact List.prefix_refl issues

theorem Local.chainFrom (h : Local n r r') (operators : List Kind) (left : Node)
    (issues : List Issue) (ts behind : List Token) (hlength : ts.length < n)
    (hissues : (chainFrom r operators left issues ts).issues = [])
    (hrest : (chainFrom r operators left issues ts).rest ≠ []) :
    chainFrom r' operators left issues (ts ++ behind) =
      (chainFrom r operators left issues ts).before behind := by
  fun_induction Rule.chainFrom r operators left issues ts with
  | case1 left issues => exact absurd rfl hrest
  | case2 left issues t ts hop right ih =>
    have hnone : issues ++ right.issues = [] := by
      have hfront := issues_chainFrom_prefix r operators (.binary left t right.value)
        (issues ++ right.issues) right.rest
      rw [hissues] at hfront
      exact List.prefix_nil.mp hfront
    have hleft : right.rest ≠ [] := by
      intro hnil
      rw [hnil, Rule.chainFrom] at hrest
      exact hrest rfl
    have hright := h ts behind (Nat.lt_of_succ_lt hlength) (List.append_eq_nil_iff.mp hnone).2 hleft
    have hshort : right.rest.length < n :=
      Nat.lt_of_le_of_lt (r.length_rest_le ts) (Nat.lt_of_succ_lt hlength)
    rw [List.cons_append, Rule.chainFrom, if_pos hop, hright]
    exact ih hshort hissues hrest
  | case3 left issues t ts hop =>
    rw [List.cons_append, Rule.chainFrom, if_neg hop]
    rfl

theorem Local.chain (h : Local n r r') (operators : List Kind) :
    Local n (r.chain operators) (r'.chain operators) := by
  intro ts behind hlength hissues hrest
  unfold Rule.chain at hissues hrest ⊢
  dsimp only at hissues hrest ⊢
  have hnone : (r.run ts).issues = [] := by
    have hfront := issues_chainFrom_prefix r operators (r.run ts).value (r.run ts).issues
      (r.run ts).rest
    rw [hissues] at hfront
    exact List.prefix_nil.mp hfront
  have hleft : (r.run ts).rest ≠ [] := by
    intro hnil
    rw [hnil, Rule.chainFrom] at hrest
    exact hrest rfl
  rw [h ts behind hlength hnone hleft]
  exact h.chainFrom operators _ _ _ behind (Nat.lt_of_le_of_lt (r.length_rest_le ts) hlength)
    hissues hrest

/-- **Expressions are local**, and a depth that suffices may be any. -/
theorem local_expression {n d d' : Nat} (hd : n ≤ d) (hd' : n ≤ d') :
    Local n (expression d) (expression d') := by
  induction n generalizing d d' with
  | zero =>
    intro ts behind hlength
    exact absurd hlength (Nat.not_lt_zero _)
  | succ n ih =>
    obtain ⟨e, rfl⟩ := Nat.exists_eq_add_of_lt hd
    obtain ⟨e', rfl⟩ := Nat.exists_eq_add_of_lt hd'
    have hinner : Local n (expression (n + e)) (expression (n + e')) :=
      ih (Nat.le_add_right n e) (Nat.le_add_right n e')
    exact ((((((hinner.primary.prefixed prefixOperators).chain Level.exponent.operators).chain
      Level.factor.operators).chain Level.term.operators).chain Level.comparison.operators).chain
      Level.equality.operators)

end Rule

theorem parseExpression_append {ts : List Token} (hissues : (parseExpression ts).issues = [])
    (hrest : (parseExpression ts).rest ≠ []) (behind : List Token) :
    parseExpression (ts ++ behind) = (parseExpression ts).before behind := by
  have hd : ts.length + 1 ≤ (ts ++ behind).length + 1 := by simp
  exact Rule.local_expression (Nat.le_refl _) hd ts behind (Nat.lt_succ_self _) hissues hrest

/-! ## Whole lines -/

/-- Lines without blocks, each of them with a token in front of its line end. -/
structure WholeLines (ts : List Token) : Prop where
  noBlock : ∀ t ∈ ts, t.kind ≠ .indent
  first : ∀ t ∈ ts.head?, t.kind ≠ .newline
  apart : ts.IsChain fun a b => a.kind = .newline → b.kind ≠ .newline
  last : ∀ t ∈ ts.getLast?, t.kind = .newline

/-- Without blocks, an expression ends before the line end. -/
theorem exists_newline_rest {ts : List Token} (hblock : ∀ t ∈ ts, t.kind ≠ .indent)
    (hnewline : ∃ t ∈ ts, t.kind = .newline) :
    ∃ t ∈ (parseExpression ts).rest, t.kind = .newline := by
  obtain ⟨t, ht, hk⟩ := hnewline
  have hopens : OpensAtLines ts :=
    (List.pairwise_of_forall_mem_list fun a _ b hb hindent => absurd hindent (hblock b hb)).isChain
  have hhead : ∀ t ∈ ts.head?, t.kind ≠ .indent := fun t ht => hblock t (List.mem_of_head? ht)
  obtain ⟨⟨used, hused, hlayout⟩, -⟩ := (derives_parseExpression ts).within_line ⟨hhead, hopens⟩
  rw [hused] at ht
  exact ⟨t, mem_of_isLayout hlayout ht (by rw [hk]; rfl), hk⟩

theorem skipNewline_append {ts : List Token} (h : ts ≠ []) (behind : List Token) :
    skipNewline (ts ++ behind) = skipNewline ts ++ behind := by
  obtain ⟨t, ts, rfl⟩ := List.exists_cons_of_ne_nil h
  simp only [List.cons_append, skipNewline]
  split
  · rfl
  · rfl

namespace WholeLines

variable {ts : List Token}

theorem exists_newline (h : WholeLines ts) (hne : ts ≠ []) : ∃ t ∈ ts, t.kind = .newline :=
  ⟨_, List.getLast_mem hne, h.last _ (Option.mem_def.mpr (List.getLast?_eq_some_getLast hne))⟩

/-- What is left behind a line end, or in front of other tokens, is in whole lines again. -/
theorem skipNewline (h : WholeLines ts) {us : List Token} (hus : us <:+ ts) :
    WholeLines (skipNewline us) := by
  have hsuffix := (skipNewline_suffix us).trans hus
  refine ⟨fun t ht => h.noBlock t (hsuffix.subset ht), fun t ht => ?_,
    List.IsChain.suffix h.apart hsuffix, fun t ht => ?_⟩
  · unfold Scriptlet.skipNewline at ht
    cases us with
    | nil => cases ht
    | cons u us =>
      dsimp only at ht
      split at ht
      · rename_i hu
        exact (List.isChain_cons.mp (List.IsChain.suffix h.apart hus)).1 t ht hu
      · rename_i hu
        cases ht
        exact hu
  · obtain ⟨front, hfront⟩ := hsuffix
    refine h.last t ?_
    rw [← hfront, List.getLast?_append, Option.mem_def.mp ht]
    rfl

/-- **Statements in whole lines are local.** -/
theorem parseStatement_append (h : WholeLines ts) (hne : ts ≠ [])
    (hissues : (parseStatement ts).issues = []) (behind : List Token) :
    parseStatement (ts ++ behind) = (parseStatement ts).before behind ∧
      WholeLines (parseStatement ts).rest := by
  obtain ⟨t, more, rfl⟩ := List.exists_cons_of_ne_nil hne
  by_cases hprint : t.kind = .kwPrint
  · have hmore : ∃ u ∈ more, u.kind = .newline := by
      obtain ⟨u, hu, hk⟩ := h.exists_newline hne
      rcases List.mem_cons.mp hu with rfl | hu
      · rw [hprint] at hk
        cases hk
      · exact ⟨u, hu, hk⟩
    have hblock : ∀ u ∈ more, u.kind ≠ .indent := fun u hu =>
      h.noBlock u (List.mem_cons_of_mem t hu)
    obtain ⟨u, hu, hk⟩ := exists_newline_rest hblock hmore
    have hrest := List.ne_nil_of_mem hu
    simp only [List.cons_append, parseStatement, if_pos hprint] at hissues ⊢
    obtain ⟨hexpression, hexpect⟩ := List.append_eq_nil_iff.mp hissues
    rw [parseExpression_append hexpression hrest]
    have hsuffix := (derives_parseExpression more).suffix.trans (List.suffix_cons t more)
    refine ⟨?_, h.skipNewline hsuffix⟩
    simp only [Parsed.before, skipNewline_append hrest, hexpect, expect_append hexpect]
  · obtain ⟨u, hu, hk⟩ := exists_newline_rest h.noBlock (h.exists_newline hne)
    have hrest := List.ne_nil_of_mem hu
    simp only [List.cons_append, parseStatement, if_neg hprint] at hissues ⊢
    rw [← List.cons_append, parseExpression_append hissues hrest]
    refine ⟨?_, h.skipNewline (derives_parseExpression (t :: more)).suffix⟩
    simp only [Parsed.before, skipNewline_append hrest]

/-- **Programs compose.** -/
theorem parseProgram_append (h : WholeLines ts) (hissues : (parseProgram ts).issues = [])
    (behind : List Token) :
    parseProgram (ts ++ behind) =
      ⟨(parseProgram ts).value ++ (parseProgram behind).value, (parseProgram behind).rest,
        (parseProgram behind).issues⟩ := by
  fun_induction parseProgram ts with
  | case1 t next more statement hlt program ih =>
    obtain ⟨hstatement, hprogram⟩ := List.append_eq_nil_iff.mp hissues
    obtain ⟨happend, hlines⟩ :=
      h.parseStatement_append (List.cons_ne_nil t (next :: more)) hstatement behind
    have hshort : (parseStatement (t :: next :: more ++ behind)).rest.length <
        (t :: next :: more ++ behind).length := by
      rw [happend, Parsed.before, List.length_append, List.length_append]
      exact Nat.add_lt_add_right hlt behind.length
    have hlater := ih hlines hprogram
    simp only [List.cons_append] at happend hshort ⊢
    rw [parseProgram, dif_pos hshort, happend]
    simp only [Parsed.before]
    rw [hlater, hstatement]
    rfl
  | case2 t next more statement hlt program ih =>
    exact absurd (List.append_eq_nil_iff.mp hissues).2 (List.cons_ne_nil _ _)
  | case3 ts hshort =>
    cases ts with
    | nil => rfl
    | cons t ts =>
      cases ts with
      | cons u ts => exact absurd rfl (hshort t u ts)
      | nil => exact absurd (h.last t rfl) (h.first t rfl)

end WholeLines

end Scriptlet
