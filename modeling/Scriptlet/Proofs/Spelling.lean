import Scriptlet.Tree.Parser

/-!
# Trees and the tokens that spell them

* `Node.Grammatical`: the trees that respect the operator levels, over leaves of a given sort.
  `Node.Canonical` are those whose leaves are literals.
* `Node.Spelled`: the tokens of a tree in order. An indented block may have a line end just before
  the token that closes it, which the tree does not show.
* `SpelledProgram`: statements over canonical trees, each with a line end after it.

Principal results: `Rule.readsBack_spelled`, by induction on the tree: the rule of a level reads a
tree back and goes on with whatever follows.  `parse_spelled_program`: parsing a spelled
program gives its statements and passes every token, without an issue.
-/

namespace Scriptlet

/-- Places of the levels, loosest first. -/
def Level.rank : Level → Nat
  | equality => 0
  | comparison => 1
  | term => 2
  | factor => 3
  | exponent => 4

theorem Level.rank_injective {l m : Level} (h : l.rank = m.rank) : l = m := by
  cases l <;> cases m <;> simp [rank] at h <;> rfl

/-- An operator belongs to one level only. -/
theorem Level.eq_of_mem_operators {k : Kind} {l m : Level} (hl : k ∈ l.operators)
    (hm : k ∈ m.operators) : l = m := by
  cases l <;> cases m <;> grind [operators]

namespace Node

/-- A binary tree whose operator is of the level. -/
def BinaryOf (l : Level) : Node → Prop
  | binary _ op _ => op.kind ∈ l.operators
  | _ => False

/-- What a prefix operator can stand before. -/
def IsOperand : Node → Prop
  | unary .. | literal _ | grouping .. => True
  | _ => False

/-- Trees that respect the levels: a left operand is not of a looser level than its operator, and
a right operand neither of a looser nor of the same level. -/
inductive Grammatical (leaf : Token → Prop) : Node → Prop
  | literal {t : Token} : leaf t → Grammatical leaf (.literal t)
  | unary {op : Token} {x : Node} : op.kind ∈ prefixOperators → x.IsOperand →
      Grammatical leaf x → Grammatical leaf (.unary op x)
  | binary {l : Level} {x y : Node} {op : Token} : op.kind ∈ l.operators →
      (∀ m, x.BinaryOf m → l.rank ≤ m.rank) → (∀ m, y.BinaryOf m → l.rank < m.rank) →
      Grammatical leaf x → Grammatical leaf y → Grammatical leaf (.binary x op y)
  | grouping {opening closing : Token} {x : Node} : closer? opening.kind = some closing.kind →
      Grammatical leaf x → Grammatical leaf (.grouping opening x closing)

/-- Trees that respect the levels and have a literal at each leaf. -/
def Canonical : Node → Prop := Grammatical fun t => t.kind.isLiteral

/-- The tokens of a tree, in order. -/
inductive Spelled : Node → List Token → Prop
  | literal (t : Token) : Spelled (.literal t) [t]
  | unary {op : Token} {x : Node} {ts : List Token} :
      Spelled x ts → Spelled (.unary op x) (op :: ts)
  | binary {x y : Node} {op : Token} {ts us : List Token} :
      Spelled x ts → Spelled y us → Spelled (.binary x op y) (ts ++ op :: us)
  | grouping {opening closing : Token} {x : Node} {ts : List Token} :
      Spelled x ts → Spelled (.grouping opening x closing) (opening :: ts ++ [closing])
  | block {opening newline closing : Token} {x : Node} {ts : List Token} :
      opening.kind = .indent → newline.kind = .newline → Spelled x ts →
      Spelled (.grouping opening x closing) (opening :: ts ++ [newline, closing])

theorem BinaryOf.level_unique {n : Node} {l m : Level} (hl : n.BinaryOf l) (hm : n.BinaryOf m) :
    l = m := by
  cases n with
  | binary x op y => exact Level.eq_of_mem_operators hl hm
  | _ => exact hl.elim

theorem Grammatical.isOperand_or_binaryOf {leaf : Token → Prop} {n : Node}
    (h : n.Grammatical leaf) : n.IsOperand ∨ ∃ l, n.BinaryOf l := by
  cases h with
  | literal _ => exact .inl trivial
  | unary _ _ _ => exact .inl trivial
  | @binary l x y op hop _ _ _ _ => exact .inr ⟨l, hop⟩
  | grouping _ _ => exact .inl trivial

end Node

/-- The tokens of a statement over a canonical tree, with the line end after it. -/
inductive SpelledStatement : Node → List Token → Prop
  | print {keyword newline : Token} {x : Node} {ts : List Token} : keyword.kind = .kwPrint →
      newline.kind = .newline → x.Canonical → x.Spelled ts →
      SpelledStatement (.print x) (keyword :: ts ++ [newline])
  | expression {newline : Token} {x : Node} {ts : List Token} : newline.kind = .newline →
      x.Canonical → x.Spelled ts → SpelledStatement (.expression x) (ts ++ [newline])

/-- The tokens of a list of statements. -/
inductive SpelledProgram : List Node → List Token → Prop
  | nil : SpelledProgram [] []
  | cons {n : Node} {ns : List Node} {ts us : List Token} : SpelledStatement n ts →
      SpelledProgram ns us → SpelledProgram (n :: ns) (ts ++ us)

/-! ## Rules and what follows -/

/-- No operator of a level tighter than `l` comes next. -/
def Settled (l : Level) (ts : List Token) : Prop :=
  ∀ m : Level, l.rank < m.rank → startsWith m.operators ts = false

theorem startsWith_cons (kinds : List Kind) (t : Token) (ts : List Token) :
    startsWith kinds (t :: ts) = kinds.contains t.kind := rfl

theorem Settled.mono {l m : Level} {ts : List Token} (h : Settled l ts) (hlm : l.rank ≤ m.rank) :
    Settled m ts :=
  fun k hk => h k (Nat.lt_of_le_of_lt hlm hk)

/-- An operator ends every operand of its level. -/
theorem settled_operator {l : Level} {op : Token} (h : op.kind ∈ l.operators) (ts : List Token) :
    Settled l (op :: ts) := by
  intro m hm
  rw [startsWith_cons]
  cases hc : m.operators.contains op.kind with
  | false => rfl
  | true =>
    have := Level.eq_of_mem_operators h (List.contains_iff_mem.mp hc)
    subst this
    omega

namespace Rule

/-- The rule for the operands of a level: the next tighter level, or prefix operators. -/
def operand (inner : Rule) : Level → Rule
  | .exponent => unary inner
  | .factor => powers inner
  | .term => products inner
  | .comparison => sums inner
  | .equality => comparisons inner

theorem level_eq_chain (inner : Rule) (l : Level) :
    level inner l = (operand inner l).chain l.operators := by
  cases l <;> rfl

theorem operand_eq_level (inner : Rule) {l m : Level} (h : m.rank = l.rank + 1) :
    operand inner l = level inner m := by
  cases l <;> cases m <;> simp [Level.rank] at h <;> rfl

theorem chainFrom_of_not_startsWith (operand : Rule) {operators : List Kind} (left : Node)
    (issues : List Issue) {ts : List Token} (h : startsWith operators ts = false) :
    chainFrom operand operators left issues ts = ⟨left, ts, issues⟩ := by
  cases ts with
  | nil => rw [chainFrom]
  | cons t ts =>
    rw [startsWith_cons] at h
    rw [chainFrom, if_neg (by rw [h]; exact Bool.false_ne_true)]

theorem chainFrom_operator (operand : Rule) {operators : List Kind} (left : Node)
    (issues : List Issue) {op : Token} (ts : List Token) (h : op.kind ∈ operators) :
    chainFrom operand operators left issues (op :: ts) =
      chainFrom operand operators (.binary left op (operand.run ts).value)
        (issues ++ (operand.run ts).issues) (operand.run ts).rest := by
  rw [chainFrom, if_pos (List.contains_iff_mem.mpr h)]

/-- A level that has read its first operand goes on with the operators after it. -/
theorem run_level_of_operand {inner : Rule} {l : Level} {ts rest : List Token} {n : Node}
    (h : (operand inner l).run ts = ⟨n, rest, []⟩) :
    (level inner l).run ts = chainFrom (operand inner l) l.operators n [] rest := by
  rw [level_eq_chain]
  show chainFrom _ _ ((operand inner l).run ts).value ((operand inner l).run ts).issues
    ((operand inner l).run ts).rest = _
  rw [h]

/-- What a level has read in full is an operand of every looser level, if no operator in between
comes next. -/
theorem run_operand_of_level {inner : Rule} {l m : Level} {ts rest : List Token} {n : Node}
    (hlm : l.rank < m.rank) (hs : Settled l rest)
    (h : (level inner m).run ts = chainFrom (operand inner m) m.operators n [] rest) :
    (operand inner l).run ts = ⟨n, rest, []⟩ := by
  -- downwards from `m`: each level below it ends where the one above it ended
  obtain ⟨gap, hgap⟩ : ∃ gap, m.rank = l.rank + 1 + gap := ⟨m.rank - l.rank - 1, by omega⟩
  have hfull : (level inner m).run ts = ⟨n, rest, []⟩ := by
    rw [h, chainFrom_of_not_startsWith _ _ _ (hs m hlm)]
  clear h
  induction gap generalizing m with
  | zero => rw [operand_eq_level inner hgap]; exact hfull
  | succ gap ih =>
    obtain ⟨k, hk⟩ : ∃ k : Level, m.rank = k.rank + 1 := by
      cases m with
      | equality => simp [Level.rank] at hgap
      | comparison => exact ⟨.equality, rfl⟩
      | term => exact ⟨.comparison, rfl⟩
      | factor => exact ⟨.term, rfl⟩
      | exponent => exact ⟨.factor, rfl⟩
    have hlk : l.rank < k.rank := by omega
    refine ih hlk (by omega) ?_
    rw [run_level_of_operand (by rw [operand_eq_level inner hk]; exact hfull),
      chainFrom_of_not_startsWith _ _ _ (hs k hlk)]

/-- An operand with prefix operators is an operand of every level, if no operator tighter than the
level comes next. -/
theorem run_operand_of_unary {inner : Rule} {l : Level} {ts rest : List Token} {n : Node}
    (hs : Settled l rest) (h : (unary inner).run ts = ⟨n, rest, []⟩) :
    (operand inner l).run ts = ⟨n, rest, []⟩ := by
  by_cases hl : l = .exponent
  · subst hl; exact h
  · have hlt : l.rank < Level.exponent.rank := by
      cases l <;> simp [Level.rank] at hl ⊢
    exact run_operand_of_level hlt hs (run_level_of_operand (l := .exponent) h)

/-! ## Reading a tree back -/

theorem run_prefixed_operator (operand : Rule) {operators : List Kind} {op : Token}
    (h : op.kind ∈ operators) (ts : List Token) :
    (operand.prefixed operators).run (op :: ts) =
      { (operand.prefixed operators).run ts with
        value := .unary op ((operand.prefixed operators).run ts).value } := by
  have hop : operators.contains op.kind = true := List.contains_iff_mem.mpr h
  simp only [prefixed, List.takeWhile_cons, List.dropWhile_cons, hop, if_true, List.foldr_cons]

theorem run_prefixed_other (operand : Rule) {operators : List Kind} {t : Token}
    (h : t.kind ∉ operators) (ts : List Token) :
    (operand.prefixed operators).run (t :: ts) = operand.run (t :: ts) := by
  have ht : operators.contains t.kind = false := by simpa using h
  simp only [prefixed, List.takeWhile_cons, List.dropWhile_cons, ht, Bool.false_eq_true, if_false,
    List.foldr_nil]

theorem not_prefix_of_isLiteral {k : Kind} (h : k.isLiteral = true) : k ∉ prefixOperators := by
  cases k <;> simp [Kind.isLiteral, Kind.literals, prefixOperators] at h ⊢

/-- What opens a group is neither a literal nor a prefix operator. -/
theorem opener_facts {k closer : Kind} (h : closer? k = some closer) :
    k.isLiteral = false ∧ k ∉ prefixOperators := by
  cases k <;> simp [closer?] at h <;> decide

/-- What closes a group is no operator. -/
theorem startsWith_closer {k : Kind} {closing : Token} (h : closer? k = some closing.kind)
    (l : Level) (ts : List Token) : startsWith l.operators (closing :: ts) = false := by
  rw [startsWith_cons]
  cases k <;> simp [closer?] at h <;> rw [← h] <;> cases l <;> rfl

theorem startsWith_newline {newline : Token} (h : newline.kind = .newline) (l : Level)
    (ts : List Token) : startsWith l.operators (newline :: ts) = false := by
  rw [startsWith_cons, h]
  cases l <;> rfl

theorem expect_cons_self (t : Token) (ts : List Token) : expect t.kind (t :: ts) = [] := by
  simp [expect]

theorem closeGroup_self {k : Kind} {closing : Token} (h : closer? k = some closing.kind)
    (ts : List Token) : closeGroup closing.kind (closing :: ts) = ⟨closing, ts, []⟩ := by
  -- the token that closes a group is not the line end that an indented block may have
  have hskip : skipBlockNewline closing.kind (closing :: ts) = closing :: ts := by
    have hne : closing.kind ≠ .newline := by
      intro he
      rw [he] at h
      cases k <;> simp [closer?] at h
    cases ts with
    | nil => rfl
    | cons t ts => simp [skipBlockNewline, hne]
  simp [closeGroup, hskip, expect_cons_self]

theorem closeGroup_newline {newline closing : Token} (hn : newline.kind = .newline)
    (hc : closing.kind = .dedent) (ts : List Token) :
    closeGroup closing.kind (newline :: closing :: ts) = ⟨closing, ts, []⟩ := by
  have hskip : skipBlockNewline closing.kind (newline :: closing :: ts) = closing :: ts := by
    simp [skipBlockNewline, hn, hc]
  simp [closeGroup, hskip, expect_cons_self]

/-- How a tree is read back from its tokens, with `inner` inside groups.  A tree without binary
operator at its root is read whatever follows.  The rule of a level that the tree is not looser
than reads the tree, and goes on after it as after any left operand. -/
structure ReadsBack (inner : Rule) (n : Node) (ts : List Token) : Prop where
  unary : n.IsOperand → ∀ rest, (unary inner).run (ts ++ rest) = ⟨n, rest, []⟩
  level : ∀ l rest, (∀ m, n.BinaryOf m → l.rank ≤ m.rank) → Settled l rest →
    (level inner l).run (ts ++ rest) = chainFrom (operand inner l) l.operators n [] rest

namespace ReadsBack

variable {inner : Rule} {x y : Node} {ts us : List Token}

theorem of_unary (h : ∀ rest, (Rule.unary inner).run (ts ++ rest) = ⟨x, rest, []⟩) :
    ReadsBack inner x ts :=
  ⟨fun _ => h, fun _ rest _ hs => run_level_of_operand (run_operand_of_unary hs (h rest))⟩

/-- A tree tighter than a level is an operand of the level. -/
theorem run_operand (h : ReadsBack inner x ts) {l : Level}
    (hx : x.IsOperand ∨ ∃ m, x.BinaryOf m) (hl : ∀ m, x.BinaryOf m → l.rank < m.rank)
    {rest : List Token} (hs : Settled l rest) :
    (operand inner l).run (ts ++ rest) = ⟨x, rest, []⟩ := by
  rcases hx with hx | ⟨m, hm⟩
  · exact run_operand_of_unary hs (h.unary hx rest)
  · have hlm := hl m hm
    refine run_operand_of_level hlm hs (h.level m rest ?_ (hs.mono (Nat.le_of_lt hlm)))
    intro k hk
    have hsame := Node.BinaryOf.level_unique hm hk
    exact Nat.le_of_eq (congrArg Level.rank hsame)

/-- Operands on both sides of an operator, grouped to the left. -/
theorem binary (hx : ReadsBack inner x ts) (hy : ReadsBack inner y us) {l : Level} {op : Token}
    (hop : op.kind ∈ l.operators) (hleft : ∀ m, x.BinaryOf m → l.rank ≤ m.rank)
    (hright : ∀ m, y.BinaryOf m → l.rank < m.rank) (hshape : y.IsOperand ∨ ∃ m, y.BinaryOf m) :
    ReadsBack inner (.binary x op y) (ts ++ op :: us) := by
  refine ⟨fun h => h.elim, fun k rest hk hs => ?_⟩
  have hkl : k.rank ≤ l.rank := hk l hop
  -- at its own level, the left operand is read first and the loop goes on with the operator
  have hown : (Rule.level inner l).run (ts ++ op :: us ++ rest) =
      chainFrom (operand inner l) l.operators (.binary x op y) [] rest := by
    rw [List.append_assoc, List.cons_append, hx.level l _ hleft (settled_operator hop _),
      chainFrom_operator _ _ _ _ hop, hy.run_operand hshape hright (hs.mono hkl)]
    rfl
  by_cases heq : k.rank = l.rank
  · rw [Level.rank_injective heq]; exact hown
  · exact run_level_of_operand (run_operand_of_level (by omega) hs hown)

/-- A group is read back if its inside and its end are. -/
theorem grouping {opening closing : Token} {after : List Token}
    (ho : closer? opening.kind = some closing.kind)
    (hx : ∀ rest, inner.run (ts ++ (after ++ rest)) = ⟨x, after ++ rest, []⟩)
    (hc : ∀ rest, closeGroup closing.kind (after ++ rest) = ⟨closing, rest, []⟩) :
    ReadsBack inner (.grouping opening x closing) (opening :: ts ++ after) := by
  refine of_unary fun rest => ?_
  obtain ⟨hlit, hpre⟩ := opener_facts ho
  rw [List.cons_append, List.cons_append, List.append_assoc, Rule.unary,
    run_prefixed_other _ hpre]
  simp [primary, hlit, ho, hx, hc]

/-- A rule for expressions reads the tree if no operator comes next. -/
theorem run_expression {depth : Nat} (h : ReadsBack (expression depth) x ts) {rest : List Token}
    (hrest : ∀ l : Level, startsWith l.operators rest = false) :
    (expression (depth + 1)).run (ts ++ rest) = ⟨x, rest, []⟩ := by
  show (Rule.level (expression depth) .equality).run (ts ++ rest) = _
  rw [h.level .equality rest (fun _ _ => Nat.zero_le _) fun l _ => hrest l]
  exact chainFrom_of_not_startsWith _ _ _ (hrest _)

end ReadsBack

/-- **Reading a spelled tree back.** As much depth as the tree has tokens is enough. -/
theorem readsBack_spelled {n : Node} (hn : n.Canonical) :
    ∀ ts, n.Spelled ts → ∀ depth, ts.length ≤ depth → ReadsBack (expression depth) n ts := by
  induction hn with
  | @literal t ht =>
    intro ts hs depth _
    cases hs
    refine .of_unary fun rest => ?_
    rw [unary, List.singleton_append, run_prefixed_other _ (not_prefix_of_isLiteral ht)]
    simp only [primary]
    rw [if_pos ht]
  | @unary op x hop hoperand _ ih =>
    intro ts hs depth hd
    cases hs with
    | @unary _ _ us hus =>
      refine .of_unary fun rest => ?_
      have h := (ih us hus depth (by simp only [List.length_cons] at hd; omega)).unary hoperand rest
      rw [unary] at h ⊢
      rw [List.cons_append, run_prefixed_operator _ hop, h]
  | @binary l x y op hop hleft hright _ hy ihx ihy =>
    intro ts hs depth hd
    cases hs with
    | @binary _ _ _ us vs hus hvs =>
      simp only [List.length_append, List.length_cons] at hd
      exact (ihx us hus depth (by omega)).binary (ihy vs hvs depth (by omega)) hop hleft hright
        hy.isOperand_or_binaryOf
  | @grouping opening closing x hclose _ ih =>
    intro ts hs depth hd
    -- the inside is shorter by the opening token, so one depth less is enough
    have inside : ∀ us after, x.Spelled us → us.length < depth →
        (∀ l : Level, startsWith l.operators after = false) →
        (expression depth).run (us ++ after) = ⟨x, after, []⟩ := by
      intro us after hus hlt hafter
      obtain ⟨d, rfl⟩ : ∃ d, depth = d + 1 := ⟨depth - 1, by omega⟩
      exact (ih us hus d (by omega)).run_expression hafter
    cases hs with
    | @grouping _ _ _ us hus =>
      simp only [List.length_append, List.length_cons, List.length_nil] at hd
      exact .grouping hclose
        (fun rest => inside us _ hus (by omega) fun l => startsWith_closer hclose l rest)
        (closeGroup_self hclose)
    | @block _ newline _ _ us hindent hnewline hus =>
      simp only [List.length_append, List.length_cons, List.length_nil] at hd
      have hdedent : closing.kind = .dedent := by
        rw [hindent] at hclose
        exact (Option.some.inj hclose).symm
      exact .grouping hclose
        (fun rest => inside us _ hus (by omega) fun l => startsWith_newline hnewline l _)
        (closeGroup_newline hnewline hdedent)

end Rule

/-! ## Statements and programs -/

/-- An expression is read back if no operator comes next. -/
theorem parseExpression_spelled {n : Node} {ts : List Token} (hn : n.Canonical)
    (hs : n.Spelled ts) (rest : List Token)
    (hrest : ∀ l : Level, startsWith l.operators rest = false) :
    parseExpression (ts ++ rest) = ⟨n, rest, []⟩ :=
  (Rule.readsBack_spelled hn ts hs (ts ++ rest).length (by simp)).run_expression hrest

/-- A canonical tree does not start with a token that starts a printing statement. -/
theorem Node.Spelled.exists_cons {n : Node} {ts : List Token} (hs : n.Spelled ts)
    (hn : n.Canonical) : ∃ t us, ts = t :: us ∧ t.kind ≠ .kwPrint := by
  induction hs with
  | literal t =>
    cases hn with
    | literal ht => exact ⟨t, [], rfl, fun h => by simp [h, Kind.isLiteral, Kind.literals] at ht⟩
  | @unary op x ts _ _ =>
    cases hn with
    | unary hop => exact ⟨op, ts, rfl, fun h => by simp [h, prefixOperators] at hop⟩
  | @binary x y op ts us _ _ ihx _ =>
    cases hn with
    | binary _ _ _ hx _ =>
      obtain ⟨t, vs, rfl, ht⟩ := ihx hx
      exact ⟨t, vs ++ op :: us, rfl, ht⟩
  | @grouping opening closing x ts _ _ =>
    cases hn with
    | grouping hclose =>
      exact ⟨opening, ts ++ [closing], rfl, fun h => by simp [h, closer?] at hclose⟩
  | @block opening newline closing x ts hindent _ _ _ =>
    exact ⟨opening, ts ++ [newline, closing], rfl, fun h => by simp [h] at hindent⟩

theorem skipNewline_newline {t : Token} (h : t.kind = .newline) (ts : List Token) :
    skipNewline (t :: ts) = ts := by
  simp [skipNewline, h]

theorem parseStatement_spelled {n : Node} {ts : List Token} (h : SpelledStatement n ts)
    (rest : List Token) : parseStatement (ts ++ rest) = ⟨n, rest, []⟩ := by
  cases h with
  | @print keyword newline x ts hkeyword hnewline hx hs =>
    have he := parseExpression_spelled hx hs (newline :: rest)
      fun l => Rule.startsWith_newline hnewline l _
    have hexpect : expect .newline (newline :: rest) = [] := by
      rw [← hnewline]; exact Rule.expect_cons_self _ _
    rw [List.cons_append, List.cons_append, List.append_assoc, List.singleton_append]
    simp [parseStatement, hkeyword, he, hexpect, skipNewline_newline hnewline]
  | @expression newline x ts hnewline hx hs =>
    have he := parseExpression_spelled hx hs (newline :: rest)
      fun l => Rule.startsWith_newline hnewline l _
    obtain ⟨t, us, rfl, ht⟩ := hs.exists_cons hx
    rw [List.append_assoc, List.singleton_append]
    rw [List.cons_append] at he ⊢
    simp [parseStatement, ht, he, skipNewline_newline hnewline]

/-- A statement has at least two tokens: the first of its expression and the line end. -/
theorem SpelledStatement.exists_cons_cons {n : Node} {ts : List Token}
    (h : SpelledStatement n ts) : ∃ t u us, ts = t :: u :: us := by
  cases h with
  | @print keyword newline x ts _ _ hx hs =>
    obtain ⟨t, us, rfl, _⟩ := hs.exists_cons hx
    exact ⟨keyword, t, us ++ [newline], rfl⟩
  | @expression newline x ts _ hx hs =>
    obtain ⟨t, us, rfl, _⟩ := hs.exists_cons hx
    cases us with
    | nil => exact ⟨t, newline, [], rfl⟩
    | cons u us => exact ⟨t, u, us ++ [newline], rfl⟩

theorem parseProgram_spelled {ns : List Node} {ts : List Token} (h : SpelledProgram ns ts) :
    parseProgram ts = ⟨ns, [], []⟩ := by
  induction h with
  | nil => rw [parseProgram]; simp
  | @cons n ns ts us hstatement _ ih =>
    have hparse := parseStatement_spelled hstatement us
    obtain ⟨t, u, vs, rfl⟩ := hstatement.exists_cons_cons
    simp only [List.cons_append] at hparse ⊢
    have hlt : us.length < (t :: u :: (vs ++ us)).length := by
      simp only [List.length_cons, List.length_append]; omega
    rw [parseProgram]
    simp only [hparse, ih, hlt, dite_true, List.nil_append]

/-- **Parsing undoes spelling.** The statements of a spelled program are read back exactly, every
token is passed, and nothing is reported. -/
theorem parse_spelled_program (p : Parser) {ns : List Node} (h : SpelledProgram ns p.tokens) :
    p.parse.1 = ns ∧ p.parse.2.reports = p.reports ∧ p.parse.2.failed = false ∧
      p.parse.2.pos = p.tokens.length := by
  have hparse : p.parse = (ns, { p with rest := [], failed := false }) := by
    simp [Parser.parse, Parser.read, Parser.take, Parser.note, Parser.reset, Parser.ofTokens,
      parseProgram_spelled h]
  rw [hparse]
  exact ⟨rfl, rfl, rfl, by simp [Parser.pos]⟩

/-- `print x - -y` and an indented `z` with a line end before the end of its block. -/
def sampleStatements : List Node :=
  [.print (.binary (.literal (.ofName "x")) (.ofKind .minus)
      (.unary (.ofKind .minus) (.literal (.ofName "y")))),
   .expression (.grouping (.ofKind .indent) (.literal (.ofName "z")) (.ofKind .dedent))]

@[inherit_doc sampleStatements]
def sampleTokens : List Token :=
  [.ofKind .kwPrint, .ofName "x", .ofKind .minus, .ofKind .minus, .ofName "y", .ofKind .newline,
   .ofKind .indent, .ofName "z", .ofKind .newline, .ofKind .dedent, .ofKind .newline]

theorem spelledProgram_sample : SpelledProgram sampleStatements sampleTokens := by
  have leaf : ∀ name, (Node.literal (.ofName name)).Canonical := fun _ => .literal rfl
  have sign : (Node.unary (.ofKind .minus) (.literal (.ofName "y"))).Canonical :=
    .unary (by decide) trivial (leaf "y")
  have difference : (Node.binary (.literal (.ofName "x")) (.ofKind .minus)
      (.unary (.ofKind .minus) (.literal (.ofName "y")))).Canonical :=
    .binary (l := .term) (by decide) (fun _ h => h.elim) (fun _ h => h.elim) (leaf "x") sign
  have block : (Node.grouping (.ofKind .indent) (.literal (.ofName "z"))
      (.ofKind .dedent)).Canonical := .grouping rfl (leaf "z")
  exact .cons (.print rfl rfl difference (.binary (.literal _) (.unary (.literal _))))
    (.cons (.expression rfl block (.block rfl rfl (.literal _))) .nil)

theorem parse_sample_program :
    SpelledProgram sampleStatements (Parser.ofTokens sampleTokens {}).tokens ∧
      (Parser.ofTokens sampleTokens {}).parse.1 = sampleStatements ∧
      (Parser.ofTokens sampleTokens {}).parse.2.reports = {} ∧
      (Parser.ofTokens sampleTokens {}).parse.2.failed = false ∧
      (Parser.ofTokens sampleTokens {}).parse.2.pos = sampleTokens.length :=
  ⟨spelledProgram_sample, parse_spelled_program (Parser.ofTokens sampleTokens {})
    spelledProgram_sample⟩

end Scriptlet
