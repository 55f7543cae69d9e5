import Scriptlet.Proofs.Consumption
import Scriptlet.Proofs.Session

/-!
# Groups and what closes them

A group whose closing token does not come next is closed by one that was made up, and nothing is
reported as long as a token of that kind stands anywhere ahead.

* `Node.groups`: the groups of a tree, each with the tokens that the trees have behind it.
* `wellNested`: parentheses and brackets are balanced and properly nested.
* `Node.IsPlain.wellNested_append`: those of a tree are, tokens that were made up included.
* `parseProgram_backed`: without an issue, behind every closing token that was made up there is one
  of its kind that was not.

`accepted_groups` puts these together for a source that is parsed without a report, and
`unclosed_group_accepted` is a source with a group that nothing in it closes.
-/

namespace Scriptlet

/-- The kinds of parentheses and brackets, by pairs. -/
def bracketPairs : List (Kind × Kind) :=
  [(.leftParen, .rightParen), (.leftBracket, .rightBracket)]

/-- Whether parentheses and brackets are balanced and properly nested, with the kinds that are still
to be closed, innermost first. -/
def wellNested : List Kind → List Token → Bool
  | awaited, [] => awaited.isEmpty
  | awaited, t :: ts =>
    match t.kind with
    | .leftParen => wellNested (.rightParen :: awaited) ts
    | .leftBracket => wellNested (.rightBracket :: awaited) ts
    | .rightParen => awaited.head? == some .rightParen && wellNested awaited.tail ts
    | .rightBracket => awaited.head? == some .rightBracket && wellNested awaited.tail ts
    | _ => wellNested awaited ts

/-- A group of a tree. -/
structure Group where
  opening : Token
  closing : Token
  /-- The tokens behind the group. -/
  after : List Token

/-- The group is closed by one of the tokens, or one of them that is of the same kind stands behind
it. -/
def Group.Backed (ts : List Token) (g : Group) : Prop :=
  g.closing ∈ ts ∨ g.closing = .ofKind g.closing.kind ∧
    ∃ t ∈ g.after, t ∈ ts ∧ t.kind = g.closing.kind

namespace Node

mutual

/-- The groups of a tree that has the tokens `after` behind it. -/
def groups : Node → (after : List Token) → List Group
  | absent, _ | token _, _ | literal _, _ => []
  | list items, after => groupsOf items after
  | unary _ x, after => x.groups after
  | binary x op y, after => x.groups (op :: (y.tokens ++ after)) ++ y.groups after
  | grouping opening x closing, after => ⟨opening, closing, after⟩ :: x.groups (closing :: after)
  | print x, after => x.groups after
  | expression x, after => x.groups after

/-- The groups of trees that have the tokens `after` behind the last of them. -/
def groupsOf : List Node → (after : List Token) → List Group
  | [], _ => []
  | n :: ns, after => n.groups (tokensOf ns ++ after) ++ groupsOf ns after

end

end Node

/-! ## Parentheses and brackets among the tokens -/

/-- The parentheses and brackets of a token list. -/
def brackets (ts : List Token) : List Token := ts.filter (Kind.brackets.contains ·.kind)

theorem mem_brackets {t : Token} {ts : List Token} :
    t ∈ brackets ts ↔ t ∈ ts ∧ t.kind ∈ Kind.brackets := by
  simp [brackets]

theorem brackets_append (ts us : List Token) : brackets (ts ++ us) = brackets ts ++ brackets us :=
  List.filter_append ..

/-- What opens a group is a parenthesis or a bracket exactly if what closes it is. -/
theorem bracketPairs_of_closer {k c : Kind} (h : closer? k = some c) :
    (k, c) ∈ bracketPairs ∨ k ∉ Kind.brackets ∧ c ∉ Kind.brackets := by
  cases k <;> simp only [closer?, Option.some.injEq, reduceCtorEq] at h <;> subst h <;> decide

theorem mem_brackets_of_pair {p : Kind × Kind} (h : p ∈ bracketPairs) :
    p.1 ∈ Kind.brackets ∧ p.2 ∈ Kind.brackets ∧ closer? p.1 = some p.2 ∧ closer? p.2 = none := by
  revert p
  decide

theorem wellNested_other {t : Token} (h : t.kind ∉ Kind.brackets) (awaited : List Kind)
    (ts : List Token) : wellNested awaited (t :: ts) = wellNested awaited ts := by
  rw [wellNested]
  split <;> simp_all [Kind.brackets]

theorem wellNested_opening {t : Token} {c : Kind} (h : (t.kind, c) ∈ bracketPairs)
    (awaited : List Kind) (ts : List Token) :
    wellNested awaited (t :: ts) = wellNested (c :: awaited) ts := by
  rw [wellNested]
  split <;> simp_all [bracketPairs]

theorem wellNested_closing {t : Token} {k : Kind} (h : (k, t.kind) ∈ bracketPairs)
    (awaited : List Kind) (ts : List Token) :
    wellNested awaited (t :: ts) =
      (awaited.head? == some t.kind && wellNested awaited.tail ts) := by
  rw [wellNested]
  split <;> simp_all [bracketPairs]

/-- A token is neither a parenthesis nor a bracket, or opens or closes a pair. -/
theorem bracket_cases (k : Kind) : k ∉ Kind.brackets ∨ (∃ c, (k, c) ∈ bracketPairs) ∨
    ∃ o, (o, k) ∈ bracketPairs := by
  by_cases h : k ∈ Kind.brackets
  · right
    simp only [Kind.brackets, List.mem_cons, List.not_mem_nil, or_false] at h
    rcases h with rfl | rfl | rfl | rfl
    · exact .inl ⟨.rightParen, by decide⟩
    · exact .inr ⟨.leftParen, by decide⟩
    · exact .inl ⟨.rightBracket, by decide⟩
    · exact .inr ⟨.leftBracket, by decide⟩
  · exact .inl h

/-- Only parentheses and brackets count. -/
theorem wellNested_brackets (awaited : List Kind) (ts : List Token) :
    wellNested awaited (brackets ts) = wellNested awaited ts := by
  induction ts generalizing awaited with
  | nil => rfl
  | cons t ts ih =>
    by_cases hbracket : t.kind ∈ Kind.brackets
    · have hcons : brackets (t :: ts) = t :: brackets ts :=
        List.filter_cons_of_pos (List.contains_iff_mem.mpr hbracket)
      rw [hcons]
      rcases bracket_cases t.kind with h | ⟨c, h⟩ | ⟨o, h⟩
      · exact absurd hbracket h
      · rw [wellNested_opening h, wellNested_opening h, ih]
      · rw [wellNested_closing h, wellNested_closing h, ih]
    · have hskip : brackets (t :: ts) = brackets ts :=
        List.filter_cons_of_neg (by simpa using hbracket)
      rw [hskip, wellNested_other hbracket, ih]

/-- The kinds of one pair are not those of another. -/
theorem bracketPairs_apart {p q : Kind × Kind} (hp : p ∈ bracketPairs) (hq : q ∈ bracketPairs) :
    (p.1 = q.1 ↔ p.2 = q.2) ∧ p.1 ≠ q.2 := by
  have hall : ∀ p ∈ bracketPairs, ∀ q ∈ bracketPairs, (p.1 = q.1 ↔ p.2 = q.2) ∧ p.1 ≠ q.2 := by
    decide
  exact hall p hp q hq

/-- Where everything is closed, as much is closed as is opened or was open. -/
theorem tally_of_wellNested {awaited : List Kind} {ts : List Token}
    (h : wellNested awaited ts = true) :
    ∀ p ∈ bracketPairs, tally p.1 ts + awaited.count p.2 = tally p.2 ts := by
  induction ts generalizing awaited with
  | nil =>
    intro p _
    rw [List.isEmpty_iff.mp h]
    rfl
  | cons t ts ih =>
    intro p hp
    rw [tally_cons, tally_cons]
    rcases bracket_cases t.kind with hother | ⟨c, hopens⟩ | ⟨o, hcloses⟩
    · rw [wellNested_other hother] at h
      obtain ⟨hopening, hclosing, -, -⟩ := mem_brackets_of_pair hp
      have hne : ∀ k ∈ Kind.brackets, t.kind ≠ k := fun k hk heq => hother (heq ▸ hk)
      rw [if_neg (hne _ hopening), if_neg (hne _ hclosing)]
      exact ih h p hp
    · rw [wellNested_opening hopens] at h
      have hrest := ih h p hp
      obtain ⟨hsame, hapart⟩ := bracketPairs_apart hopens hp
      simp only [List.count_cons, beq_iff_eq, ← hsame] at hrest
      rw [if_neg hapart]
      omega
    · rw [wellNested_closing hcloses, Bool.and_eq_true, beq_iff_eq] at h
      obtain ⟨hhead, h⟩ := h
      have hrest := ih h p hp
      obtain ⟨-, hapart⟩ := bracketPairs_apart hp hcloses
      obtain ⟨more, rfl⟩ : ∃ more, awaited = t.kind :: more := List.head?_eq_some_iff.mp hhead
      rw [List.count_cons, if_neg (Ne.symm hapart)]
      simp only [List.tail_cons, beq_iff_eq] at hrest ⊢
      omega

/-! ## Expressions -/

/-- Trees that respect the levels, with no parenthesis or bracket at a leaf. -/
def Node.IsPlain (n : Node) : Prop := n.Grammatical fun t => t.kind ∉ Kind.brackets

theorem Derives.isPlain {r : Nat} {ts rest : List Token} {n : Node} {issues : List Issue}
    (h : Derives r ts n rest issues) : n.IsPlain :=
  (h.grammatical (by decide) fun _ _ ht => (Kind.isPlain_of_isLiteral ht).2).1

namespace Node.IsPlain

variable {n : Node}

/-- **What a tree opens, it closes.** -/
theorem wellNested_append (h : n.IsPlain) (awaited : List Kind) (ts : List Token) :
    wellNested awaited (n.tokens ++ ts) = wellNested awaited ts := by
  induction h generalizing awaited ts with
  | literal ht => exact wellNested_other ht awaited ts
  | unary hop _ _ ih =>
    rw [tokens, List.cons_append, wellNested_other (isPlain_of_sign hop).2, ih]
  | binary hop _ _ _ _ ihx ihy =>
    rw [tokens, List.append_assoc, List.cons_append, ihx, wellNested_other (Level.isPlain hop).2,
      ihy]
  | grouping hclose _ ih =>
    rw [tokens, List.cons_append, List.append_assoc, List.singleton_append]
    rcases bracketPairs_of_closer hclose with hpair | ⟨hopening, hclosing⟩
    · rw [wellNested_opening hpair, ih, wellNested_closing hpair]
      simp
    · rw [wellNested_other hopening, ih, wellNested_other hclosing]

/-- A group is closed by a token of the tree that is of the right kind. -/
theorem closing_mem (h : n.IsPlain) {after : List Token} {g : Group} (hg : g ∈ n.groups after) :
    closer? g.opening.kind = some g.closing.kind ∧ g.closing ∈ n.tokens := by
  induction h generalizing after with
  | literal => cases hg
  | unary _ _ _ ih =>
    obtain ⟨hclose, hmem⟩ := ih hg
    exact ⟨hclose, List.mem_cons_of_mem _ hmem⟩
  | binary _ _ _ _ _ ihx ihy =>
    rw [groups] at hg
    rw [tokens]
    rcases List.mem_append.mp hg with hg | hg
    · obtain ⟨hclose, hmem⟩ := ihx hg
      exact ⟨hclose, by simp [hmem]⟩
    · obtain ⟨hclose, hmem⟩ := ihy hg
      exact ⟨hclose, by simp [hmem]⟩
  | grouping hclose _ ih =>
    rw [groups] at hg
    rw [tokens]
    rcases List.mem_cons.mp hg with rfl | hg
    · exact ⟨hclose, by simp⟩
    · obtain ⟨hclose, hmem⟩ := ih hg
      exact ⟨hclose, by simp [hmem]⟩

/-- A parenthesis or bracket of a tree opens or closes a group of it. -/
theorem exists_group (h : n.IsPlain) {t : Token} (ht : t ∈ n.tokens) (hk : t.kind ∈ Kind.brackets)
    (after : List Token) : ∃ g ∈ n.groups after, t = g.opening ∨ t = g.closing := by
  induction h generalizing after with
  | literal hleaf =>
    rw [tokens, List.mem_singleton] at ht
    exact absurd hk (ht ▸ hleaf)
  | unary hop _ _ ih =>
    rw [tokens] at ht
    rcases List.mem_cons.mp ht with rfl | ht
    · exact absurd hk (isPlain_of_sign hop).2
    · exact ih ht after
  | @binary l x y op hop _ _ _ _ ihx ihy =>
    rw [tokens] at ht
    rw [groups]
    rcases List.mem_append.mp ht with ht | ht
    · obtain ⟨g, hg, hends⟩ := ihx ht (op :: (y.tokens ++ after))
      exact ⟨g, List.mem_append_left _ hg, hends⟩
    · rcases List.mem_cons.mp ht with rfl | ht
      · exact absurd hk (Level.isPlain hop).2
      · obtain ⟨g, hg, hends⟩ := ihy ht after
        exact ⟨g, List.mem_append_right _ hg, hends⟩
  | @grouping opening closing x hclose _ ih =>
    rw [tokens] at ht
    rw [groups]
    rcases List.mem_cons.mp ht with rfl | ht
    · exact ⟨_, List.mem_cons_self, .inl rfl⟩
    · rcases List.mem_append.mp ht with ht | ht
      · obtain ⟨g, hg, hends⟩ := ih ht (closing :: after)
        exact ⟨g, List.mem_cons_of_mem _ hg, hends⟩
      · exact ⟨_, List.mem_cons_self, .inr (List.mem_singleton.mp ht)⟩

end Node.IsPlain

/-- Without tokens that are skipped, all parentheses and brackets are kept. -/
theorem Accounted.brackets_eq {used kept : List Token} (h : Accounted used kept []) :
    brackets used = brackets kept := by
  generalize hskipped : ([] : List Token) = skipped at h
  induction h with
  | nil => rfl
  | @passed t _ _ _ ht _ ih =>
    have hother : t.kind ∉ Kind.brackets := by
      revert ht
      cases t.kind <;> decide
    rw [← ih hskipped]
    exact List.filter_cons_of_neg (by simpa using hother)
  | kept _ _ ih =>
    simp only [brackets, List.filter_cons]
    rw [← brackets, ← brackets, ih hskipped]
  | skipped => cases hskipped

/-- Tokens that are passed hold no parenthesis or bracket. -/
theorem brackets_of_passed {ts rest : List Token}
    (h : ∃ used, ts = used ++ rest ∧ Accounted used [] []) : brackets rest = brackets ts := by
  obtain ⟨used, rfl, haccounted⟩ := h
  have hnone : brackets used = [] := haccounted.brackets_eq
  rw [brackets_append, hnone, List.nil_append]

namespace Derives

variable {r : Nat} {ts rest : List Token} {n : Node} {issues : List Issue}

/-- A tree holds tokens of the list, and some that were made up. None of the latter opens a
group. -/
theorem mem_tokens (h : Derives r ts n rest issues) : ∀ t ∈ n.tokens,
    t ∈ ts ∨ t = .ofKind t.kind ∧ closer? t.kind = none := by
  induction h with
  | missing ts =>
    intro t ht
    rw [List.mem_singleton.mp ht]
    exact .inr ⟨rfl, rfl⟩
  | literal ts _ =>
    intro t ht
    rw [List.mem_singleton.mp ht]
    exact .inl List.mem_cons_self
  | unary _ _ ih =>
    intro t ht
    rw [Node.tokens] at ht
    rcases List.mem_cons.mp ht with rfl | ht
    · exact .inl List.mem_cons_self
    · exact (ih t ht).imp_left (List.mem_cons_of_mem _)
  | @closed opening closing ts inside rest x _ _ hx hskip ih =>
    intro t ht
    rw [Node.tokens] at ht
    rcases List.mem_cons.mp ht with rfl | ht
    · exact .inl List.mem_cons_self
    · rcases List.mem_append.mp ht with ht | ht
      · exact (ih t ht).imp_left (List.mem_cons_of_mem _)
      · have hclosing : closing ∈ skipBlockNewline closing.kind inside := by simp [hskip]
        rw [List.mem_singleton.mp ht]
        exact .inl (List.mem_cons_of_mem _
          (hx.suffix.subset ((skipBlockNewline_suffix _ _).subset hclosing)))
  | @unclosed opening k ts inside x _ hclose _ ih =>
    intro t ht
    rw [Node.tokens] at ht
    rcases List.mem_cons.mp ht with rfl | ht
    · exact .inl List.mem_cons_self
    · rcases List.mem_append.mp ht with ht | ht
      · exact (ih t ht).imp_left (List.mem_cons_of_mem _)
      · rw [List.mem_singleton.mp ht]
        refine .inr ⟨rfl, ?_⟩
        revert hclose
        cases opening.kind <;> rintro ⟨⟩ <;> rfl
  | @binary l op ts us rest x y _ _ _ hx _ ihx ihy =>
    intro t ht
    rw [Node.tokens] at ht
    rcases List.mem_append.mp ht with ht | ht
    · exact ihx t ht
    · rcases List.mem_cons.mp ht with rfl | ht
      · exact .inl (hx.suffix.subset List.mem_cons_self)
      · exact (ihy t ht).imp_left fun ht => hx.suffix.subset (List.mem_cons_of_mem _ ht)
  | operand _ ih => exact ih

/-- The parentheses and brackets of the tokens go into the tree or are left over. -/
theorem brackets_eq (h : Derives r ts n rest issues) (hline : ∀ t ∈ ts, t.line ≠ 0) :
    brackets ts = brackets (scanned n.tokens) ++ brackets rest := by
  obtain ⟨used, hused, haccounted⟩ := h.accounted hline
  rw [hused, brackets_append, haccounted.brackets_eq]

theorem brackets_skipBlockNewline (k : Kind) (ts : List Token) :
    brackets (skipBlockNewline k ts) = brackets ts :=
  brackets_of_passed (skipBlockNewline_accounted k ts)

theorem exists_mem_of_expect {k : Kind} {ts : List Token} (h : expect k ts = []) :
    ∃ t ∈ ts, t.kind = k := by
  unfold expect at h
  split at h
  · simp_all
  · cases h

/-- **Without an issue, what a group misses stands behind it.** The tokens `later` are those of the
trees behind the expression: they hold the parentheses and brackets that it leaves. -/
theorem backed {source : List Token} (h : Derives r ts n rest issues) (hissues : issues = [])
    (hline : ∀ t ∈ ts, t.line ≠ 0) (hsource : ts ⊆ source) (later : List Token)
    (hlater : brackets rest ⊆ later) :
    ∀ g ∈ n.groups later, g.opening.kind ∈ Kind.brackets → g.Backed source := by
  induction h generalizing later with
  | missing => simp [Scriptlet.missing, Node.groups]
  | literal => simp [Node.groups]
  | unary _ _ ih =>
    exact ih hissues (fun t ht => hline t (List.mem_cons_of_mem _ ht))
      (fun t ht => hsource (List.mem_cons_of_mem _ ht)) later hlater
  | @closed opening closing ts inside rest x _ hclose hx hskip ih =>
    rw [List.cons_subset] at hsource
    intro g hg hopening
    rw [Node.groups] at hg
    rcases List.mem_cons.mp hg with rfl | hg
    · have hclosing : closing ∈ skipBlockNewline closing.kind inside := by simp [hskip]
      exact .inl (hsource.2 (hx.suffix.subset ((skipBlockNewline_suffix _ _).subset hclosing)))
    · refine ih hissues (fun t ht => hline t (List.mem_cons_of_mem _ ht)) hsource.2
        (closing :: later) ?_ g hg hopening
      rw [← brackets_skipBlockNewline closing.kind, hskip]
      intro t ht
      obtain ⟨ht, hk⟩ := mem_brackets.mp ht
      rcases List.mem_cons.mp ht with rfl | ht
      · exact List.mem_cons_self
      · exact List.mem_cons_of_mem _ (hlater (mem_brackets.mpr ⟨ht, hk⟩))
  | @unclosed opening k ts inside x _ hclose hx ih =>
    rw [List.cons_subset] at hsource
    obtain ⟨hissues, hexpect⟩ := List.append_eq_nil_iff.mp hissues
    intro g hg hopening
    rw [Node.groups] at hg
    rcases List.mem_cons.mp hg with rfl | hg
    · obtain ⟨t, ht, rfl⟩ := exists_mem_of_expect hexpect
      have hk : t.kind ∈ Kind.brackets := by
        rcases bracketPairs_of_closer hclose with hpair | ⟨hnot, -⟩
        · exact (mem_brackets_of_pair hpair).2.1
        · exact absurd hopening hnot
      exact .inr ⟨rfl, t, hlater (mem_brackets.mpr ⟨ht, hk⟩),
        hsource.2 (hx.suffix.subset ((skipBlockNewline_suffix _ _).subset ht)), rfl⟩
    · refine ih hissues (fun t ht => hline t (List.mem_cons_of_mem _ ht)) hsource.2
        (.ofKind k :: later) ?_ g hg hopening
      rw [← brackets_skipBlockNewline k]
      exact List.subset_cons_of_subset _ hlater
  | @binary l op ts us rest x y _ _ hop hx hy ihx ihy =>
    obtain ⟨hissues, hissues'⟩ := List.append_eq_nil_iff.mp hissues
    have hus : us ⊆ ts := fun t ht => hx.suffix.subset (List.mem_cons_of_mem op ht)
    have hline' : ∀ t ∈ us, t.line ≠ 0 := fun t ht => hline t (hus ht)
    intro g hg hopening
    rw [Node.groups] at hg
    rcases List.mem_append.mp hg with hg | hg
    · refine ihx hissues hline hsource (op :: (y.tokens ++ later)) ?_ g hg hopening
      intro t ht
      obtain ⟨ht, hk⟩ := mem_brackets.mp ht
      rcases List.mem_cons.mp ht with rfl | ht
      · exact List.mem_cons_self
      · -- a parenthesis or bracket behind the operator goes into the right operand or is left over
        have hkept : t ∈ brackets us := mem_brackets.mpr ⟨ht, hk⟩
        rw [hy.brackets_eq hline'] at hkept
        refine List.mem_cons_of_mem op (List.mem_append.mpr ?_)
        refine (List.mem_append.mp hkept).imp (fun hy => ?_) fun hrest => hlater hrest
        exact (List.mem_filter.mp (mem_brackets.mp hy).1).1
    · exact ihy hissues' hline' (fun t ht => hsource (hus ht)) later hlater g hg hopening
  | operand _ ih => exact ih hissues hline hsource later hlater

end Derives

/-! ## Statements and programs -/

/-- A statement over an expression with no parenthesis or bracket at a leaf. -/
def Node.IsPlainStatement (n : Node) : Prop := ∃ e, e.IsPlain ∧ (n = .print e ∨ n = .expression e)

/-- A statement has the tokens and the groups of its expression. -/
theorem Node.tokens_groups_of_statement {n e : Node} (h : n = .print e ∨ n = .expression e) :
    n.tokens = e.tokens ∧ ∀ after, n.groups after = e.groups after := by
  rcases h with rfl | rfl
  · exact ⟨by rw [tokens], fun after => by rw [groups]⟩
  · exact ⟨by rw [tokens], fun after => by rw [groups]⟩

theorem Node.mem_tokensOf {t : Token} {ns : List Node} :
    t ∈ tokensOf ns ↔ ∃ n ∈ ns, t ∈ n.tokens := by
  induction ns with
  | nil => simp [tokensOf]
  | cons n ns ih => simp [tokensOf, ih]

theorem Node.exists_of_mem_groupsOf {g : Group} {ns : List Node} {after : List Token}
    (h : g ∈ groupsOf ns after) : ∃ n ∈ ns, ∃ later, g ∈ n.groups later := by
  induction ns with
  | nil => cases h
  | cons n ns ih =>
    rw [groupsOf] at h
    rcases List.mem_append.mp h with h | h
    · exact ⟨n, List.mem_cons_self, _, h⟩
    · obtain ⟨m, hm, hgroup⟩ := ih h
      exact ⟨m, List.mem_cons_of_mem n hm, hgroup⟩

theorem Node.exists_groups_subset {n : Node} {ns : List Node} (h : n ∈ ns) (after : List Token) :
    ∃ later, n.groups later ⊆ groupsOf ns after := by
  induction ns with
  | nil => cases h
  | cons m ns ih =>
    rw [groupsOf]
    rcases List.mem_cons.mp h with rfl | h
    · exact ⟨_, List.subset_append_left _ _⟩
    · obtain ⟨later, hsubset⟩ := ih h
      exact ⟨later, List.subset_append_of_subset_right _ hsubset⟩

/-- What the statements open, they close. -/
theorem wellNested_tokensOf {ns : List Node} (h : ∀ n ∈ ns, n.IsPlainStatement) :
    wellNested [] (Node.tokensOf ns) = true := by
  induction ns with
  | nil => rfl
  | cons n ns ih =>
    obtain ⟨e, he, hn⟩ := h n List.mem_cons_self
    rw [Node.tokensOf, (Node.tokens_groups_of_statement hn).1, he.wellNested_append]
    exact ih fun m hm => h m (List.mem_cons_of_mem n hm)

theorem parseProgram_isPlain (ts : List Token) :
    ∀ n ∈ (parseProgram ts).value, n.IsPlainStatement := by
  intro n hn
  obtain ⟨us, e, rest, issues, -, hderives, hn⟩ := exists_derives_of_mem hn
  exact ⟨e, hderives.isPlain, hn⟩

/-- A program holds tokens of the list, and some that were made up. None of the latter opens a
group. -/
theorem mem_tokensOf_parseProgram (ts : List Token) :
    ∀ t ∈ Node.tokensOf (parseProgram ts).value,
      t ∈ ts ∨ t = .ofKind t.kind ∧ closer? t.kind = none := by
  intro t ht
  obtain ⟨n, hn, ht⟩ := Node.mem_tokensOf.mp ht
  obtain ⟨us, e, rest, issues, hus, hderives, hn⟩ := exists_derives_of_mem hn
  rw [(Node.tokens_groups_of_statement hn).1] at ht
  exact (hderives.mem_tokens t ht).imp_left fun ht => hus.subset ht

theorem brackets_skipNewline (ts : List Token) : brackets (skipNewline ts) = brackets ts :=
  brackets_of_passed (skipNewline_accounted ts)

theorem parseStatement_backed {source ts : List Token} (hissues : (parseStatement ts).issues = [])
    (hline : ∀ t ∈ ts, t.line ≠ 0) (hsource : ts ⊆ source) (later : List Token)
    (hlater : brackets (parseStatement ts).rest ⊆ later) :
    ∀ g ∈ (parseStatement ts).value.groups later, g.opening.kind ∈ Kind.brackets →
      g.Backed source := by
  rcases parseStatement_cases ts with ⟨t, more, rfl, -, hparse⟩ | ⟨-, hparse⟩
  · rw [List.cons_subset] at hsource
    rw [hparse] at hissues hlater ⊢
    rw [brackets_skipNewline] at hlater
    intro g hg
    rw [Node.groups] at hg
    exact (derives_parseExpression more).backed (List.append_eq_nil_iff.mp hissues).1
      (fun u hu => hline u (List.mem_cons_of_mem t hu)) hsource.2 later hlater g hg
  · rw [hparse] at hissues hlater ⊢
    rw [brackets_skipNewline] at hlater
    intro g hg
    rw [Node.groups] at hg
    exact (derives_parseExpression ts).backed hissues hline hsource later hlater g hg

/-- Without an issue, no parenthesis or bracket is skipped. -/
theorem brackets_parseProgram {ts : List Token} (hissues : (parseProgram ts).issues = [])
    (hline : ∀ t ∈ ts, t.line ≠ 0) :
    brackets ts =
      brackets (yield (parseProgram ts).value) ++ brackets (parseProgram ts).rest := by
  obtain ⟨used, skipped, hused, haccounted, hskipped⟩ := parseProgram_accounted ts hline
  rw [hissues] at hskipped
  obtain rfl : skipped = [] := List.map_eq_nil_iff.mp hskipped.symm
  conv => lhs; rw [hused, brackets_append, haccounted.brackets_eq]

/-- **Without an issue, what a group of a program misses stands behind it.** -/
theorem parseProgram_backed {source ts : List Token} (hissues : (parseProgram ts).issues = [])
    (hline : ∀ t ∈ ts, t.line ≠ 0) (hsource : ts ⊆ source)
    (hrest : brackets (parseProgram ts).rest = []) :
    ∀ g ∈ Node.groupsOf (parseProgram ts).value [], g.opening.kind ∈ Kind.brackets →
      g.Backed source := by
  fun_induction parseProgram ts with
  | case1 t next more statement hlt program ih =>
    obtain ⟨hstatement, hprogram⟩ := List.append_eq_nil_iff.mp hissues
    have hsuffix := (parseStatement_suffix (t :: next :: more)).subset
    have hline' : ∀ u ∈ statement.rest, u.line ≠ 0 := fun u hu => hline u (hsuffix hu)
    intro g hg hopening
    rw [Node.groupsOf] at hg
    rcases List.mem_append.mp hg with hg | hg
    · refine parseStatement_backed hstatement hline hsource _ ?_ g hg hopening
      -- what the first statement leaves goes into the others
      rw [brackets_parseProgram hprogram hline', hrest, List.append_nil, List.append_nil]
      intro u hu
      exact (List.mem_filter.mp (mem_brackets.mp hu).1).1
    · exact ih hprogram hline' (fun u hu => hsource (hsuffix hu)) hrest g hg hopening
  | case2 t next more statement hlt program ih => simp at hissues
  | case3 ts _ => simp [Node.groupsOf]

/-! ## Counting -/

theorem tally_scanned_iff {k : Kind} {ts : List Token} :
    tally k (scanned ts) = tally k ts ↔ ∀ t ∈ ts, t.kind = k → t.line ≠ 0 := by
  have hcomm : tally k (scanned ts) = ((ts.filter (·.kind == k)).filter (·.line ≠ 0)).length := by
    simp only [tally, List.countP_eq_length_filter, scanned, List.filter_filter, Bool.and_comm]
  rw [hcomm, tally, List.countP_eq_length_filter, List.length_filter_eq_length_iff]
  simp

theorem tally_brackets {k : Kind} (hk : k ∈ Kind.brackets) (ts : List Token) :
    tally k (brackets ts) = tally k ts := by
  rw [tally, brackets, List.countP_filter, tally]
  refine List.countP_congr fun t _ => ?_
  simp only [Bool.and_eq_true, beq_iff_eq, List.contains_iff_mem]
  exact ⟨And.left, fun ht => ⟨ht, ht ▸ hk⟩⟩

section Accepted

variable {ts : List Token} (hissues : (parseProgram ts).issues = [])
  (hline : ∀ t ∈ ts, t.line ≠ 0) (hrest : brackets (parseProgram ts).rest = [])

include hissues hline hrest

theorem brackets_yield : brackets (yield (parseProgram ts).value) = brackets ts := by
  rw [brackets_parseProgram hissues hline, hrest, List.append_nil]

/-- Trees whose groups are closed by tokens of the list have all its parentheses and brackets, and
no others. -/
theorem wellNested_of_closed (h : ∀ g ∈ Node.groupsOf (parseProgram ts).value [],
    g.opening.kind ∈ Kind.brackets → g.closing ∈ ts) : wellNested [] ts = true := by
  have hscanned : ∀ t ∈ Node.tokensOf (parseProgram ts).value, t.kind ∈ Kind.brackets →
      t ∈ ts := by
    intro t ht hk
    rcases mem_tokensOf_parseProgram ts t ht with hts | ⟨-, hnone⟩
    · exact hts
    · -- a token that was made up opens nothing, so it closes a group
      obtain ⟨n, hn, ht⟩ := Node.mem_tokensOf.mp ht
      obtain ⟨e, he, hstatement⟩ := parseProgram_isPlain ts n hn
      obtain ⟨htokens, hgroups⟩ := Node.tokens_groups_of_statement hstatement
      obtain ⟨later, hsubset⟩ := Node.exists_groups_subset hn []
      obtain ⟨g, hg, hends⟩ := he.exists_group (htokens ▸ ht) hk later
      have hclose := (he.closing_mem hg).1
      rcases hends with rfl | rfl
      · rw [hnone] at hclose
        cases hclose
      · refine h g (hsubset (hgroups later ▸ hg)) ?_
        rcases bracketPairs_of_closer hclose with hpair | ⟨-, hnot⟩
        · exact (mem_brackets_of_pair hpair).1
        · exact absurd hk hnot
  have hall : brackets (yield (parseProgram ts).value) =
      brackets (Node.tokensOf (parseProgram ts).value) := by
    rw [yield, scanned, brackets, List.filter_filter, brackets]
    refine List.filter_congr fun t ht => ?_
    by_cases hk : t.kind ∈ Kind.brackets
    · simp [hk, hline t (hscanned t ht hk)]
    · simp [hk]
  rw [← wellNested_brackets, ← brackets_yield hissues hline hrest, hall, wellNested_brackets]
  exact wellNested_tokensOf (parseProgram_isPlain ts)

/-- If as much is closed as is opened, no closing token is made up. -/
theorem closed_of_tally (h : ∀ p ∈ bracketPairs, tally p.1 ts = tally p.2 ts) :
    ∀ g ∈ Node.groupsOf (parseProgram ts).value [], g.opening.kind ∈ Kind.brackets →
      g.closing ∈ ts := by
  have hyield : ∀ k ∈ Kind.brackets,
      tally k (scanned (Node.tokensOf (parseProgram ts).value)) = tally k ts := by
    intro k hk
    rw [← tally_brackets hk ts, ← brackets_yield hissues hline hrest, tally_brackets hk, yield]
  intro g hg hopening
  obtain ⟨n, hn, later, hg⟩ := Node.exists_of_mem_groupsOf hg
  obtain ⟨e, he, hstatement⟩ := parseProgram_isPlain ts n hn
  obtain ⟨htokens, hgroups⟩ := Node.tokens_groups_of_statement hstatement
  obtain ⟨hclose, hmem⟩ := he.closing_mem (hgroups later ▸ hg)
  have hclosing : g.closing ∈ Node.tokensOf (parseProgram ts).value :=
    Node.mem_tokensOf.mpr ⟨n, hn, htokens ▸ hmem⟩
  rcases bracketPairs_of_closer hclose with hpair | ⟨hnot, -⟩
  · obtain ⟨hopens, hcloses, hsome, -⟩ := mem_brackets_of_pair hpair
    dsimp only at hopens hcloses hsome
    -- what opens a group is never made up, so the trees hold as many as the list
    have hscanned : tally g.opening.kind (scanned (Node.tokensOf (parseProgram ts).value)) =
        tally g.opening.kind (Node.tokensOf (parseProgram ts).value) := by
      refine tally_scanned_iff.mpr fun t ht hk => ?_
      rcases mem_tokensOf_parseProgram ts t ht with hts | ⟨-, hnone⟩
      · exact hline t hts
      · rw [hk, hsome] at hnone
        cases hnone
    have hbalance := tally_of_wellNested (wellNested_tokensOf (parseProgram_isPlain ts)) _ hpair
    have hequal := h _ hpair
    have hopened := hyield _ hopens
    have hclosed := hyield _ hcloses
    simp only [List.count_nil, Nat.add_zero] at hbalance hequal
    have hreal := tally_scanned_iff.mp
      (show tally g.closing.kind (scanned (Node.tokensOf (parseProgram ts).value)) =
        tally g.closing.kind (Node.tokensOf (parseProgram ts).value) by omega) _ hclosing rfl
    rcases mem_tokensOf_parseProgram ts _ hclosing with hts | ⟨hmade, -⟩
    · exact hts
    · rw [hmade] at hreal
      exact absurd rfl hreal
  · exact absurd hopening hnot

end Accepted

/-- **What closes the groups of a source that is parsed without a report.** Every group that a
parenthesis or bracket opens is closed by a token of the source, or by one that was made up and
behind which the trees have a token of the source of the same kind. Those that were made up
included, parentheses and brackets are balanced and properly nested. No group is closed by a token
that was made up exactly if the parentheses and brackets of the source itself are balanced and
properly nested, and that is if it has as many closing as opening ones. -/
theorem accepted_groups (s : Scanner) (p : Parser) (hp : p.tokens = s.tokenize.tokens)
    (haccepted : p.parse.2.failed = false) :
    (∀ g ∈ Node.groupsOf p.parse.1 [], g.opening.kind ∈ Kind.brackets → g.Backed p.tokens) ∧
    wellNested [] (Node.tokensOf p.parse.1) = true ∧
    ((∀ g ∈ Node.groupsOf p.parse.1 [], g.opening.kind ∈ Kind.brackets → g.closing ∈ p.tokens) ↔
      wellNested [] p.tokens = true) ∧
    (wellNested [] p.tokens = true ↔
      ∀ k ∈ bracketPairs, tally k.1 p.tokens = tally k.2 p.tokens) := by
  obtain ⟨hvalue, -, hfailed, -⟩ := p.parse_eq
  rw [hvalue]
  have hissues : (parseProgram p.tokens).issues = [] := by
    rw [haccepted] at hfailed
    simpa using hfailed.symm
  have hline : ∀ t ∈ p.tokens, t.line ≠ 0 := by
    rw [hp]
    exact line_ne_zero s.one_le_line_tokenize
  have hrest : brackets (parseProgram p.tokens).rest = [] := by
    refine List.filter_eq_nil_iff.mpr fun t ht => ?_
    rw [hp] at ht
    rcases kind_rest_parseProgram_tokenize s t ht with hk | hk <;> rw [hk] <;> decide
  have hbalance : wellNested [] p.tokens = true →
      ∀ k ∈ bracketPairs, tally k.1 p.tokens = tally k.2 p.tokens :=
    fun h k hk => by simpa using tally_of_wellNested h k hk
  refine ⟨parseProgram_backed hissues hline (List.Subset.refl _) hrest,
    wellNested_tokensOf (parseProgram_isPlain p.tokens), ⟨?_, ?_⟩, hbalance, ?_⟩
  · exact wellNested_of_closed hissues hline hrest
  · exact fun h => closed_of_tally hissues hline hrest (hbalance h)
  · exact fun h => wellNested_of_closed hissues hline hrest (closed_of_tally hissues hline hrest h)

/-- In `([a) [b]` the first bracket is closed by a token that was made up, which the bracket behind
`b` stands for. -/
theorem accepted_groups_sample :
    let s := Scanner.ofSource "([a) [b]\n" {}
    let p := Parser.ofTokens s.tokenize.tokens {}
    p.parse.2.failed = false ∧ wellNested [] p.tokens = false ∧
      (∀ g ∈ Node.groupsOf p.parse.1 [], g.opening.kind ∈ Kind.brackets → g.Backed p.tokens) ∧
      wellNested [] (Node.tokensOf p.parse.1) = true ∧
      ¬ ∀ g ∈ Node.groupsOf p.parse.1 [], g.opening.kind ∈ Kind.brackets →
        g.closing ∈ p.tokens := by
  intro s p
  have haccepted : p.parse.2.failed = false := by decide +kernel
  have hnot : wellNested [] p.tokens = false := by decide +kernel
  obtain ⟨hbacked, hnested, hclosed, -⟩ := accepted_groups s p rfl haccepted
  refine ⟨haccepted, hnot, hbacked, hnested, fun h => ?_⟩
  rw [hclosed.mp h] at hnot
  cases hnot

/-- Nothing in `(a (b)` closes the first parenthesis, and nothing is reported. -/
theorem unclosed_group_accepted :
    let s := (Scanner.ofSource "(a (b)\n" {}).tokenize
    let p := (Parser.ofTokens s.tokens s.reports).parse
    s.failed = false ∧ p.2.failed = false ∧ p.2.reports = {} ∧ wellNested [] s.tokens = false ∧
      ∃ g ∈ Node.groupsOf p.1 [], g.opening.kind = .leftParen ∧ g.closing ∉ s.tokens := by
  intro s p
  refine ⟨by decide +kernel, by decide +kernel, by decide +kernel, by decide +kernel, ?_⟩
  decide +kernel

end Scriptlet
