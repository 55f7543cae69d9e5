import Scriptlet.Proofs.Derivation

/-!
# The descent ends

The rules of the grammar are total: they stop at a depth that no list of tokens reaches, and they
take tokens by matching on the list. Here the same grammar is a set of methods that call each other
and move a cursor, with no word on why that ends. A method may go on for ever, and a step off the
end of the list stops it.

* `Descent`: such methods, as partial functions on parsers. `Descent.Method.call` reads expressions,
  `Descent.statement` and `Descent.program` the rest.
* `Descent.Walks`: a method ends, and leaves the parser as it is after something has been read.
  `Walks.bind` composes this.
* `Rule.WalkedBy`: on lists shorter than a bound, a method does what a rule says. The combinators
  keep this (`WalkedBy.primary`, `WalkedBy.prefixed`, `WalkedBy.chain`), and a group lets the bound
  grow by the token that opens it, so that `walkedBy_expression` holds for every bound.
* `walks_iteration`: a round of the main loop takes a token at least.

`descent_ends_on_list` puts these together for every list of tokens and every place in it.
-/

namespace Scriptlet

/-- A method that moves the cursor of a parser. It has no outcome if it goes on for ever, and it is
stopped by a step off the list. -/
abbrev Descent := StateT Parser (ExceptT Raised Option)

/-! ## The methods -/

namespace Descent

/-- Passes a token. -/
def advance : Descent Token := fun p =>
  match p.advance? with
  | .ok passed => pure passed
  | .error off => throw off

/-- The token some places after the cursor, if there is one. -/
def peek (offset : Nat) : Descent (Option Token) := fun p =>
  match p.peek? offset with
  | .ok t => pure (t, p)
  | .error off => throw off

/-- Whether the next token is of one of the given kinds. -/
def sees (kinds : List Kind) : Descent Bool := fun p => pure (p.startsWith kinds, p)

/-- Reports a kind that is missing from the tokens ahead. -/
def expect (kind : Kind) : Descent Unit := modify fun p => p.expect kind

/-- Passes the line end directly before the end of an indented block. -/
def passBlockNewline (closer : Kind) : Descent Unit := do
  if closer = .dedent ∧ (← sees [.newline]) = true then
    match ← peek 1 with
    | some following => if following.kind = .dedent then advance *> pure () else pure ()
    | none => pure ()
  else pure ()

/-- Passes the token that closes a group, or makes one up. -/
def closeGroup (closer : Kind) : Descent Token := do
  passBlockNewline closer
  expect closer
  if ← sees [closer] then advance else pure (.ofKind closer)

/-- The methods that read expressions. A loop is a method that calls itself with what it has
gathered. -/
inductive Method where
  /-- An expression without operators looser than a level. -/
  | level (l : Level)
  /-- Operators of a level and their operands after the node `left`. -/
  | chain (l : Level) (left : Node)
  /-- A primary with prefix operators, some of which are passed. -/
  | unary (passed : List Token)
  /-- A literal or a group. -/
  | primary

/-- The method for the operands of a level. -/
def Method.operand : Level → Method
  | .equality => .level .comparison
  | .comparison => .level .term
  | .term => .level .factor
  | .factor => .level .exponent
  | .exponent => .unary []

/-- What a method does. -/
def Method.call : Method → Descent Node
  | .level l => do
    let first ← Method.operand l |>.call
    Method.chain l first |>.call
  | .chain l left => do
    if ← sees l.operators then
      let operator ← advance
      let right ← Method.operand l |>.call
      Method.chain l (.binary left operator right) |>.call
    else pure left
  | .unary passed => do
    if ← sees prefixOperators then
      let sign ← advance
      Method.unary (passed ++ [sign]) |>.call
    else
      let inner ← Method.primary |>.call
      -- the nearest operator binds first
      pure (passed.reverse.foldl (fun x operator => .unary operator x) inner)
  | .primary => do
    match ← peek 0 with
    | none => pure missing
    | some t =>
      if t.kind.isLiteral then
        let literal ← advance
        pure (.literal literal)
      else
        match closer? t.kind with
        | none => pure missing
        | some closer =>
          let opening ← advance
          let inner ← Method.level .equality |>.call
          let closing ← closeGroup closer
          pure (.grouping opening inner closing)
partial_fixpoint

/-- An expression. -/
def expression : Descent Node := Method.level .equality |>.call

/-- A statement without the line end after it. -/
def openStatement : Descent Node := do
  if ← sees [.kwPrint] then
    let _ ← advance
    let e ← expression
    expect .newline
    pure (.print e)
  else
    let e ← expression
    pure (.expression e)

/-- A statement and the line end after it. -/
def statement : Descent Node := do
  let node ← openStatement
  if ← sees [.newline] then
    let _ ← advance
    pure node
  else pure node

/-- One round of the main loop: a statement, or a token that starts none. -/
def iteration : Descent (Option Node) := do
  let start ← get
  let node ← statement
  let reached ← get
  if reached.pos = start.pos then
    let t ← advance
    modify fun p => p.note [⟨.unexpected t.kind, some t.line⟩]
    pure none
  else pure (some node)

/-- The main loop, where it has read some statements. -/
structure MainLoop where
  statements : List Node

/-- What the main loop does from there. -/
def MainLoop.call (loop : MainLoop) : Descent (List Node) := do
  let p ← get
  if p.pos + 1 < p.tokens.length then
    match ← iteration with
    | some node => MainLoop.mk (loop.statements ++ [node]) |>.call
    | none => loop |>.call
  else pure loop.statements
partial_fixpoint

/-- The whole program, from its start. -/
def program : Descent (List Node) := do
  modify Parser.reset
  MainLoop.mk [] |>.call

/-! ## Methods that end -/

variable {α β : Type}

/-- `m.Gives p a p'`: from `p`, the method ends without being stopped. It gives `a` and leaves the
parser `p'`. -/
def Gives (m : Descent α) (p : Parser) (a : α) (p' : Parser) : Prop :=
  (m.run p).run = some (.ok (a, p'))

theorem gives_pure (a : α) (p : Parser) : (pure a : Descent α).Gives p a p := rfl

theorem Gives.bind {m : Descent α} {f : α → Descent β} {p p' p'' : Parser} {a : α} {b : β}
    (h : m.Gives p a p') (h' : (f a).Gives p' b p'') : (m >>= f).Gives p b p'' := by
  have hrun : ((m >>= f).run p).run = ((f a).run p').run := by
    show ExceptT.run (m p >>= fun r => f r.1 r.2) = _
    rw [ExceptT.run_bind]
    show ((m.run p).run >>= _) = _
    rw [h]
    rfl
  exact hrun.trans h'

end Descent

namespace Parser

/-- The cursor stands in the list. -/
def Placed (p : Parser) : Prop := p.rest <:+ p.tokens

theorem note_append (p : Parser) (issues issues' : List Issue) :
    p.note (issues ++ issues') = (p.note issues).note issues' := by
  cases issues with
  | nil => simp [note]
  | cons i issues =>
    rw [note, note, note, List.map_append, Diagnostics.append_append]
    simp

end Parser

namespace Descent

variable {α β : Type}

/-- `m.Walks p parsed`: from `p`, the method ends as if `parsed` had been read there. -/
structure Walks (m : Descent α) (p : Parser) (parsed : Parsed α) : Prop where
  gives : m.Gives p parsed.value (p.take parsed).2
  suffix : parsed.rest <:+ p.rest

theorem take_of_nothing (p : Parser) (a : α) : (p.take ⟨a, p.rest, []⟩).2 = p := by
  simp [Parser.take, Parser.note]

theorem walks_of_gives {m : Descent α} {p : Parser} {a : α} (h : m.Gives p a p) :
    m.Walks p ⟨a, p.rest, []⟩ := by
  constructor
  · rw [take_of_nothing]
    exact h
  · exact List.suffix_refl _

theorem walks_pure (a : α) (p : Parser) : (pure a : Descent α).Walks p ⟨a, p.rest, []⟩ :=
  walks_of_gives (gives_pure a p)

/-- **One method after the other reads one piece after the other.** -/
theorem Walks.bind {m : Descent α} {f : α → Descent β} {p : Parser} {parsed : Parsed α} {b : β}
    {rest : List Token} {issues issues' : List Issue} (h : m.Walks p parsed)
    (h' : (f parsed.value).Walks (p.take parsed).2 ⟨b, rest, issues'⟩)
    (hissues : parsed.issues ++ issues' = issues) : (m >>= f).Walks p ⟨b, rest, issues⟩ := by
  subst hissues
  constructor
  · have htake : (p.take ⟨b, rest, parsed.issues ++ issues'⟩).2 =
        ((p.take parsed).2.take ⟨b, rest, issues'⟩).2 := by
      simp only [Parser.take, Parser.note_append]
      rfl
    rw [htake]
    exact h.gives.bind h'.gives
  · exact h'.suffix.trans h.suffix

theorem Walks.placed {m : Descent α} {p : Parser} {parsed : Parsed α} (h : m.Walks p parsed)
    (hp : p.Placed) : (p.take parsed).2.Placed :=
  h.suffix.trans hp

/-- A method that only looks leaves everything to the next. -/
theorem Gives.walks {m : Descent α} {f : α → Descent β} {p : Parser} {a : α} {parsed : Parsed β}
    (h : m.Gives p a p) (h' : (f a).Walks p parsed) : (m >>= f).Walks p parsed :=
  ⟨h.bind h'.gives, h'.suffix⟩

theorem Walks.map {m : Descent α} {p : Parser} {parsed : Parsed α} (h : m.Walks p parsed)
    (f : α → β) :
    (m >>= fun a => pure (f a)).Walks p ⟨f parsed.value, parsed.rest, parsed.issues⟩ :=
  ⟨h.gives.bind (gives_pure _ _), h.suffix⟩

/-! ## Steps of the cursor -/

variable {p : Parser} {t : Token} {ts : List Token}

/-- A token is passed where there is one. -/
theorem walks_advance (h : p.rest = t :: ts) : advance.Walks p ⟨t, ts, []⟩ := by
  constructor
  · have hadvance : p.advance? = .ok (t, { p with rest := ts }) := by
      unfold Parser.advance?
      rw [h]
    have hrun : advance p = pure (t, { p with rest := ts }) := by
      unfold advance
      rw [hadvance]
    show advance p = pure (t, (p.take ⟨t, ts, []⟩).2)
    rw [hrun]
    simp [Parser.take, Parser.note]
  · rw [h]
    exact List.suffix_cons t ts

theorem gives_sees (kinds : List Kind) (p : Parser) :
    (sees kinds).Gives p (startsWith kinds p.rest) p :=
  rfl

/-- A place in the list is looked at from the cursor on. -/
theorem gives_peek (hp : p.Placed) (offset : Nat) :
    (peek offset).Gives p p.rest[offset]? p := by
  obtain ⟨passed, htokens⟩ := hp
  have hpos : p.pos = passed.length := by
    unfold Parser.pos
    rw [← htokens]
    simp
  have hpeek : p.peek? offset = .ok p.rest[offset]? := by
    unfold Parser.peek?
    rw [hpos, ← htokens]
    dsimp only
    rw [if_pos (by omega), ← Int.natCast_add, Int.toNat_natCast,
      List.getElem?_append_right (Nat.le_add_right _ _), Nat.add_sub_cancel_left]
  show peek offset p = pure (p.rest[offset]?, p)
  unfold peek
  rw [hpeek]

theorem walks_expect (k : Kind) (p : Parser) :
    (expect k).Walks p ⟨(), p.rest, Scriptlet.expect k p.rest⟩ :=
  ⟨rfl, List.suffix_refl _⟩

/-! ## Groups -/

theorem walks_stay (h : p.rest = ts) : (pure () : Descent Unit).Walks p ⟨(), ts, []⟩ := by
  rw [← h]
  exact walks_pure () p

theorem walks_passBlockNewline (hp : p.Placed) (k : Kind) :
    (passBlockNewline k).Walks p ⟨(), skipBlockNewline k p.rest, []⟩ := by
  unfold passBlockNewline
  refine (gives_sees [.newline] p).walks ?_
  split
  · rename_i hnewline
    refine (gives_peek hp 1).walks ?_
    cases hrest : p.rest with
    | nil => exact walks_stay hrest
    | cons a us =>
      cases us with
      | nil => exact walks_stay hrest
      | cons b us =>
        have ha : a.kind = .newline := by
          simpa [hrest, startsWith] using hnewline.2
        show (if b.kind = .dedent then advance *> pure () else pure () : Descent Unit).Walks p _
        by_cases hb : b.kind = .dedent
        · rw [if_pos hb, skipBlockNewline, if_pos ⟨hnewline.1, ha, hb⟩]
          exact (walks_advance hrest).map fun _ => ()
        · rw [if_neg hb, skipBlockNewline, if_neg fun h => hb h.2.2]
          exact walks_stay hrest
  · rename_i hother
    have hskip : skipBlockNewline k p.rest = p.rest := by
      unfold skipBlockNewline
      split
      · rename_i a b us hrest
        refine if_neg fun h => hother ⟨h.1, ?_⟩
        simp [hrest, startsWith, h.2.1]
      · rfl
    rw [hskip]
    exact walks_pure () p

/-- The next token is passed if it closes the group. -/
theorem walks_closing {k : Kind} (h : p.rest = skipBlockNewline k ts) :
    (sees [k] >>= fun seen => if seen = true then advance else pure (.ofKind k)).Walks p
      ⟨(Scriptlet.closeGroup k ts).value, (Scriptlet.closeGroup k ts).rest, []⟩ := by
  refine (gives_sees [k] p).walks ?_
  unfold Scriptlet.closeGroup
  rw [← h]
  cases hrest : p.rest with
  | nil =>
    have hstay := walks_pure (Token.ofKind k) p
    rw [hrest] at hstay
    exact hstay
  | cons t us =>
    rw [startsWith_cons]
    by_cases ht : t.kind = k
    · rw [if_pos (by simp [ht])]
      simp only [if_pos ht]
      exact walks_advance hrest
    · rw [if_neg (by simp [ht])]
      simp only [if_neg ht]
      rw [← hrest]
      exact walks_pure _ p

theorem issues_closeGroup (k : Kind) (ts : List Token) :
    (Scriptlet.closeGroup k ts).issues = Scriptlet.expect k (skipBlockNewline k ts) := by
  unfold Scriptlet.closeGroup
  cases skipBlockNewline k ts with
  | nil => rfl
  | cons t us => by_cases ht : t.kind = k <;> simp [ht]

theorem walks_closeGroup (hp : p.Placed) (k : Kind) :
    (closeGroup k).Walks p (Scriptlet.closeGroup k p.rest) := by
  unfold closeGroup
  refine (walks_passBlockNewline hp k).bind ((walks_expect k _).bind (walks_closing rfl) ?_) rfl
  exact (List.append_nil _).trans (issues_closeGroup k p.rest).symm

end Descent

namespace Rule

open Descent (Method)

/-- On fewer than `n` tokens, the method does at every place what the rule says. -/
def WalkedBy (rule : Rule) (m : Descent Node) (n : Nat) : Prop :=
  ∀ p : Parser, p.Placed → p.rest.length < n → m.Walks p (rule.run p.rest)

variable {n : Nat}

/-- The token that opens a group makes room for what is inside. -/
theorem WalkedBy.primary {inner : Rule} (h : inner.WalkedBy (Method.level .equality).call n) :
    (primary inner).WalkedBy Method.primary.call (n + 1) := by
  intro p hp hlength
  have hstay := Descent.walks_pure missing p
  rw [Method.call]
  refine (Descent.gives_peek hp 0).walks ?_
  cases hrest : p.rest with
  | nil =>
    rw [hrest] at hstay
    exact hstay
  | cons t ts =>
    rw [hrest] at hstay
    show Descent.Walks (if t.kind.isLiteral = true then _ else _) p _
    unfold Rule.primary
    dsimp only
    have hadvance := Descent.walks_advance hrest
    by_cases hliteral : t.kind.isLiteral = true
    · rw [if_pos hliteral, if_pos hliteral]
      exact hadvance.map Node.literal
    · rw [if_neg hliteral, if_neg hliteral]
      cases hcloser : closer? t.kind with
      | none => exact hstay
      | some closer =>
        have hplaced := hadvance.placed hp
        have hinner := h _ hplaced (by
          rw [hrest] at hlength
          exact Nat.lt_of_succ_lt_succ hlength)
        have hclosing := Descent.walks_closeGroup (hinner.placed hplaced) closer
        exact hadvance.bind (hinner.bind (hclosing.map _) rfl) rfl

/-- After some prefix operators, the rest of them and the operand are read. -/
theorem WalkedBy.prefixed {inner : Rule} (h : (Rule.primary inner).WalkedBy Method.primary.call n)
    (passed : List Token) (p : Parser) (hp : p.Placed) (hlength : p.rest.length < n) :
    (Method.unary passed).call.Walks p
      { (Rule.unary inner).run p.rest with
        value := passed.foldr Node.unary ((Rule.unary inner).run p.rest).value } := by
  -- each round passes an operator, and the last one reads the operand
  induction hn : p.rest.length using Nat.strongRecOn generalizing p passed with
  | ind n' ih =>
    have hprimary := (h p hp hlength).map fun x => passed.reverse.foldl (fun x op => .unary op x) x
    rw [Method.call]
    refine (Descent.gives_sees prefixOperators p).walks ?_
    simp only [List.foldl_reverse] at hprimary ⊢
    cases hrest : p.rest with
    | nil =>
      rw [hrest] at hprimary
      exact hprimary
    | cons t ts =>
      rw [hrest] at hprimary hlength hn
      rw [startsWith_cons, Rule.unary]
      by_cases ht : t.kind ∈ prefixOperators
      · have hadvance := Descent.walks_advance hrest
        have hshort : ts.length < n' := hn ▸ Nat.lt_succ_self _
        have hmore := ih ts.length hshort (passed ++ [t]) _ (hadvance.placed hp)
          (Nat.lt_of_succ_lt hlength) rfl
        rw [List.foldr_append] at hmore
        rw [if_pos (List.contains_iff_mem.mpr ht), run_prefixed_operator _ ht]
        exact hadvance.bind hmore rfl
      · rw [if_neg (by simpa using ht), run_prefixed_other _ ht]
        exact hprimary

theorem WalkedBy.unary {inner : Rule} (h : (Rule.primary inner).WalkedBy Method.primary.call n) :
    (unary inner).WalkedBy (Method.unary []).call n :=
  h.prefixed []

/-- The issues met before a chain stand in front of those met in it. -/
theorem chainFrom_append (operand : Rule) (operators : List Kind) (left : Node)
    (before issues : List Issue) (ts : List Token) :
    chainFrom operand operators left (before ++ issues) ts =
      ⟨(chainFrom operand operators left issues ts).value,
        (chainFrom operand operators left issues ts).rest,
        before ++ (chainFrom operand operators left issues ts).issues⟩ := by
  fun_induction chainFrom operand operators left issues ts with
  | case1 left issues => rw [chainFrom]
  | case2 left issues t ts hop right ih =>
    rw [chainFrom, if_pos hop]
    dsimp only
    rw [List.append_assoc]
    exact ih
  | case3 left issues t ts hop => rw [chainFrom, if_neg hop]

theorem WalkedBy.chainFrom {operand : Rule} {l : Level}
    (h : operand.WalkedBy (Method.operand l).call n) (left : Node) (p : Parser) (hp : p.Placed)
    (hlength : p.rest.length < n) :
    (Method.chain l left).call.Walks p (chainFrom operand l.operators left [] p.rest) := by
  -- each round of the chain passes an operator
  induction hn : p.rest.length using Nat.strongRecOn generalizing p left with
  | ind n' ih =>
    have hstay := Descent.walks_pure left p
    rw [Method.call]
    refine (Descent.gives_sees l.operators p).walks ?_
    cases hrest : p.rest with
    | nil =>
      rw [hrest] at hstay
      rw [Rule.chainFrom]
      exact hstay
    | cons t ts =>
      rw [startsWith_cons, Rule.chainFrom]
      by_cases hop : l.operators.contains t.kind = true
      · rw [if_pos hop, if_pos hop]
        have hadvance := Descent.walks_advance hrest
        have hplaced := hadvance.placed hp
        have hshort : ts.length < p.rest.length := by
          rw [hrest]
          exact Nat.lt_succ_self _
        have hright := h _ hplaced (Nat.lt_trans hshort hlength)
        have hle : (operand.run ts).rest.length ≤ ts.length := operand.length_rest_le ts
        have hmore := ih (operand.run ts).rest.length (by omega)
          (.binary left t (operand.run ts).value) _ (hright.placed hplaced)
          (Nat.lt_of_le_of_lt hle (Nat.lt_trans hshort hlength)) rfl
        have happend := chainFrom_append operand l.operators
          (.binary left t (operand.run ts).value) (operand.run ts).issues [] (operand.run ts).rest
        rw [List.append_nil] at happend
        dsimp only
        rw [List.nil_append, happend]
        exact hadvance.bind (hright.bind hmore rfl) rfl
      · rw [hrest] at hstay
        rw [if_neg hop, if_neg hop]
        exact hstay

theorem WalkedBy.chain {operand : Rule} {l : Level}
    (h : operand.WalkedBy (Method.operand l).call n) :
    (operand.chain l.operators).WalkedBy (Method.level l).call n := by
  intro p hp hlength
  have hfirst := h p hp hlength
  have hshort := Nat.lt_of_le_of_lt (operand.length_rest_le p.rest) hlength
  have hchain := h.chainFrom (operand.run p.rest).value _ (hfirst.placed hp) hshort
  have happend := chainFrom_append operand l.operators (operand.run p.rest).value
    (operand.run p.rest).issues [] (operand.run p.rest).rest
  rw [List.append_nil] at happend
  rw [Method.call]
  show Descent.Walks _ p (Rule.chainFrom _ _ _ _ _)
  rw [happend]
  exact hfirst.bind hchain rfl

theorem WalkedBy.level {inner : Rule} (h : (Rule.unary inner).WalkedBy (Method.unary []).call n)
    (l : Level) : (level inner l).WalkedBy (Method.level l).call n := by
  have hpowers : (powers inner).WalkedBy (Method.level .exponent).call n :=
    WalkedBy.chain (l := .exponent) h
  have hproducts : (products inner).WalkedBy (Method.level .factor).call n :=
    WalkedBy.chain (l := .factor) hpowers
  have hsums : (sums inner).WalkedBy (Method.level .term).call n :=
    WalkedBy.chain (l := .term) hproducts
  have hcomparisons : (comparisons inner).WalkedBy (Method.level .comparison).call n :=
    WalkedBy.chain (l := .comparison) hsums
  cases l with
  | exponent => exact hpowers
  | factor => exact hproducts
  | term => exact hsums
  | comparison => exact hcomparisons
  | equality => exact WalkedBy.chain (l := .equality) hcomparisons

/-- **The methods do what the rules say**, to any depth. -/
theorem walkedBy_expression (depth : Nat) :
    (expression depth).WalkedBy (Method.level .equality).call depth := by
  induction depth with
  | zero => exact fun p _ hlength => absurd hlength (Nat.not_lt_zero _)
  | succ depth ih => exact ih.primary.unary.level .equality

end Rule

/-! ## Statements and the main loop -/

namespace Descent

variable {p : Parser} {ts : List Token}

theorem walks_expression (hp : p.Placed) : expression.Walks p (parseExpression p.rest) :=
  Rule.walkedBy_expression _ p hp (Nat.lt_succ_self _)

/-- The next token is passed if it ends a line. -/
theorem walks_newline {α : Type} (h : p.rest = ts) (a : α) :
    (sees [.newline] >>= fun seen =>
      if seen = true then advance >>= fun _ => pure a else pure a).Walks p
      ⟨a, skipNewline ts, []⟩ := by
  refine (gives_sees [.newline] p).walks ?_
  have hstay := walks_pure a p
  rw [h] at hstay ⊢
  cases ts with
  | nil => exact hstay
  | cons t ts =>
    rw [startsWith_cons, skipNewline]
    by_cases ht : t.kind = .newline
    · rw [if_pos (by simp [ht]), if_pos ht]
      exact (walks_advance h).map fun _ => a
    · rw [if_neg (by simp [ht]), if_neg ht]
      exact hstay

/-- A statement is read behind its line end. -/
theorem walks_statement_of {n : Node} {rest : List Token} {issues : List Issue}
    (h : openStatement.Walks p ⟨n, rest, issues⟩) :
    statement.Walks p ⟨n, skipNewline rest, issues⟩ := by
  unfold statement
  exact h.bind (walks_newline rfl n) (List.append_nil _)

theorem walks_statement (hp : p.Placed) : statement.Walks p (parseStatement p.rest) := by
  rcases parseStatement_cases p.rest with ⟨t, more, hrest, ht, hparse⟩ | ⟨hfirst, hparse⟩
  · rw [hparse]
    refine walks_statement_of ?_
    unfold openStatement
    refine (gives_sees [.kwPrint] p).walks ?_
    rw [hrest, startsWith_cons, if_pos (by simp [ht])]
    have hadvance := walks_advance hrest
    have hexpression := walks_expression (hadvance.placed hp)
    have hexpect := (walks_expect .newline
      ((p.take ⟨t, more, []⟩).2.take (parseExpression more)).2).map fun _ =>
        Node.print (parseExpression more).value
    exact hadvance.bind (hexpression.bind hexpect rfl) rfl
  · rw [hparse]
    refine walks_statement_of ?_
    unfold openStatement
    refine (gives_sees [.kwPrint] p).walks ?_
    have hunseen : startsWith [.kwPrint] p.rest = false := by
      unfold startsWith
      cases hhead : p.rest.head? with
      | none => rfl
      | some t => simpa using hfirst t hhead
    rw [hunseen, if_neg Bool.false_ne_true]
    exact (walks_expression hp).map Node.expression

theorem gives_get (p : Parser) : (get : Descent Parser).Gives p p p := rfl

theorem walks_note (p : Parser) (issues : List Issue) :
    (modify fun p => p.note issues : Descent Unit).Walks p ⟨(), p.rest, issues⟩ :=
  ⟨rfl, List.suffix_refl _⟩

/-- Two places of one list are the same if as many tokens follow. -/
theorem pos_take_eq_iff {α : Type} (hp : p.Placed) {parsed : Parsed α}
    (hsuffix : parsed.rest <:+ p.rest) :
    (p.take parsed).2.pos = p.pos ↔ parsed.rest = p.rest := by
  have hrest := hsuffix.length_le
  have htokens := List.IsSuffix.length_le hp
  constructor
  · intro hpos
    have hlength : p.tokens.length - parsed.rest.length = p.tokens.length - p.rest.length := hpos
    exact hsuffix.eq_of_length (by omega)
  · intro heq
    show p.tokens.length - parsed.rest.length = _
    rw [heq]
    rfl

/-- **A round of the main loop takes a token at least**, and the rest of the program is read from
there. -/
theorem walks_iteration (hp : p.Placed) (hmore : 1 < p.rest.length) :
    ∃ parsed, iteration.Walks p parsed ∧ parsed.rest.length < p.rest.length ∧
      parseProgram p.rest =
        ⟨parsed.value.toList ++ (parseProgram parsed.rest).value,
          (parseProgram parsed.rest).rest, parsed.issues ++ (parseProgram parsed.rest).issues⟩ := by
  have hstatement := walks_statement hp
  have hpos := pos_take_eq_iff hp hstatement.suffix
  obtain ⟨t, next, more, hrest⟩ : ∃ t next more, p.rest = t :: next :: more := by
    obtain ⟨t, us, hrest⟩ := List.exists_cons_of_length_pos (Nat.lt_of_succ_lt hmore)
    rw [hrest] at hmore
    obtain ⟨next, more, rfl⟩ := List.exists_cons_of_length_pos (Nat.lt_of_succ_lt_succ hmore)
    exact ⟨t, next, more, hrest⟩
  by_cases hlt : (parseStatement p.rest).rest.length < p.rest.length
  · refine ⟨⟨some (parseStatement p.rest).value, (parseStatement p.rest).rest,
      (parseStatement p.rest).issues⟩, ?_, hlt, ?_⟩
    · unfold iteration
      refine (gives_get p).walks (hstatement.bind ((gives_get _).walks ?_) (List.append_nil _))
      rw [if_neg ?_]
      · exact walks_pure _ _
      · intro hsame
        rw [hpos.mp hsame] at hlt
        exact Nat.lt_irrefl _ hlt
    · rw [hrest] at hlt ⊢
      rw [parseProgram, dif_pos hlt]
      rfl
  · -- nothing is taken, so the token at the cursor is passed
    have hsame : (parseStatement p.rest).rest = p.rest :=
      hstatement.suffix.eq_of_length (Nat.le_antisymm hstatement.suffix.length_le (by omega))
    refine ⟨⟨none, next :: more,
      (parseStatement p.rest).issues ++ [⟨.unexpected t.kind, some t.line⟩]⟩, ?_, ?_, ?_⟩
    · unfold iteration
      refine (gives_get p).walks (hstatement.bind ((gives_get _).walks ?_) rfl)
      rw [if_pos (hpos.mpr hsame)]
      have hadvance := walks_advance (p := (p.take (parseStatement p.rest)).2) (hsame.trans hrest)
      exact hadvance.bind ((walks_note _ _).map fun _ => none) rfl
    · rw [hrest]
      exact Nat.lt_succ_self _
    · rw [hrest] at hlt ⊢
      rw [parseProgram, dif_neg hlt]
      simp

theorem parseProgram_of_short (h : ts.length ≤ 1) : parseProgram ts = ⟨[], ts, []⟩ := by
  rcases ts with _ | ⟨t, _ | ⟨next, more⟩⟩
  · rw [parseProgram]
    simp
  · rw [parseProgram]
    simp
  · simp at h

theorem walks_loop (hp : p.Placed) (statements : List Node) :
    (MainLoop.mk statements).call.Walks p
      ⟨statements ++ (parseProgram p.rest).value, (parseProgram p.rest).rest,
        (parseProgram p.rest).issues⟩ := by
  induction hn : p.rest.length using Nat.strongRecOn generalizing p statements with
  | ind n ih =>
    have htokens := List.IsSuffix.length_le hp
    rw [MainLoop.call]
    refine (gives_get p).walks ?_
    by_cases hmore : 1 < p.rest.length
    · rw [if_pos (by unfold Parser.pos; omega)]
      obtain ⟨parsed, hwalks, hshort, hprogram⟩ := walks_iteration hp hmore
      have hnext := fun statements =>
        ih parsed.rest.length (by omega) (hwalks.placed hp) statements rfl
      rw [hprogram]
      refine hwalks.bind ?_ rfl
      cases parsed.value with
      | none => exact hnext statements
      | some node =>
        have hlonger := hnext (statements ++ [node])
        rw [List.append_assoc] at hlonger
        exact hlonger
    · rw [if_neg (by unfold Parser.pos; omega), parseProgram_of_short (by omega), List.append_nil]
      exact walks_pure statements p

/-- The whole program is read from the start of the list, wherever the cursor was. -/
theorem gives_program (p : Parser) : program.Gives p p.parse.1 p.parse.2 := by
  have hreset : (modify Parser.reset : Descent Unit).Gives p () p.reset := rfl
  have hloop := walks_loop (p := p.reset) (List.suffix_refl _) []
  exact hreset.bind hloop.gives

/-! ## Places in a list -/

/-- `m.EndsAt p outcome`: from `p`, the method ends with the outcome and is not stopped. The cursor
stands in the list, and not before the place where it was. -/
structure EndsAt {α : Type} (m : Descent α) (p : Parser) (outcome : α × Parser) : Prop where
  gives : m.Gives p outcome.1 outcome.2
  tokens : outcome.2.tokens = p.tokens
  rest : outcome.2.rest = p.tokens.drop outcome.2.pos
  within : outcome.2.pos ≤ p.tokens.length
  forward : p.pos ≤ outcome.2.pos

theorem rest_eq_drop {rest : List Token} (h : rest <:+ ts) :
    rest = ts.drop (ts.length - rest.length) :=
  List.suffix_iff_eq_drop.mp h

theorem Walks.endsAt {α : Type} {m : Descent α} {parsed : Parsed α} (h : m.Walks p parsed)
    (hp : p.Placed) : m.EndsAt p (p.take parsed) := by
  have hshort := h.suffix.length_le
  refine ⟨h.gives, rfl, rest_eq_drop (h.suffix.trans hp), Nat.sub_le _ _, ?_⟩
  show p.tokens.length - p.rest.length ≤ p.tokens.length - parsed.rest.length
  omega

end Descent

/-- **The descent ends on every list of tokens, from every place in it.** No method steps off the
list or moves the cursor out of it, none but `program`, which starts over, moves it back, and each
does what the parser does. A round of the main loop moves the cursor on. -/
theorem descent_ends_on_list (ts : List Token) (i : Nat) (hi : i ≤ ts.length) (failed : Bool)
    (reports : Diagnostics) :
    let p : Parser := ⟨ts, ts.drop i, failed, reports⟩
    p.pos = i ∧
      Descent.statement.EndsAt p (p.read parseStatement) ∧
      Descent.expression.EndsAt p (p.read parseExpression) ∧
      (∀ l, (Descent.Method.level l).call.EndsAt p (p.read (parseLevel l))) ∧
      (Descent.Method.unary []).call.EndsAt p (p.read parseUnary) ∧
      Descent.Method.primary.call.EndsAt p (p.read parsePrimary) ∧
      (∀ k, (Descent.closeGroup k).EndsAt p (p.closeGroup k)) ∧
      Descent.program.Gives p p.parse.1 p.parse.2 ∧
      p.parse.2.rest = ts.drop p.parse.2.pos ∧ p.parse.2.pos ≤ ts.length ∧
      (i + 1 < ts.length → ∃ outcome, Descent.iteration.EndsAt p outcome ∧ i < outcome.2.pos) := by
  intro p
  have hp : p.Placed := List.drop_suffix i ts
  have hpos : p.pos = i := by
    show ts.length - (ts.drop i).length = i
    rw [List.length_drop]
    omega
  have hexpression := Rule.walkedBy_expression p.rest.length
  have hprimary := hexpression.primary p hp (Nat.lt_succ_self _)
  have hunary := hexpression.primary.unary p hp (Nat.lt_succ_self _)
  have hlevel := fun l => hexpression.primary.unary.level l p hp (Nat.lt_succ_self _)
  have hprogram := (Descent.walks_loop (p := p.reset) (List.suffix_refl _) []).suffix
  refine ⟨hpos, (Descent.walks_statement hp).endsAt hp, (Descent.walks_expression hp).endsAt hp,
    fun l => (hlevel l).endsAt hp, hunary.endsAt hp, hprimary.endsAt hp,
    fun k => (Descent.walks_closeGroup hp k).endsAt hp, Descent.gives_program p,
    Descent.rest_eq_drop hprogram, Nat.sub_le _ _, ?_⟩
  intro hmore
  have htwo : 1 < p.rest.length := by
    show 1 < (ts.drop i).length
    rw [List.length_drop]
    omega
  obtain ⟨parsed, hwalks, hshort, -⟩ := Descent.walks_iteration hp htwo
  refine ⟨p.take parsed, hwalks.endsAt hp, ?_⟩
  have hlength : p.rest.length = ts.length - i := List.length_drop
  show i < ts.length - parsed.rest.length
  omega

/-- From the second token of `( - [` on, a statement is read to the end of the list, although the
bracket has nothing inside and nothing that closes it. -/
theorem descent_ends_on_open_bracket :
    let ts : List Token := [⟨.leftParen, "(", .null, 1⟩, ⟨.minus, "-", .null, 1⟩,
      ⟨.leftBracket, "[", .null, 1⟩]
    let p : Parser := ⟨ts, ts.drop 1, false, {}⟩
    1 ≤ ts.length ∧ (p.read parseStatement).2.pos = 3 ∧
      Descent.statement.EndsAt p (p.read parseStatement) := by
  intro ts p
  have hi : 1 ≤ ts.length := by decide
  exact ⟨hi, by decide +kernel, (descent_ends_on_list ts 1 hi false {}).2.1⟩

end Scriptlet
