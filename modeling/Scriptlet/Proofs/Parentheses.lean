import Scriptlet.Proofs.Derivation
import Scriptlet.Proofs.Verdict

/-!
# Parentheses around every operation

A tree of any shape can be written down, whatever the levels of its operators: with parentheses
around each operation it is read back with groups in their place, and groups do not show in values.

* `Node.Formula`: trees of literals and operators, in any shape.
* `Node.Parenthesized`: the tokens of such a tree, with parentheses around each operation.
* `Node.ungrouped`: a tree with its groups left out. `Parenthesized.exists_spelled`: the tokens of
  a tree spell one that differs from it by groups only.
* `evaluate_ungrouped`: unless groups are set to have no value, they change nothing.
-/

namespace Scriptlet

namespace Node

/-- Trees of literals and operators. Nothing is said of the levels. -/
inductive Formula : Node → Prop
  | literal {t : Token} : t.kind.isLiteral = true → t.WellFormed → Formula (.literal t)
  | unary {op : Token} {x : Node} : op.kind ∈ prefixOperators → Formula x → Formula (.unary op x)
  | binary {l : Level} {x y : Node} {op : Token} : op.kind ∈ l.operators → Formula x → Formula y →
      Formula (.binary x op y)

/-- The tokens of a tree in order, with a pair of parentheses around each operation. -/
inductive Parenthesized : Node → List Token → Prop
  | literal (t : Token) : Parenthesized (.literal t) [t]
  | unary {opening op closing : Token} {x : Node} {ts : List Token} :
      opening.kind = .leftParen → closing.kind = .rightParen → Parenthesized x ts →
      Parenthesized (.unary op x) (opening :: (op :: ts) ++ [closing])
  | binary {opening op closing : Token} {x y : Node} {ts us : List Token} :
      opening.kind = .leftParen → closing.kind = .rightParen → Parenthesized x ts →
      Parenthesized y us → Parenthesized (.binary x op y) (opening :: (ts ++ op :: us) ++ [closing])

/-- An expression with its groups left out. -/
def ungrouped : Node → Node
  | .unary op x => .unary op x.ungrouped
  | .binary x op y => .binary x.ungrouped op y.ungrouped
  | .grouping _ x _ => x.ungrouped
  | n => n

theorem IsOperand.not_binaryOf {n : Node} (h : n.IsOperand) (l : Level) : ¬ n.BinaryOf l := by
  cases n with
  | binary x op y => exact h.elim
  | _ => exact id

/-- **With parentheses around each operation, every tree is spelled.** What is spelled differs from
the tree by groups only. Each operand is a literal or a group, so the levels do not matter. -/
theorem Parenthesized.exists_spelled {n : Node} {ts : List Token} (h : n.Parenthesized ts)
    (hn : n.Formula) : ∃ m : Node, m.Canonical ∧ m.Spelled ts ∧ m.IsOperand ∧ m.ungrouped = n := by
  have hcloser {opening closing : Token} (ho : opening.kind = .leftParen)
      (hc : closing.kind = .rightParen) : closer? opening.kind = some closing.kind := by
    rw [ho, hc]
    rfl
  induction h with
  | literal t =>
    cases hn with
    | literal hliteral => exact ⟨.literal t, .literal hliteral, .literal t, trivial, rfl⟩
  | @unary opening op closing x ts hopening hclosing _ ih =>
    cases hn with
    | unary hop hx =>
      obtain ⟨y, hcanonical, hspelled, hoperand, rfl⟩ := ih hx
      exact ⟨.grouping opening (.unary op y) closing,
        .grouping (hcloser hopening hclosing) (.unary hop hoperand hcanonical),
        .grouping (.unary hspelled), trivial, rfl⟩
  | @binary opening op closing x y ts us hopening hclosing _ _ ihx ihy =>
    cases hn with
    | binary hop hx hy =>
      obtain ⟨v, hv, hspelled, hoperand, rfl⟩ := ihx hx
      obtain ⟨w, hw, hspelled', hoperand', rfl⟩ := ihy hy
      have hbinary : (Node.binary v op w).Canonical :=
        .binary hop (fun m hm => absurd hm (hoperand.not_binaryOf m))
          (fun m hm => absurd hm (hoperand'.not_binaryOf m)) hv hw
      exact ⟨.grouping opening (.binary v op w) closing,
        .grouping (hcloser hopening hclosing) hbinary, .grouping (.binary hspelled hspelled'),
        trivial, rfl⟩

theorem Formula.wellFormed {n : Node} (h : n.Formula) : n.WellFormed := by
  induction h with
  | literal _ ht => exact .literal ht
  | unary _ _ ih => exact .unary ih
  | binary _ _ _ ihx ihy => exact .binary ihx ihy

/-- Groups hold no payloads of their own. -/
theorem Grammatical.wellFormed_of_ungrouped {leaf : Token → Prop} {n : Node}
    (h : n.Grammatical leaf) (hn : n.ungrouped.WellFormed) : n.WellFormed := by
  induction h with
  | literal => exact hn
  | unary _ _ _ ih =>
    cases hn with
    | unary hx => exact .unary (ih hx)
  | binary _ _ _ _ _ ihx ihy =>
    cases hn with
    | binary hx hy => exact .binary (ihx hx) (ihy hy)
  | grouping _ _ ih => exact .grouping (ih hn)

end Node

/-- **Groups do not show**, neither in values nor in the record, unless they are set to have no
value. -/
theorem Interpreter.evaluate_ungrouped {n : Node} (h : n.WellFormed) (it : Interpreter)
    (hnull : it.options.nullGroupings = false) : it.evaluate n = it.evaluate n.ungrouped := by
  induction h generalizing it with
  | literal => rfl
  | @unary op x hx ih =>
    obtain ⟨v, it₁, hevaluate, -⟩ := it.evaluate_verdict hx
    have hungrouped := (ih it hnull).symm.trans hevaluate
    rw [evaluate_unary hevaluate, Node.ungrouped, evaluate_unary hungrouped]
  | @binary op x y hx hy ihx ihy =>
    obtain ⟨v, it₁, hleft, hholds⟩ := it.evaluate_verdict hx
    obtain ⟨w, it₂, hright, -⟩ := it₁.evaluate_verdict hy
    have hnull₁ : it₁.options.nullGroupings = false := by rw [hholds.adds.options, hnull]
    have hleft' := (ihx it hnull).symm.trans hleft
    have hright' := (ihy it₁ hnull₁).symm.trans hright
    rw [evaluate_binary hleft hright, Node.ungrouped, evaluate_binary hleft' hright']
  | @grouping opening closing x hx ih =>
    obtain ⟨v, it₁, hevaluate, hholds⟩ := it.evaluate_verdict hx
    have hvalue : it₁.groupValue v = v := by
      rw [groupValue, hholds.adds.options, hnull]
      rfl
    rw [evaluate_grouping hevaluate, hvalue, Node.ungrouped, ← ih it hnull, hevaluate]

/-- **Full parentheses keep the meaning.** Take a tree of literals and operators in any shape, its
tokens with parentheses around each operation, and a line end behind them. They are parsed to one
statement, without a report and with no token left over. Its expression is the tree but for groups,
and unless groups are set to have no value, evaluating it gives the same value as evaluating the
tree, with the same record of reports. -/
theorem parentheses_keep_meaning {n : Node} {ts : List Token} {newline : Token} (hn : n.Formula)
    (hts : n.Parenthesized ts) (hnewline : newline.kind = .newline) (earlier : Diagnostics)
    (it : Interpreter) (hnull : it.options.nullGroupings = false) :
    let p := Parser.ofTokens (ts ++ [newline]) earlier
    ∃ m, p.parse.1 = [.expression m] ∧ p.parse.2.reports = earlier ∧ p.parse.2.failed = false ∧
      p.parse.2.pos = p.tokens.length ∧ m.ungrouped = n ∧
      ∃ v it', it.evaluate m = (.ok v, it') ∧ it.evaluate n = (.ok v, it') := by
  intro p
  obtain ⟨m, hcanonical, hspelled, -, rfl⟩ := hts.exists_spelled hn
  have hprogram : SpelledProgram [.expression m] p.tokens := by
    have hstatement := SpelledProgram.cons (.expression hnewline hcanonical hspelled) .nil
    rwa [List.append_nil] at hstatement
  obtain ⟨hvalue, hreports, hfailed, hpos⟩ := p.parse_eq
  rw [parseProgram_spelled hprogram] at hvalue hreports hfailed hpos
  have hwell := Node.Grammatical.wellFormed_of_ungrouped hcanonical hn.wellFormed
  obtain ⟨v, it', hevaluate, -⟩ := it.evaluate_verdict hwell
  refine ⟨m, hvalue, hreports, hfailed, hpos, rfl, v, it', hevaluate, ?_⟩
  rw [← Interpreter.evaluate_ungrouped hwell it hnull, hevaluate]

/-- The product of `-("a" + "b")` and `none`, which needs its parentheses, with a failure on the
line of each operator but the sum. -/
theorem parentheses_keep_meaning_sample :
    let leaf (s : String) := Token.mk .string s (.text s) 1
    let sum := Node.binary (.literal (leaf "a")) ⟨.plus, "+", .null, 1⟩ (.literal (leaf "b"))
    let n := Node.binary (.unary ⟨.minus, "-", .null, 2⟩ sum) ⟨.star, "*", .null, 3⟩
      (.literal .nothing)
    let opening := Token.mk .leftParen "(" .null 1
    let closing := Token.mk .rightParen ")" .null 1
    let ts := [opening, opening, ⟨.minus, "-", .null, 2⟩, opening, leaf "a",
      ⟨.plus, "+", .null, 1⟩, leaf "b", closing, closing, ⟨.star, "*", .null, 3⟩, .nothing, closing]
    let p := Parser.ofTokens (ts ++ [.ofKind .newline]) {}
    let it := Interpreter.ofOptions {} {}
    n.Formula ∧ n.Parenthesized ts ∧ p.parse.2.failed = false ∧
      (it.evaluate n).2.reports.records.map Diagnostic.line = [some 2, some 3] ∧
      ∃ m, p.parse.1 = [.expression m] ∧ it.evaluate m = it.evaluate n := by
  intro leaf sum n opening closing ts p it
  have hsum : sum.Formula := .binary (l := .term) (by decide) (.literal rfl rfl) (.literal rfl rfl)
  have hn : n.Formula :=
    .binary (l := .factor) (by decide) (.unary (by decide) hsum) (.literal rfl rfl)
  have hts : n.Parenthesized ts :=
    .binary rfl rfl (.unary rfl rfl (.binary rfl rfl (.literal _) (.literal _))) (.literal _)
  have hnewline : (Token.ofKind .newline).kind = .newline := rfl
  obtain ⟨m, hparse, -, hfailed, -, -, v, it', hm, hevaluate⟩ :=
    parentheses_keep_meaning hn hts hnewline {} it rfl
  exact ⟨hn, hts, hfailed, by decide +kernel, m, hparse, hm.trans hevaluate.symm⟩

end Scriptlet
