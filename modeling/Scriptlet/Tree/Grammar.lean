import Scriptlet.Tree.Rule

/-!
# The grammar of expressions

Five levels of binary operators, loosest first, then prefix operators, then leaves and groups:

* equality `==` `!=`, comparison `>` `>=` `<` `<=`, term `+` `-`, factor `*` `/` `%`, exponent `^`;
* prefix `!` `not` `-`;
* literals, `( … )`, `[ … ]`, and indented blocks.

A token that starts no expression is left where it is, and an end-of-input leaf stands for the
expression that is missing.
-/

namespace Scriptlet

/-- Levels of binary operators, loosest first. -/
inductive Level where
  | equality
  | comparison
  | term
  | factor
  | exponent
  deriving DecidableEq, Repr

/-- The operators of a level. -/
def Level.operators : Level → List Kind
  | equality => [.equalEqual, .bangEqual]
  | comparison => [.greater, .greaterEqual, .less, .lessEqual]
  | term => [.plus, .minus]
  | factor => [.star, .slash, .percent]
  | exponent => [.caret]

/-- Operators that stand before their operand. -/
def prefixOperators : List Kind := [.bang, .kwNot, .minus]

/-- The kind that closes what a kind opens. -/
def closer? : Kind → Option Kind
  | .leftParen => some .rightParen
  | .leftBracket => some .rightBracket
  | .indent => some .dedent
  | _ => none

/-- The leaf that stands for an expression that is missing. -/
def missing : Node := .literal (.ofKind .endOfInput)

/-- The tokens without a line end that stands directly before the end of an indented block. -/
def skipBlockNewline (closer : Kind) (ts : List Token) : List Token :=
  match ts with
  | a :: b :: more =>
    if closer = .dedent ∧ a.kind = .newline ∧ b.kind = .dedent then b :: more else ts
  | _ => ts

/-- Reads the token that closes a group. If it is not the next one, a token that no text stands
for takes its place; that is an issue only if none of its kind is left at all. -/
def closeGroup (closer : Kind) (ts : List Token) : Parsed Token :=
  let ts := skipBlockNewline closer ts
  let issues := expect closer ts
  match ts with
  | t :: more => if t.kind = closer then ⟨t, more, issues⟩ else ⟨.ofKind closer, ts, issues⟩
  | [] => ⟨.ofKind closer, [], issues⟩

theorem length_skipBlockNewline_le (closer : Kind) (ts : List Token) :
    (skipBlockNewline closer ts).length ≤ ts.length := by
  unfold skipBlockNewline
  split
  · split <;> simp
  · exact Nat.le_refl _

theorem length_rest_closeGroup_le (closer : Kind) (ts : List Token) :
    (closeGroup closer ts).rest.length ≤ ts.length := by
  refine Nat.le_trans ?_ (length_skipBlockNewline_le closer ts)
  unfold closeGroup
  generalize skipBlockNewline closer ts = us
  cases us with
  | nil => exact Nat.le_refl _
  | cons t us =>
    dsimp only
    split <;> simp

namespace Rule

/-- Always the missing leaf. -/
def nothing : Rule where
  run ts := ⟨missing, ts, []⟩
  length_rest_le _ := Nat.le_refl _

/-- A literal, or a group around what the inner rule reads. -/
def primary (inner : Rule) : Rule where
  run
    | [] => ⟨missing, [], []⟩
    | t :: ts =>
      if t.kind.isLiteral then ⟨.literal t, ts, []⟩
      else
        match closer? t.kind with
        | none => ⟨missing, t :: ts, []⟩
        | some closer =>
          let body := inner.run ts
          let closing := closeGroup closer body.rest
          ⟨.grouping t body.value closing.value, closing.rest, body.issues ++ closing.issues⟩
  length_rest_le ts := by
    cases ts with
    | nil => exact Nat.le_refl _
    | cons t ts =>
      dsimp only
      split
      · simp
      · split
        · exact Nat.le_refl _
        · exact Nat.le_succ_of_le
            (Nat.le_trans (length_rest_closeGroup_le ..) (inner.length_rest_le ts))

/-- A primary with prefix operators. -/
def unary (inner : Rule) : Rule := (primary inner).prefixed prefixOperators

/-- Powers: operands joined by the operators of the tightest level. -/
def powers (inner : Rule) : Rule := (unary inner).chain Level.exponent.operators

/-- Products of powers. -/
def products (inner : Rule) : Rule := (powers inner).chain Level.factor.operators

/-- Sums of products. -/
def sums (inner : Rule) : Rule := (products inner).chain Level.term.operators

/-- Comparisons of sums. -/
def comparisons (inner : Rule) : Rule := (sums inner).chain Level.comparison.operators

/-- Equalities of comparisons. -/
def equalities (inner : Rule) : Rule := (comparisons inner).chain Level.equality.operators

/-- The rule of a level, with `inner` inside groups. -/
def level (inner : Rule) : Level → Rule
  | .exponent => powers inner
  | .factor => products inner
  | .term => sums inner
  | .comparison => comparisons inner
  | .equality => equalities inner

/-- Expressions whose groups nest less than `depth` deep. A depth greater than the number of
tokens is no restriction, since each group takes a token to open. -/
def expression : (depth : Nat) → Rule
  | 0 => nothing
  | depth + 1 =>
    { run := fun ts => (equalities (expression depth)).run ts
      length_rest_le := fun ts => (equalities (expression depth)).length_rest_le ts }

end Rule

/-- Reads an expression. -/
def parseExpression (ts : List Token) : Parsed Node := (Rule.expression (ts.length + 1)).run ts

/-- Reads an operand with its prefix operators. -/
def parseUnary (ts : List Token) : Parsed Node := (Rule.unary (Rule.expression ts.length)).run ts

/-- Reads a literal or a group. -/
def parsePrimary (ts : List Token) : Parsed Node :=
  (Rule.primary (Rule.expression ts.length)).run ts

/-- Reads an expression without operators looser than a level. -/
def parseLevel (l : Level) (ts : List Token) : Parsed Node :=
  (Rule.level (Rule.expression ts.length) l).run ts

theorem length_rest_parseExpression_le (ts : List Token) :
    (parseExpression ts).rest.length ≤ ts.length :=
  (Rule.expression _).length_rest_le ts

end Scriptlet
