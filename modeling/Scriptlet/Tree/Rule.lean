import Scriptlet.Tree.Basic

/-!
# Parsing rules

A rule reads a node from the front of a token list. It always succeeds: what is missing is noted
as an issue, and parsing goes on. A rule never gives back more tokens than it was given, which is
part of its type and the reason why chains of operands end.
-/

namespace Scriptlet

/-- What can be wrong with a token list. -/
inductive Complaint where
  /-- No token of this kind is left. -/
  | expected (kind : Kind)
  /-- A token of this kind starts no statement. -/
  | unexpected (kind : Kind)
  deriving DecidableEq, Repr

/-- The wording of a complaint. -/
def Complaint.message : Complaint → String
  | expected k => "expected token of type " ++ k.name
  | unexpected k => "unexpected token " ++ k.name

/-- A complaint and the line of the token it was made at. -/
structure Issue where
  complaint : Complaint
  line : Option Int
  deriving DecidableEq, Repr

/-- What a rule has read, the tokens after it, and the issues met. -/
structure Parsed (α : Type) where
  value : α
  rest : List Token
  issues : List Issue

/-- A way to read a node from the front of a token list. -/
structure Rule where
  run : List Token → Parsed Node
  length_rest_le : ∀ ts, (run ts).rest.length ≤ ts.length

/-- Whether the first token is of one of the given kinds. -/
def startsWith (kinds : List Kind) (ts : List Token) : Bool :=
  ts.head?.any fun t => kinds.contains t.kind

/-- The issue that a kind is missing from all the tokens ahead, made at the first of them. -/
def expect (kind : Kind) (ts : List Token) : List Issue :=
  if ts.any fun t => t.kind == kind then []
  else [⟨.expected kind, ts.head?.map Token.line⟩]

namespace Rule

/-- Goes on with operators and operands after the node `left`, to the left. -/
def chainFrom (operand : Rule) (operators : List Kind) (left : Node) (issues : List Issue) :
    List Token → Parsed Node
  | [] => ⟨left, [], issues⟩
  | t :: ts =>
    if operators.contains t.kind then
      let right := operand.run ts
      chainFrom operand operators (.binary left t right.value) (issues ++ right.issues) right.rest
    else ⟨left, t :: ts, issues⟩
termination_by ts => ts.length
decreasing_by exact Nat.lt_succ_of_le (operand.length_rest_le ts)

theorem length_rest_chainFrom_le (operand : Rule) (operators : List Kind) (left : Node)
    (issues : List Issue) (ts : List Token) :
    (chainFrom operand operators left issues ts).rest.length ≤ ts.length := by
  fun_induction chainFrom operand operators left issues ts with
  | case1 => exact Nat.le_refl _
  | case2 left issues t ts _ right ih =>
    have := operand.length_rest_le ts
    exact Nat.le_trans ih (Nat.le_succ_of_le this)
  | case3 => exact Nat.le_refl _

/-- Operands with operators between them, grouped to the left. -/
def chain (operand : Rule) (operators : List Kind) : Rule where
  run ts :=
    let first := operand.run ts
    chainFrom operand operators first.value first.issues first.rest
  length_rest_le ts :=
    Nat.le_trans (length_rest_chainFrom_le ..) (operand.length_rest_le ts)

/-- An operand with any number of operators before it; the nearest binds first. -/
def prefixed (operand : Rule) (operators : List Kind) : Rule where
  run ts :=
    let signs := ts.takeWhile fun t => operators.contains t.kind
    let inner := operand.run (ts.dropWhile fun t => operators.contains t.kind)
    { inner with value := signs.foldr Node.unary inner.value }
  length_rest_le _ :=
    Nat.le_trans (operand.length_rest_le _) (List.dropWhile_sublist _).length_le

end Rule

end Scriptlet
