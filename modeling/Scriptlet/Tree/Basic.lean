import Scriptlet.Token.Basic

/-!
# Trees

One type holds statements, expressions and what documents may put in their place: nothing, lists
and bare tokens. The parser builds only statements over expressions.
-/

namespace Scriptlet

/-- A node of a tree over tokens, or over what documents hold in their place. -/
inductive Node (τ : Type := Token) where
  | absent
  | list (items : List (Node τ))
  | token (t : τ)
  | literal (t : τ)
  | unary (operator : τ) (operand : Node τ)
  | binary (left : Node τ) (operator : τ) (right : Node τ)
  | grouping (opening : τ) (inner : Node τ) (closing : τ)
  | print (expression : Node τ)
  | expression (expression : Node τ)

namespace Node

/-- The name of the type of a node. -/
def typeName {τ : Type} : Node τ → String
  | absent => "NoneType"
  | list _ => "list"
  | token _ => "prot.types.Token"
  | literal _ => "prot.ast.Literal"
  | unary _ _ => "prot.ast.Unary"
  | binary _ _ _ => "prot.ast.Binary"
  | grouping _ _ _ => "prot.ast.Grouping"
  | print _ => "prot.ast.Print"
  | expression _ => "prot.ast.ExprStmt"

section Traverse

variable {m : Type → Type} [Applicative m] {τ σ : Type}

mutual

/-- The tree with its tokens exchanged, from the first to the last. -/
def traverse (f : τ → m σ) : Node τ → m (Node σ)
  | absent => pure absent
  | list items => list <$> traverseAll f items
  | token t => token <$> f t
  | literal t => literal <$> f t
  | unary op x => unary <$> f op <*> traverse f x
  | binary x op y => binary <$> traverse f x <*> f op <*> traverse f y
  | grouping a x b => grouping <$> f a <*> traverse f x <*> f b
  | print x => print <$> traverse f x
  | expression x => expression <$> traverse f x

/-- The trees with their tokens exchanged, from the first to the last. -/
def traverseAll (f : τ → m σ) : List (Node τ) → m (List (Node σ))
  | [] => pure []
  | n :: ns => (· :: ·) <$> traverse f n <*> traverseAll f ns

end

end Traverse

mutual

/-- Equality of trees: same shape and same tokens, lines aside. -/
def same : Node → Node → Bool
  | absent, absent => true
  | list xs, list ys => sameList xs ys
  | token a, token b => a.same b
  | literal a, literal b => a.same b
  | unary f x, unary g y => f.same g && same x y
  | binary x f y, binary x' g y' => same x x' && f.same g && same y y'
  | grouping a x b, grouping a' y b' => a.same a' && same x y && b.same b'
  | print x, print y => same x y
  | expression x, expression y => same x y
  | _, _ => false

/-- Equality of lists of trees, item by item. -/
def sameList : List Node → List Node → Bool
  | [], [] => true
  | x :: xs, y :: ys => same x y && sameList xs ys
  | _, _ => false

end

end Node

end Scriptlet
