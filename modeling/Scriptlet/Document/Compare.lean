import Scriptlet.Document.Basic

/-!
# Comparing plain data

`Document.same` compares data by value: numbers agree if they are the same number, whole or not,
and a truth value counts as one or zero. NaN differs from itself. Records agree whatever the order
of their fields.
-/

namespace Scriptlet

/-- Whether a number is equal to a whole number, compared without rounding. -/
def Number.equalsInt (x : Float) (n : Int) : Bool :=
  let w := Number.magnitude x
  let num : Int := Number.scaleUp (Number.significand w) (Number.exponent w)
  let den : Int := Number.scaleUp 1 (-Number.exponent w)
  decide (w < Number.infinityWord) &&
    decide ((if Number.isNegative x then -num else num) = n * den)

namespace Document

/-- The whole number that a document stands for; a truth value counts as one or zero. -/
def whole? : Document → Option Int
  | truth b => some (if b then 1 else 0)
  | integer n => some n
  | _ => none

/-- Equality of data that are neither lists nor records, by value. -/
def sameScalar : Document → Document → Bool
  | null, null => true
  | text s, text t => s == t
  | number x, number y => x == y
  | number x, d => d.whole?.any fun n => Number.equalsInt x n
  | d, number y => d.whole?.any fun n => Number.equalsInt y n
  | d, e =>
    match d.whole?, e.whole? with
    | some m, some n => m == n
    | _, _ => false

mutual

/-- Equality of data by value. -/
def same : Document → Document → Bool
  | list as, list bs => sameItems as bs
  | record fs, record gs => fs.length == gs.length && sameFields fs gs
  | a, b => sameScalar a b

/-- Equality of lists, item by item. -/
def sameItems : List Document → List Document → Bool
  | [], [] => true
  | a :: as, b :: bs => same a b && sameItems as bs
  | _, _ => false

/-- Whether every field of the first record stands in the second with the same value. -/
def sameFields : List (String × Document) → List (String × Document) → Bool
  | [], _ => true
  | (name, a) :: fields, others =>
    (match others.lookup name with
      | some b => same a b
      | none => false) && sameFields fields others

end

/-- The truth value of data: what is empty, zero or null is false. -/
def truthy : Document → Bool
  | null => false
  | truth b => b
  | integer n => n != 0
  | number x => x != 0.0
  | text s => s != ""
  | list items => !items.isEmpty
  | record fields => !fields.isEmpty

/-- The number of parts of a text, list or record. -/
def length? : Document → Option Nat
  | text s => some s.length
  | list items => some items.length
  | record fields => some fields.length
  | _ => none

end Document

end Scriptlet
