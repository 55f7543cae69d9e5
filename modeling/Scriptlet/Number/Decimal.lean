import Scriptlet.Number.Binary64

/-!
# Decimals and the shortest one that reads back

A `Decimal` is `digits · 10 ^ exponent`. `Decimal.toWord` reads it as a binary64 magnitude, and
`shortest` finds, for a finite magnitude word, the decimal on the coarsest power-of-ten grid that
reads back as that word.
-/

namespace Scriptlet.Number

/-- The non-negative number `digits · 10 ^ exponent`. -/
structure Decimal where
  digits : Nat
  exponent : Int
  deriving DecidableEq, Repr

namespace Decimal

/-- The magnitude word nearest to a decimal. A power of ten so large or so small that the result
is infinity or zero whatever the other digits is not computed. -/
def toWord (d : Decimal) : Nat :=
  if d.digits = 0 then 0
  else if 342 ≤ d.exponent then infinityWord
  else if (Nat.log2 d.digits : Int) + 1 + 3 * d.exponent < -1075 then 0
  else nearest (d.digits * Nat.pow 10 d.exponent.toNat) (Nat.pow 10 (-d.exponent).toNat)

/-- The same number without trailing zeros in its digits; zero is `0 · 10 ^ 0`. -/
def trim (d : Decimal) : Decimal :=
  if h : d.digits = 0 then ⟨0, 0⟩
  else if d.digits % 10 = 0 then trim ⟨d.digits / 10, d.exponent + 1⟩
  else d
termination_by d.digits
decreasing_by exact Nat.div_lt_self (Nat.pos_of_ne_zero h) (by decide)

end Decimal

/-- The exact decimal expansion of a finite word. -/
def exactDecimal (w : Nat) : Decimal :=
  let e := exponent w
  if 0 ≤ e then ⟨scaleUp (significand w) e, 0⟩
  else ⟨significand w * Nat.pow 5 (-e).toNat, e⟩

/-- A neighbour of the word's value on the grid of multiples of `10 ^ i` that reads back as the
word. If both do, it is the nearer one, or the one with an even last digit if both are as near. -/
def onGrid? (w : Nat) (i : Int) : Option Decimal :=
  let num := scaleUp (significand w) (exponent w) * Nat.pow 10 (-i).toNat
  let den := scaleUp 1 (-exponent w) * Nat.pow 10 i.toNat
  let low : Decimal := ⟨num / den, i⟩
  let high : Decimal := ⟨num / den + 1, i⟩
  let lowReads := decide (low.toWord = w)
  let highReads := decide (high.toWord = w)
  let lowNearer := decide (2 * (num % den) < den ∨ 2 * (num % den) = den ∧ num / den % 2 = 0)
  if lowReads && (!highReads || lowNearer) then some low
  else if highReads then some high
  else none

/-- The first hit on `n` grids, from the one of `10 ^ i` downwards. -/
def searchGrids (w : Nat) : Nat → Int → Option Decimal
  | 0, _ => none
  | n + 1, i =>
    match onGrid? w i with
    | some d => some d
    | none => searchGrids w n (i - 1)

/-- A power of ten above the value of a word, by a bound on the decimal logarithm. -/
def topGrid (w : Nat) : Int :=
  ((Nat.log2 (significand w) + exponent w + 1) * 30103).fdiv 100000 + 1

/-- The decimal with the fewest digits that reads back as the word, without trailing zeros. Twenty
grids always hold a hit; the exact expansion stands behind them. -/
def shortest (w : Nat) : Decimal :=
  ((searchGrids w 20 (topGrid w)).getD (exactDecimal w)).trim

end Scriptlet.Number
