/-!
# Binary64 numbers, exactly

A finite number is a sign and a magnitude word `w`, the 63 low bits of its binary64 pattern. The
word stands for `significand w · 2 ^ exponent w`, and larger words stand for larger magnitudes.
`nearest` rounds any fraction to a word, halves to the even neighbour. Everything here is
arithmetic on `Nat` and `Int`; the machine type is met only in `magnitude` and `ofMagnitude`.
-/

namespace Scriptlet.Number

/-- The bit above the fraction field, which is the lowest bit of the exponent field. -/
def hiddenBit : Nat := 0x10000000000000

/-- The sign bit. -/
def signBit : Nat := 0x8000000000000000

/-- The magnitude word of infinity; finite magnitudes lie below it, NaN above it. -/
def infinityWord : Nat := 0x7FF * hiddenBit

/-- The magnitude word of a number: its bits without the sign. -/
def magnitude (x : Float) : Nat := x.toBits.toNat % signBit

/-- Whether the sign bit of a number is set. -/
def isNegative (x : Float) : Bool := decide (signBit ≤ x.toBits.toNat)

/-- The number with the given sign and magnitude word. -/
def ofMagnitude (negative : Bool) (w : Nat) : Float :=
  Float.ofBits (UInt64.ofNat (if negative then signBit + w else w))

/-- The one NaN. -/
def notANumber : Float := Float.ofBits 0x7FF8000000000000

/-- The integer factor of a finite word. The hidden bit is there unless the exponent field is
zero. -/
def significand (w : Nat) : Nat :=
  if w < hiddenBit then w else hiddenBit + w % hiddenBit

/-- The power of two of a finite word. -/
def exponent (w : Nat) : Int :=
  if w < hiddenBit then -1074 else (w / hiddenBit : Nat) - 1075

/-- The product `n · 2 ^ e`, with a negative power left to the other side of a fraction. -/
def scaleUp (n : Nat) (e : Int) : Nat := n <<< e.toNat

/-- The quotient of `a` by `b`, rounded to the nearest integer, a half to the even one. -/
def roundDiv (a b : Nat) : Nat :=
  let q := a / b
  let r := a % b
  if 2 * r < b then q else if b < 2 * r then q + 1 else q + q % 2

/-- The integer `k` with `2 ^ k ≤ num / den < 2 ^ (k + 1)`, for positive `num` and `den`. -/
def floorLog2 (num den : Nat) : Int :=
  let k : Int := (Nat.log2 num : Int) - Nat.log2 den
  if scaleUp num (-k) < scaleUp den k then k - 1 else k

/-- The word nearest to `num / den`, a half to the even word; what lies beyond the largest finite
magnitude by half a unit or more becomes infinity. -/
def nearest (num den : Nat) : Nat :=
  if num = 0 then 0
  else
    let e := max (-1074) (floorLog2 num den - 52)
    let q := roundDiv (scaleUp num (-e)) (scaleUp den e)
    min infinityWord ((e + 1074).toNat * hiddenBit + q)

/-- The number nearest to an integer, if it is finite. -/
def ofInt? (n : Int) : Option Float :=
  let w := nearest n.natAbs 1
  if w < infinityWord then some (ofMagnitude (decide (n < 0)) w) else none

end Scriptlet.Number
