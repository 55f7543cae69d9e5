import Scriptlet.Number.Binary64

/-!
# Operations beyond the basic ones

Division, remainder and power as the machine has them fail on some arguments. The operations of
programs are built on these and always give a number: an infinity, with a sign, or NaN where the
machine fails.
-/

namespace Scriptlet.Number

/-- How an operation of the machine fails. -/
inductive Trap where
  | zeroDivision
  /-- There is no result, or only in the limit. -/
  | domain
  /-- The result is too large. -/
  | range
  deriving DecidableEq, Repr

/-! ## Operations that fail -/

/-- The quotient by a divisor other than zero. -/
def divide (a b : Float) : Except Trap Float :=
  if b == 0.0 then .error .zeroDivision else .ok (a / b)

/-- The remainder of a division that truncates, with the sign of the dividend, computed without
rounding. There is none for an infinite dividend or a zero divisor, unless the other is NaN. -/
def modulo (a b : Float) : Except Trap Float :=
  let wa := magnitude a
  let wb := magnitude b
  if infinityWord < wa ∨ infinityWord < wb then .ok notANumber
  else if wa = infinityWord ∨ wb = 0 then .error .domain
  else if wb = infinityWord then .ok a
  else
    let e := min (exponent wa) (exponent wb)
    let r := scaleUp (significand wa) (exponent wa - e) % scaleUp (significand wb) (exponent wb - e)
    .ok (ofMagnitude (isNegative a) (nearest (scaleUp r e) (scaleUp 1 (-e))))

/-- The power of a base. It fails if it is not finite and both arguments are: as too large, but for
a zero base and for NaN as having no result. -/
def raise (a b : Float) : Except Trap Float :=
  let r := Float.pow a b
  if a.isFinite && b.isFinite && !r.isFinite then
    .error (if r.isNaN || a == 0.0 then .domain else .range)
  else .ok r

/-! ## Operations of programs -/

/-- Infinity with a sign. -/
def infinity (negative : Bool) : Float := ofMagnitude negative infinityWord

/-- The magnitude of one number with the sign of another. -/
def copySign (x y : Float) : Float := ofMagnitude (isNegative y) (magnitude x)

/-- Division. A zero divisor gives an infinity, or NaN for a dividend that is zero or NaN. -/
def quotient (a b : Float) : Except Trap Float :=
  if b == 0.0 then
    if a == 0.0 || a.isNaN then .ok notANumber
    else .ok (copySign (infinity false) a * copySign 1.0 b)
  else divide a b

/-- The remainder, or NaN where there is none. -/
def remainder (a b : Float) : Except Trap Float :=
  match modulo a b with
  | .error .domain => .ok notANumber
  | result => result

/-- Whether a number is an odd integer. -/
def isOddInteger (x : Float) : Bool :=
  let w := magnitude x
  if infinityWord ≤ w then false
  else
    let num := scaleUp (significand w) (exponent w)
    let den := scaleUp 1 (-exponent w)
    num % den = 0 && num / den % 2 = 1

/-- Exponentiation. A zero base with a negative exponent gives an infinity, and what is too large
does as well; the sign of a negative base, zero included, survives odd integer exponents only. Where
there is no result otherwise, it is NaN. -/
def power (a b : Float) : Except Trap Float :=
  match raise a b with
  | .error .domain =>
    if a == 0.0 && decide (b < 0.0) then
      .ok (if isOddInteger b then copySign (infinity false) a else infinity false)
    else .ok notANumber
  | .error .range => .ok (infinity (decide (a < 0.0) && isOddInteger b))
  | result => result

end Scriptlet.Number
