import Scriptlet.Number.Numeral

/-!
# Numbers as text

All written forms of a number share their digits, the shortest that read back. A `Style` says how
they are laid out: where positional writing ends, whether an integral value keeps its `.0`, and
how the values that are not finite are spelled.

A program prints a number in fixed notation, with the digits of its shown text. That text is read as
an exact decimal, laid out without an exponent, and freed of the zeros behind its point.
-/

namespace Scriptlet.Number

/-- How a number is laid out. -/
structure Style where
  /-- Exponents of the leading digit, from and below, that are written positionally. All are if
  absent. -/
  positional : Option (Int × Int)
  /-- Whether an integral value written positionally ends in `.0`. -/
  keepPoint : Bool
  infinity : String
  nan : String

/-- How messages show numbers: with a point or an exponent in them. -/
def Style.shown : Style := ⟨some (-4, 16), true, "inf", "nan"⟩

namespace Decimal

/-- The digits with a point among them, or with zeros that reach to it. -/
def positional (keepPoint : Bool) (d : Decimal) : List Char :=
  let digits := Nat.toDigits 10 d.digits
  let point : Int := digits.length + d.exponent
  if 0 ≤ d.exponent then
    digits ++ List.replicate d.exponent.toNat '0' ++ (if keepPoint then ['.', '0'] else [])
  else if 0 < point then
    digits.take point.toNat ++ '.' :: digits.drop point.toNat
  else
    '0' :: '.' :: List.replicate (-point).toNat '0' ++ digits

/-- One digit before the point and an exponent of at least two digits with its sign. -/
def scientific (d : Decimal) : List Char :=
  let digits := Nat.toDigits 10 d.digits
  let power : Int := digits.length + d.exponent - 1
  let fraction := digits.drop 1
  let powerDigits := Nat.toDigits 10 power.natAbs
  digits.take 1 ++ (if fraction.isEmpty then [] else '.' :: fraction) ++
    'e' :: (if power < 0 then '-' else '+') ::
    (List.replicate (2 - powerDigits.length) '0' ++ powerDigits)

/-- The exponent of the leading digit. -/
def leadingExponent (d : Decimal) : Int := (Nat.toDigits 10 d.digits).length + d.exponent - 1

end Decimal

namespace Style

/-- A decimal laid out as the style says. -/
def layOut (s : Style) (d : Decimal) : List Char :=
  match s.positional with
  | none => d.positional s.keepPoint
  | some (lo, hi) =>
    if lo ≤ d.leadingExponent ∧ d.leadingExponent < hi then d.positional s.keepPoint
    else d.scientific

/-- The text of a magnitude word. -/
def magnitudeText (s : Style) (w : Nat) : List Char :=
  if w < infinityWord then s.layOut (shortest w) else s.infinity.toList

/-- The text of a number. NaN has no sign. -/
def write (s : Style) (x : Float) : String :=
  let w := magnitude x
  if infinityWord < w then s.nan
  else String.ofList ((if isNegative x then ['-'] else []) ++ s.magnitudeText w)

end Style

/-! ## Printed numbers -/

/-- A decimal in fixed notation. Zeros stand where the digits do not reach to the point, and all
digits behind the point are kept. -/
def Decimal.fixed (d : Decimal) : List Char :=
  let digits := Nat.toDigits 10 d.digits
  let point : Int := digits.length + d.exponent
  if d.digits = 0 ∧ 0 < d.exponent then ['0']
  else if point < 0 then '0' :: '.' :: (List.replicate (-point).toNat '0' ++ digits)
  else if digits.length < point then digits ++ List.replicate (point - digits.length).toNat '0'
  else
    let whole := if point = 0 then ['0'] else digits.take point.toNat
    let fraction := digits.drop point.toNat
    if fraction.isEmpty then whole else whole ++ '.' :: fraction

/-- A text without the copies of a character at its end. -/
def stripEnd (c : Char) (text : List Char) : List Char :=
  (text.reverse.dropWhile (· == c)).reverse

/-- A text without the zeros at its end, and without the point if they reach to it. A text without a
point stays as it is. -/
def stripFraction (text : List Char) : List Char :=
  if '.' ∈ text then stripEnd '.' (stripEnd '0' text) else text

/-- The printed text of a number. There is none if its shown text is not a numeral. -/
def printed? (x : Float) : Option String :=
  let w := magnitude x
  if infinityWord < w then some "NaN"
  else if w = infinityWord then some (if isNegative x then "-inf" else "inf")
  else
    let (negative, unsigned) := splitSign (Style.shown.write x).toList
    (decimal? unsigned).map fun d =>
      String.ofList (stripFraction ((if negative then ['-'] else []) ++ d.fixed))

end Scriptlet.Number
