import Scriptlet.Number.Decimal
import Scriptlet.Text.Classes

/-!
# Reading numerals

A numeral is an optional sign and either digits with an optional point and an optional exponent,
or one of the words `inf`, `infinity` and `nan` in any case. Blanks around it are ignored, digits
of any script count, and an underscore may stand between two digits.
-/

namespace Scriptlet.Number

/-- The sign of a numeral and what follows it. -/
def splitSign : List Char → Bool × List Char
  | [] => (false, [])
  | c :: cs =>
    if c = '-' then (true, cs) else if c = '+' then (false, cs) else (false, c :: cs)

/-- The exponent part that ends a numeral; nothing at all stands for zero. -/
def exponentPart? : List Char → Option Int
  | [] => some 0
  | c :: cs =>
    if c = 'e' ∨ c = 'E' then
      let (negative, digits) := splitSign cs
      if digits ≠ [] ∧ digits.all Char.isDigit then
        let value : Int := Nat.ofDigitChars 10 digits 0
        some (if negative then -value else value)
      else none
    else none

/-- The digits after a point, if there is one, and what follows them. -/
def splitFraction : List Char → List Char × List Char
  | [] => ([], [])
  | c :: cs =>
    if c = '.' then (cs.takeWhile Char.isDigit, cs.dropWhile Char.isDigit) else ([], c :: cs)

/-- The decimal that an unsigned numeral in plain digits denotes. -/
def decimal? (cs : List Char) : Option Decimal :=
  let whole := cs.takeWhile Char.isDigit
  let (fraction, tail) := splitFraction (cs.dropWhile Char.isDigit)
  if whole = [] ∧ fraction = [] then none
  else
    match exponentPart? tail with
    | none => none
    | some e => some ⟨Nat.ofDigitChars 10 (whole ++ fraction) 0, e - fraction.length⟩

/-- The magnitude word of an unsigned numeral or of a word for infinity. -/
def word? (cs : List Char) : Option Nat :=
  match decimal? cs with
  | some d => some d.toWord
  | none =>
    let name := String.ofList (cs.map Char.toLower)
    if name = "inf" ∨ name = "infinity" then some infinityWord
    else if name = "nan" then some (magnitude notANumber)
    else none

/-- Whether a text starts with a plain digit. -/
def startsWithDigit : List Char → Bool
  | [] => false
  | c :: _ => c.isDigit

/-- The text without its underscores, if each of them stands between two digits. The flag tells
whether a digit stands directly before the text. -/
def withoutUnderscores? (afterDigit : Bool) : List Char → Option (List Char)
  | [] => some []
  | c :: cs =>
    if c = '_' then
      if afterDigit && startsWithDigit cs then withoutUnderscores? false cs else none
    else (withoutUnderscores? c.isDigit cs).map (c :: ·)

/-- A blank of the plain character set. -/
def isPlainBlank (c : Char) : Bool :=
  c = ' ' || (9 ≤ c.toNat && c.toNat ≤ 13)

/-- A character of a numeral in the plain character set: digits of other scripts become plain
digits, other blanks become spaces, and what cannot occur in a numeral a question mark. -/
def toPlain (c : Char) : Char :=
  if c.toNat < 128 then c
  else if Text.isBlank c then ' '
  else
    match Text.digitValue? c with
    | some d => d.digitChar
    | none => '?'

/-- The text between the blanks on its two sides. -/
def trimBlanks (cs : List Char) : List Char :=
  ((cs.dropWhile isPlainBlank).reverse.dropWhile isPlainBlank).reverse

/-- The number a numeral denotes, correctly rounded. -/
def readChars? (cs : List Char) : Option Float :=
  match withoutUnderscores? false (trimBlanks (cs.map toPlain)) with
  | none => none
  | some plain =>
    let (negative, unsigned) := splitSign plain
    (word? unsigned).map fun w =>
      if infinityWord < w then notANumber else ofMagnitude negative w

/-- The number a numeral denotes, correctly rounded. -/
def read? (s : String) : Option Float := readChars? s.toList

end Scriptlet.Number
