import Scriptlet.Number.Arithmetic
import Scriptlet.Number.Style
import Scriptlet.Token.Basic

/-!
# Values as numbers, truth values and text

Operators ask for their operands as numbers, truth values or text. A value that cannot be taken
that way is refused by its kind. Two equalities are built on this: `valuesEqual` compares kinds
and payloads, `cascadeEqual` compares under the first coercion that both values survive.

A coercion hands on a payload that already is of the right kind as it stands. A payload that is
not of the type its kind demands can therefore come out of one, or fail inside it; the latter is a
`Misuse` and never happens to well-formed tokens. The payload of a number is a number or null in
every token that is scanned, computed or read from a document. What operators make of a number with
any other payload is left open, as the misuse `unmodelled`.
-/

namespace Scriptlet

/-- Why a value cannot be taken as asked. -/
inductive CoercionFault where
  | wantsNumber (got : Kind)
  | wantsTruth (got : Kind)
  | wantsText (got : Kind)
  deriving DecidableEq, Repr

/-- The wording of a refusal. -/
def CoercionFault.message : CoercionFault → String
  | wantsNumber k => "expected number, got " ++ k.label
  | wantsTruth k => "expected a value convertible to bool, got " ++ k.label
  | wantsText k => "cannot convert " ++ k.label ++ " to string"

/-- A use of plain data that its type does not allow. -/
inductive Misuse where
  /-- The length of something that has none. -/
  | noLength (d : Document)
  /-- A number was needed. -/
  | notReal (d : Document)
  /-- An operator that is not defined on these data. -/
  | noOperation (operator : Kind) (operands : List Document)
  /-- A whole number beyond the largest finite one, where a number was needed. -/
  | tooLarge
  /-- An operation of the machine that failed. -/
  | trap (t : Number.Trap)
  /-- A shown number that is not a numeral. -/
  | noDecimal (text : String)
  /-- The payload of a number that is neither a number nor null. -/
  | unmodelled (d : Document)
  deriving DecidableEq, Repr

/-- Why a coercion gives nothing. -/
inductive CoercionError where
  | refused (fault : CoercionFault)
  | misuse (m : Misuse)
  deriving DecidableEq, Repr

/-! ## What is raised -/

/-- What a failed operation of the machine raises. -/
def Number.Trap.raised : Number.Trap → Raised
  | zeroDivision => ⟨"ZeroDivisionError", "float division by zero"⟩
  | domain => ⟨"ValueError", "math domain error"⟩
  | range => ⟨"OverflowError", "math range error"⟩

/-- The message for operands that an operator is not defined on. A sum is refused in the words of
its left operand if that can be joined to something. -/
def Misuse.operationMessage (operator : Kind) (operands : List Document) : String :=
  match operator, operands with
  | .plus, [.text _, b] => "can only concatenate str (not \x22" ++ b.typeName ++ "\x22) to str"
  | .plus, [.list _, b] => "can only concatenate list (not \x22" ++ b.typeName ++ "\x22) to list"
  | k, [a, b] =>
    let types := "'" ++ a.typeName ++ "' and '" ++ b.typeName ++ "'"
    if k ∈ [.greater, .greaterEqual, .less, .lessEqual] then
      "'" ++ k.spelling ++ "' not supported between instances of " ++ types
    else "unsupported operand type(s) for " ++ k.spelling ++ ": " ++ types
  | k, ds =>
    let type := (ds.headD .null).typeName
    "bad operand type for unary " ++ k.spelling ++ ": '" ++ type ++ "'"

/-- What a misuse raises. -/
def Misuse.raised? : Misuse → Option Raised
  | noLength d => some ⟨"TypeError", "object of type '" ++ d.typeName ++ "' has no len()"⟩
  | notReal d => some ⟨"TypeError", "must be real number, not " ++ d.typeName⟩
  | noOperation operator operands => some ⟨"TypeError", operationMessage operator operands⟩
  | tooLarge => some ⟨"OverflowError", "int too large to convert to float"⟩
  | trap t => some t.raised
  | noDecimal _ => some ⟨"InvalidOperation", "[<class 'decimal.ConversionSyntax'>]"⟩
  | unmodelled _ => none

/-- What a coercion raises that gives nothing. -/
def CoercionError.raised? : CoercionError → Option Raised
  | refused fault => some ⟨"CoercionError", fault.message⟩
  | misuse m => m.raised?

/-! ## Coercions -/

/-- The misuse of data that were needed as numbers and are not, if they are all that a number can
carry. -/
def Misuse.ofOperands (m : Misuse) (ds : List Document) : Misuse :=
  match ds.find? fun d => !(d matches .number _ | .null) with
  | some d => .unmodelled d
  | none => m

namespace Token

/-- Only numbers count as numbers. -/
def toNumber (t : Token) : Except CoercionError Document :=
  if t.kind = .number then .ok t.payload else .error (.refused (.wantsNumber t.kind))

/-- Names and `none` are false, texts are true unless empty, numbers unless zero. -/
def toTruth (t : Token) : Except CoercionError Document :=
  match t.kind with
  | .identifier => .ok (.truth false)
  | .string =>
    match t.payload.length? with
    | some n => .ok (.truth (decide (0 < n)))
    | none => .error (.misuse (.noLength t.payload))
  | .number => .ok (.truth (!t.payload.same (.number 0.0)))
  | .bool => .ok t.payload
  | .kwNone => .ok (.truth false)
  | k => .error (.refused (.wantsTruth k))

/-- The printed text of a value; a name has none. -/
def toText (t : Token) : Except CoercionError Document :=
  match t.kind with
  | .string => .ok t.payload
  | .number =>
    match t.payload with
    | .number x =>
      match Number.printed? x with
      | some s => .ok (.text s)
      | none => .error (.misuse (.noDecimal (Number.Style.shown.write x)))
    | d => .error (.misuse (Misuse.ofOperands (.notReal d) [d]))
  | .bool => .ok (.text (if t.payload.truthy then "true" else "false"))
  | .kwNone => .ok (.text "none")
  | k => .error (.refused (.wantsText k))

/-- Same kind and same payload. -/
def valuesEqual (a b : Token) : Bool := a.kind == b.kind && a.payload.same b.payload

/-- The comparison of two values under a coercion, if neither is refused. The first value is
coerced first, and a refusal of it spares the second. -/
def equalUnder (coerce : Token → Except CoercionError Document) (a b : Token) :
    Except Misuse (Option Bool) :=
  match coerce a with
  | .error (.misuse m) => .error m
  | .error (.refused _) => .ok none
  | .ok x =>
    match coerce b with
    | .error (.misuse m) => .error m
    | .error (.refused _) => .ok none
    | .ok y => .ok (some (x.same y))

/-- The answer of the first of some coercions under which both values can be compared; values
that none of them takes together differ. -/
def equalUnderFirst (a b : Token) : List (Token → Except CoercionError Document) →
    Except Misuse Bool
  | [] => .ok false
  | coerce :: more =>
    match equalUnder coerce a b with
    | .error m => .error m
    | .ok (some answer) => .ok answer
    | .ok none => equalUnderFirst a b more

/-- Equality as numbers, else as truth values, else as text. -/
def cascadeEqual (a b : Token) : Except Misuse Bool :=
  equalUnderFirst a b [toNumber, toTruth, toText]

end Token

end Scriptlet
