import Scriptlet.Token.Coercion

/-!
# Operators

What operators make of their operands. An operator that cannot be applied fails with a cause; the
evaluator reports it and goes on. A `Misuse` of ill-typed payloads is kept apart from that.
-/

namespace Scriptlet

/-- Why an operator or a printing statement failed. -/
inductive Failure where
  | unaryOperand (symbol : String) (fault : CoercionFault)
  | unsupportedUnary (symbol : String)
  | sum (left right : Kind)
  | binaryOperand (symbol : String) (fault : CoercionFault)
  | unsupportedBinary (symbol : String)
  | unprintable (fault : CoercionFault)

/-- The wording of a failure. -/
def Failure.message : Failure → String
  | unaryOperand symbol fault => "unary '" ++ symbol ++ "': " ++ fault.message
  | unsupportedUnary symbol => "unsupported unary operator '" ++ symbol ++ "'"
  | sum left right => "unsupported '+' for " ++ left.label ++ " and " ++ right.label
  | binaryOperand symbol fault => "'" ++ symbol ++ "': " ++ fault.message
  | unsupportedBinary symbol => "unsupported binary operator '" ++ symbol ++ "'"
  | unprintable fault => "cannot print value: " ++ fault.message

/-- Why there is no value: a failure to report, or a misuse of ill-typed payloads. -/
inductive Refusal where
  | failure (cause : Failure)
  | misuse (m : Misuse)

/-- The refusal that comes of a coercion. -/
def Refusal.ofCoercion (wrap : CoercionFault → Failure) : CoercionError → Refusal
  | .refused fault => .failure (wrap fault)
  | .misuse m => .misuse m

/-- The settings of an evaluation. -/
structure Options where
  /-- Nothing is traced at zero or below. Stages are traced from one on, tokens and trees from two
  on, operators from three on. -/
  debugLevel : Int := 0
  /-- Values are compared under the first coercion that both survive. -/
  cascadeEquality : Bool := false
  /-- Every group has the value `none`. -/
  nullGroupings : Bool := false

/-- The equality that the settings ask for. -/
def Options.equal (o : Options) (a b : Token) : Except Misuse Bool :=
  if o.cascadeEquality then a.cascadeEqual b else .ok (a.valuesEqual b)

/-- The arithmetic operators, `+` apart. -/
def arithmetic? : Kind → Option (Float → Float → Except Number.Trap Float)
  | .minus => some fun a b => .ok (a - b)
  | .star => some fun a b => .ok (a * b)
  | .slash => some Number.quotient
  | .percent => some Number.remainder
  | .caret => some Number.power
  | _ => none

/-- The order comparisons. -/
def comparison? : Kind → Option (Float → Float → Except Number.Trap Bool)
  | .greater => some fun a b => .ok (decide (b < a))
  | .greaterEqual => some fun a b => .ok (decide (b ≤ a))
  | .less => some fun a b => .ok (decide (a < b))
  | .lessEqual => some fun a b => .ok (decide (a ≤ b))
  | _ => none

/-! ## Operations on payloads -/

/-- The negative of the payload of a number. -/
def Document.negative : Document → Except Misuse Float
  | .number x => .ok (-x)
  | d => .error (Misuse.ofOperands (.noOperation .minus [d]) [d])

/-- The sum of two data: numbers are added, texts and lists are joined. Truth values count as one
or zero, and the sum of two whole numbers is whole. -/
def Document.sum (a b : Document) : Except Misuse Document :=
  match a, b with
  | .number x, .number y => .ok (.number (x + y))
  | .text s, .text t => .ok (.text (s ++ t))
  | .list as, .list bs => .ok (.list (as ++ bs))
  | .number x, d =>
    match d.whole? with
    | none => .error (.noOperation .plus [a, b])
    | some n =>
      match Number.ofInt? n with
      | some y => .ok (.number (x + y))
      | none => .error .tooLarge
  | d, .number y =>
    match d.whole? with
    | none => .error (.noOperation .plus [a, b])
    | some n =>
      match Number.ofInt? n with
      | some x => .ok (.number (x + y))
      | none => .error .tooLarge
  | d, e =>
    match d.whole?, e.whole? with
    | some m, some n => .ok (.integer (m + n))
    | _, _ => .error (.noOperation .plus [a, b])

/-- The first of two data that is no number. -/
def Document.firstNotReal : Document → Document → Document
  | .number _, b => b
  | a, _ => a

/-- What is wrong with the operands of an arithmetic operator or comparison that are not both
numbers. Remainder and power need numbers as such, and so does a division by zero. -/
def Document.operandMisuse (operator : Kind) (a b : Document) : Misuse :=
  match operator with
  | .percent | .caret => .notReal (a.firstNotReal b)
  | .slash => if b.same (.number 0.0) then .notReal a else .noOperation operator [a, b]
  | _ => .noOperation operator [a, b]

/-- An operation on the payloads of two numbers. -/
def Document.withNumbers {α : Type} (operator : Kind) (f : Float → Float → Except Number.Trap α)
    (a b : Document) : Except Misuse α :=
  match a, b with
  | .number x, .number y => (f x y).mapError .trap
  | _, _ => .error (Misuse.ofOperands (Document.operandMisuse operator a b) [a, b])

/-! ## Operators on values -/

/-- The value of a prefix operator. -/
def unaryValue (op x : Token) : Except Refusal Token :=
  let refuse := Refusal.ofCoercion (.unaryOperand op.symbol)
  match op.kind with
  | .minus =>
    match x.toNumber with
    | .error e => .error (refuse e)
    | .ok d => (d.negative.mapError .misuse).map .ofNumber
  | .bang | .kwNot =>
    match x.toTruth with
    | .error e => .error (refuse e)
    | .ok d => .ok (.ofTruth (!d.truthy))
  | _ => .error (.failure (.unsupportedUnary op.symbol))

/-- The sum of two numbers, or two texts joined. -/
def sumValue (x y : Token) : Except Refusal Token :=
  match x.kind, y.kind with
  | .number, .number =>
    ((Document.withNumbers .plus (fun a b => .ok (a + b)) x.payload y.payload).mapError
      .misuse).map .ofNumber
  | .string, .string => ((x.payload.sum y.payload).mapError .misuse).map (.ofPayload .string)
  | k, l => .error (.failure (.sum k l))

/-- An operation on two operands that must both be numbers; the left one is asked first. -/
def numericValue {α : Type} (op x y : Token) (f : Float → Float → Except Number.Trap α) :
    Except Refusal α :=
  let refuse := Refusal.ofCoercion (.binaryOperand op.symbol)
  match x.toNumber with
  | .error e => .error (refuse e)
  | .ok a =>
    match y.toNumber with
    | .error e => .error (refuse e)
    | .ok b => (Document.withNumbers op.kind f a b).mapError .misuse

/-- The value of a binary operator. -/
def Options.binaryValue (o : Options) (op x y : Token) : Except Refusal Token :=
  match op.kind with
  | .plus => sumValue x y
  | .equalEqual => ((o.equal x y).mapError .misuse).map fun b => .ofTruth b
  | .bangEqual => ((o.equal x y).mapError .misuse).map fun b => .ofTruth (!b)
  | k =>
    match arithmetic? k with
    | some f => (numericValue op x y f).map .ofNumber
    | none =>
      match comparison? k with
      | some f => (numericValue op x y f).map .ofTruth
      | none => .error (.failure (.unsupportedBinary op.symbol))

end Scriptlet
