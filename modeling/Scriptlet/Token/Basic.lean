import Scriptlet.Document.Compare
import Scriptlet.Token.Kind

/-!
# Tokens

A token is a classified piece of text. Literal tokens carry a payload and double as the values
that expressions evaluate to. A payload may be any plain data; it is of the type that the kind
demands in every token that is scanned or computed from such tokens (`Token.WellFormed`), but a
token that was read from a document may carry something else.
-/

namespace Scriptlet

/-- Whether a payload is of the type that a kind demands. -/
def Kind.admits : Kind → Document → Bool
  | .identifier, .text _ => true
  | .string, .text _ => true
  | .number, .number _ => true
  | .bool, .truth _ => true
  | .identifier, _ | .string, _ | .number, _ | .bool, _ => false
  | _, .null => true
  | _, _ => false

/-- A classified piece of text. The lexeme is the text it was scanned from, empty for tokens that
no text stands for. The line is for diagnostics only. -/
structure Token where
  kind : Kind
  lexeme : String := ""
  payload : Document := .null
  line : Int := 0
  deriving DecidableEq, Repr

namespace Token

/-- The payload is of the type that the kind demands. -/
def WellFormed (t : Token) : Prop := t.kind.admits t.payload = true

instance (t : Token) : Decidable t.WellFormed := inferInstanceAs (Decidable (_ = true))

/-- A token that no text stands for and that carries nothing. -/
def ofKind (k : Kind) : Token := { kind := k }

/-- A token that no text stands for, with a payload. -/
def ofPayload (k : Kind) (payload : Document) : Token := { kind := k, payload := payload }

/-- The value that is a number. -/
def ofNumber (x : Float) : Token := ofPayload .number (.number x)

/-- The value that is a text. -/
def ofText (s : String) : Token := ofPayload .string (.text s)

/-- The value that is a truth value. -/
def ofTruth (b : Bool) : Token := ofPayload .bool (.truth b)

/-- The value that is a name. -/
def ofName (s : String) : Token := ofPayload .identifier (.text s)

/-- The value of an expression that has none. -/
def nothing : Token := ofKind .kwNone

/-- The form in which traces show a token: its kind, and its payload in parentheses. -/
def inspect (t : Token) : String :=
  match t.payload with
  | .null => t.kind.name
  | payload => t.kind.name ++ "(" ++ payload.inspect ++ ")"

/-- The text of an operator: its lexeme, or the spelling of its kind if it has none. -/
def symbol (t : Token) : String := if t.lexeme = "" then t.kind.spelling else t.lexeme

/-- Equality of kind, lexeme and payload; the line does not count. -/
def same (a b : Token) : Bool :=
  a.kind == b.kind && a.lexeme == b.lexeme && a.payload.same b.payload

end Token

end Scriptlet
