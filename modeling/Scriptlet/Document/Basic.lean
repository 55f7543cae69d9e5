import Scriptlet.Number.Style
import Scriptlet.Text.Quoted

/-!
# Documents

Plain data as JSON has it, with whole numbers apart from fractional ones and with the fields of a
record in order. Tokens carry such data, trees are exchanged as documents, and traces show them in
JSON text.
-/

namespace Scriptlet

/-- Plain data. -/
inductive Document where
  | null
  | truth (b : Bool)
  | integer (n : Int)
  | number (x : Float)
  | text (s : String)
  | list (items : List Document)
  | record (fields : List (String × Document))
  deriving Repr

namespace Document

/-! ## Identity

Two documents are identical if they are built alike; numbers are told apart by their bits. -/

mutual

/-- Decides identity of documents. -/
def decEq : (a b : Document) → Decidable (a = b)
  | null, null => .isTrue rfl
  | truth a, truth b => if h : a = b then .isTrue (by rw [h]) else .isFalse (by simp [h])
  | integer a, integer b => if h : a = b then .isTrue (by rw [h]) else .isFalse (by simp [h])
  | number a, number b => if h : a = b then .isTrue (by rw [h]) else .isFalse (by simp [h])
  | text a, text b => if h : a = b then .isTrue (by rw [h]) else .isFalse (by simp [h])
  | list a, list b =>
    match decEqItems a b with
    | .isTrue h => .isTrue (by rw [h])
    | .isFalse h => .isFalse (by simp [h])
  | record a, record b =>
    match decEqFields a b with
    | .isTrue h => .isTrue (by rw [h])
    | .isFalse h => .isFalse (by simp [h])
  | null, truth _ | null, integer _ | null, number _ | null, text _ | null, list _
  | null, record _ | truth _, null | truth _, integer _ | truth _, number _ | truth _, text _
  | truth _, list _ | truth _, record _ | integer _, null | integer _, truth _
  | integer _, number _ | integer _, text _ | integer _, list _ | integer _, record _
  | number _, null | number _, truth _ | number _, integer _ | number _, text _
  | number _, list _ | number _, record _ | text _, null | text _, truth _ | text _, integer _
  | text _, number _ | text _, list _ | text _, record _ | list _, null | list _, truth _
  | list _, integer _ | list _, number _ | list _, text _ | list _, record _ | record _, null
  | record _, truth _ | record _, integer _ | record _, number _ | record _, text _
  | record _, list _ => .isFalse nofun

/-- Decides identity of lists of documents. -/
def decEqItems : (as bs : List Document) → Decidable (as = bs)
  | [], [] => .isTrue rfl
  | [], _ :: _ | _ :: _, [] => .isFalse nofun
  | a :: as, b :: bs =>
    match decEq a b with
    | .isFalse h => .isFalse (by simp [h])
    | .isTrue h =>
      match decEqItems as bs with
      | .isTrue h' => .isTrue (by rw [h, h'])
      | .isFalse h' => .isFalse (by simp [h'])

/-- Decides identity of lists of fields. -/
def decEqFields : (as bs : List (String × Document)) → Decidable (as = bs)
  | [], [] => .isTrue rfl
  | [], _ :: _ | _ :: _, [] => .isFalse nofun
  | (m, a) :: as, (n, b) :: bs =>
    if hn : m = n then
      match decEq a b with
      | .isFalse h => .isFalse (by simp [h])
      | .isTrue h =>
        match decEqFields as bs with
        | .isTrue h' => .isTrue (by rw [hn, h, h'])
        | .isFalse h' => .isFalse (by simp [h'])
    else .isFalse (by simp [hn])

end

instance : DecidableEq Document := decEq

/-! ## JSON text -/

/-- How numbers stand in JSON text. -/
def jsonNumberStyle : Number.Style := ⟨some (-4, 16), true, "Infinity", "NaN"⟩

/-- A code unit as `\uNNNN`. -/
def escapeUnit (n : Nat) : List Char := '\\' :: 'u' :: Text.hexPadded 4 n

/-- A character in a JSON string, which holds plain printable characters only. A code point
beyond sixteen bits is written as a surrogate pair. -/
def jsonChar (c : Char) : List Char :=
  if c = '\x22' then ['\\', '\x22']
  else if c = '\\' then ['\\', '\\']
  else if c = '\n' then ['\\', 'n']
  else if c = '\r' then ['\\', 'r']
  else if c = '\t' then ['\\', 't']
  else if c = '\x0c' then ['\\', 'f']
  else if c = '\x08' then ['\\', 'b']
  else if 0x20 ≤ c.toNat ∧ c.toNat < 0x7F then [c]
  else if c.toNat < 0x10000 then escapeUnit c.toNat
  else
    let n := c.toNat - 0x10000
    escapeUnit (0xD800 + n / 0x400) ++ escapeUnit (0xDC00 + n % 0x400)

/-- A JSON string. -/
def jsonString (s : String) : String :=
  String.ofList ('\x22' :: s.toList.flatMap jsonChar ++ ['\x22'])

mutual

/-- Appends the JSON text of a document. -/
def appendJson (acc : String) : Document → String
  | null => acc ++ "null"
  | truth b => acc ++ (if b then "true" else "false")
  | integer n => acc ++ toString n
  | number x => acc ++ jsonNumberStyle.write x
  | text s => acc ++ jsonString s
  | list items => appendItems (acc ++ "[") items ++ "]"
  | record fields => appendFields (acc ++ "\x7b") fields ++ "\x7d"

/-- Appends the items of a list with commas between them. -/
def appendItems (acc : String) : List Document → String
  | [] => acc
  | [d] => appendJson acc d
  | d :: e :: more => appendItems (appendJson acc d ++ ", ") (e :: more)

/-- Appends the fields of a record with commas between them. -/
def appendFields (acc : String) : List (String × Document) → String
  | [] => acc
  | [(name, d)] => appendJson (acc ++ jsonString name ++ ": ") d
  | (name, d) :: field :: more =>
    appendFields (appendJson (acc ++ jsonString name ++ ": ") d ++ ", ") (field :: more)

end

/-- The JSON text of a document. -/
def json (d : Document) : String := appendJson "" d

/-! ## Documents in messages -/

mutual

/-- The form in which messages show a document. -/
def inspect : Document → String
  | null => "None"
  | truth b => if b then "True" else "False"
  | integer n => toString n
  | number x => Number.Style.shown.write x
  | text s => Text.quoted s
  | list items => "[" ++ ", ".intercalate (inspectItems items) ++ "]"
  | record fields => "\x7b" ++ ", ".intercalate (inspectFields fields) ++ "\x7d"

/-- The items of a list, each as messages show it. -/
def inspectItems : List Document → List String
  | [] => []
  | d :: ds => inspect d :: inspectItems ds

/-- The fields of a record, each as messages show it. -/
def inspectFields : List (String × Document) → List String
  | [] => []
  | (name, d) :: fields => (Text.quoted name ++ ": " ++ inspect d) :: inspectFields fields

end

/-- As `inspect`, but a text stands without quotes. -/
def display : Document → String
  | text s => s
  | d => d.inspect

/-- The name of the type of a document. -/
def typeName : Document → String
  | null => "NoneType"
  | truth _ => "bool"
  | integer _ => "int"
  | number _ => "float"
  | text _ => "str"
  | list _ => "list"
  | record _ => "dict"

end Document

/-- What is raised where there is no result: a name and a message. -/
structure Raised where
  name : String
  message : String
  deriving DecidableEq, Repr

end Scriptlet
