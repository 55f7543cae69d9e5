import Scriptlet.Document.Basic
import Scriptlet.Number.Numeral
import Scriptlet.Tree.Basic

/-!
# Trees as documents

`Node.toDocument` writes a tree and `Node.ofDocument` reads one. A node is a record with a `type`
field, a token a record with a `kind` field, a list is a list, and null stands for no node. Fields
that are not asked for are ignored, and a token may leave out all but its kind.

Nothing is asked of the lexeme and the line of a token, so documents hold trees over `RawToken`.
`Node.raw` is the tree that a tree of tokens is exchanged as, and `Node.typed?` leads back.
-/

namespace Scriptlet

/-! ## Tokens in documents -/

/-- A token as documents hold it. The lexeme and the line are whatever stands there. -/
structure RawToken where
  kind : Kind
  lexeme : Document := .text ""
  payload : Document := .null
  line : Document := .integer 0
  deriving DecidableEq, Repr

/-- The form in which a token is exchanged. -/
def Token.raw (t : Token) : RawToken := ⟨t.kind, .text t.lexeme, t.payload, .integer t.line⟩

/-- The token that is exchanged in this form: its lexeme is a text and its line a whole number. -/
def RawToken.typed? (t : RawToken) : Option Token :=
  match t.lexeme, t.line with
  | .text lexeme, .integer line => some ⟨t.kind, lexeme, t.payload, line⟩
  | _, _ => none

/-- The form in which a tree is exchanged. -/
def Node.raw (n : Node) : Node RawToken := Id.run (n.traverse fun t => pure t.raw)

/-- The tree that is exchanged in this form. -/
def Node.typed? (n : Node RawToken) : Option Node := n.traverse RawToken.typed?

/-! ## Faults -/

/-- What a document was to be where it is of another type. -/
inductive Role where
  | number
  | token
  | kindName
  deriving DecidableEq, Repr

/-- Why a document is no tree. -/
inductive ReadFault where
  /-- Neither null nor a list nor a record. -/
  | notANode (got : Document)
  | missingField (name : String)
  | unknownKind (name : Document)
  | unknownType (name : Option Document)
  | notANumeral (s : String)
  /-- A whole number beyond the largest finite one. -/
  | tooLarge
  | wrongType (role : Role) (got : Document)

/-- What a fault raises. -/
def ReadFault.raised : ReadFault → Raised
  | notANode d => ⟨"TypeError", "Invalid AST object: " ++ d.inspect⟩
  | missingField name => ⟨"KeyError", Text.quoted name⟩
  | unknownKind d => ⟨"KeyError", d.inspect⟩
  | unknownType d => ⟨"ValueError", "Unknown AST node type: " ++ (d.getD .null).display⟩
  | notANumeral s => ⟨"ValueError", "could not convert string to float: " ++ Text.quoted s⟩
  | tooLarge => ⟨"OverflowError", "int too large to convert to float"⟩
  | wrongType .number d =>
    ⟨"TypeError", "float() argument must be a string or a real number, not '" ++ d.typeName ++ "'"⟩
  | wrongType .token (.list _) => ⟨"TypeError", "list indices must be integers or slices, not str"⟩
  | wrongType .token (.text _) => ⟨"TypeError", "string indices must be integers, not 'str'"⟩
  | wrongType .token d => ⟨"TypeError", "'" ++ d.typeName ++ "' object is not subscriptable"⟩
  | wrongType .kindName d => ⟨"TypeError", "unhashable type: '" ++ d.typeName ++ "'"⟩

/-! ## Writing -/

/-- A token as a document. -/
def RawToken.toDocument (t : RawToken) : Document :=
  .record [("kind", .text t.kind.name), ("lexeme", t.lexeme), ("value", t.payload),
    ("line", t.line)]

namespace Node

mutual

/-- A tree as a document. -/
def toDocument : Node RawToken → Document
  | absent => .null
  | list items => .list (toDocuments items)
  | token t => t.toDocument
  | print e => .record [("type", .text "Print"), ("expression", e.toDocument)]
  | expression e => .record [("type", .text "ExprStmt"), ("expression", e.toDocument)]
  | literal t => .record [("type", .text "Literal"), ("token", t.toDocument)]
  | unary op x =>
    .record [("type", .text "Unary"), ("operator", op.toDocument), ("operand", x.toDocument)]
  | binary x op y =>
    .record [("type", .text "Binary"), ("left", x.toDocument), ("operator", op.toDocument),
      ("right", y.toDocument)]
  | grouping a x b =>
    .record [("type", .text "Grouping"), ("opening", a.toDocument), ("expression", x.toDocument),
      ("closing", b.toDocument)]

/-- A list of trees as documents. -/
def toDocuments : List (Node RawToken) → List Document
  | [] => []
  | n :: ns => n.toDocument :: toDocuments ns

end

end Node

/-! ## Reading -/

/-- The number that a document denotes: a number, a numeral, or a truth value as one or zero. -/
def Document.toNumber : Document → Except ReadFault Float
  | .number x => .ok x
  | .truth b => .ok (if b then 1.0 else 0.0)
  | .integer n =>
    match Number.ofInt? n with
    | some x => .ok x
    | none => .error .tooLarge
  | .text s =>
    match Number.read? s with
    | some x => .ok x
    | none => .error (.notANumeral s)
  | d => .error (.wrongType .number d)

/-- The payload of a token of the given kind. The payload of a number is read as one unless it is
null; any other is kept as it is. -/
def RawToken.payloadOf (kind : Kind) (d : Document) : Except ReadFault Document :=
  match kind, d with
  | .number, .null => .ok .null
  | .number, d => d.toNumber.map .number
  | _, d => .ok d

/-- The kind that a document names. -/
def Kind.ofDocument (d : Document) : Except ReadFault Kind :=
  match d with
  | .text s =>
    match Kind.ofName? s with
    | some k => .ok k
    | none => .error (.unknownKind d)
  | .list _ | .record _ => .error (.wrongType .kindName d)
  | _ => .error (.unknownKind d)

/-- The token that the fields of a record describe. -/
def RawToken.ofFields (fields : List (String × Document)) : Except ReadFault RawToken := do
  let kind ←
    match fields.lookup "kind" with
    | some d => Kind.ofDocument d
    | none => .error (.missingField "kind")
  let payload ← RawToken.payloadOf kind ((fields.lookup "value").getD .null)
  return { kind := kind, lexeme := (fields.lookup "lexeme").getD (.text ""), payload := payload,
           line := (fields.lookup "line").getD (.integer 0) }

/-- The token that a document describes. -/
def RawToken.ofDocument : Document → Except ReadFault RawToken
  | .record fields => RawToken.ofFields fields
  | d => .error (.wrongType .token d)

theorem Document.sizeOf_lt_of_lookup {fields : List (String × Document)} {name : String}
    {d : Document} (h : fields.lookup name = some d) : sizeOf d < sizeOf fields := by
  induction fields with
  | nil => simp at h
  | cons field fields ih =>
    obtain ⟨key, value⟩ := field
    rw [List.lookup_cons] at h
    split at h
    · cases h
      simp only [List.cons.sizeOf_spec, Prod.mk.sizeOf_spec]
      omega
    · have := ih h
      simp only [List.cons.sizeOf_spec]
      omega

/-- A field of a record, which is smaller than the record. -/
def Document.field (fields : List (String × Document)) (name : String) :
    Except ReadFault { d : Document // sizeOf d < sizeOf fields } :=
  match h : fields.lookup name with
  | some d => .ok ⟨d, Document.sizeOf_lt_of_lookup h⟩
  | none => .error (.missingField name)

mutual

/-- The tree that a document describes. Fields are read in the order in which trees are written,
and the first fault counts. -/
def Node.ofDocument : Document → Except ReadFault (Node RawToken)
  | .null => .ok .absent
  | .list items => (Node.ofDocuments items).map .list
  | .record fields => do
    match fields.lookup "type" with
    | none | some .null =>
      if (fields.lookup "kind").isSome then return .token (← RawToken.ofFields fields)
      else throw (.unknownType none)
    | some (.text "Print") =>
      let ⟨e, _⟩ ← Document.field fields "expression"
      return .print (← Node.ofDocument e)
    | some (.text "ExprStmt") =>
      let ⟨e, _⟩ ← Document.field fields "expression"
      return .expression (← Node.ofDocument e)
    | some (.text "Literal") =>
      let ⟨t, _⟩ ← Document.field fields "token"
      return .literal (← RawToken.ofDocument t)
    | some (.text "Unary") =>
      let ⟨f, _⟩ ← Document.field fields "operator"
      let operator ← RawToken.ofDocument f
      let ⟨x, _⟩ ← Document.field fields "operand"
      return .unary operator (← Node.ofDocument x)
    | some (.text "Binary") =>
      let ⟨x, _⟩ ← Document.field fields "left"
      let left ← Node.ofDocument x
      let ⟨f, _⟩ ← Document.field fields "operator"
      let operator ← RawToken.ofDocument f
      let ⟨y, _⟩ ← Document.field fields "right"
      return .binary left operator (← Node.ofDocument y)
    | some (.text "Grouping") =>
      let ⟨a, _⟩ ← Document.field fields "opening"
      let opening ← RawToken.ofDocument a
      let ⟨x, _⟩ ← Document.field fields "expression"
      let inner ← Node.ofDocument x
      let ⟨b, _⟩ ← Document.field fields "closing"
      return .grouping opening inner (← RawToken.ofDocument b)
    | some other => throw (.unknownType (some other))
  | d => .error (.notANode d)
termination_by d => sizeOf d

/-- The trees that the items of a list describe. -/
def Node.ofDocuments : List Document → Except ReadFault (List (Node RawToken))
  | [] => .ok []
  | d :: ds => do
    let n ← Node.ofDocument d
    return n :: (← Node.ofDocuments ds)
termination_by ds => sizeOf ds

end

mutual

/-- The first part of a document that is no tree as it stands. Null is one, and so is a list of
such documents. -/
def Document.foreignPart : Document → Option Document
  | .null => none
  | .list items => Document.foreignPartOf items
  | d => some d

/-- The first part of a list's items that is no tree as it stands. -/
def Document.foreignPartOf : List Document → Option Document
  | [] => none
  | d :: ds => (Document.foreignPart d).or (Document.foreignPartOf ds)

end

/-- What a document raises that is to be written as a tree and is none. -/
def Document.unsupported (d : Document) : Raised :=
  ⟨"TypeError", "Unsupported node for serialization: " ++ d.typeName⟩

end Scriptlet
