import Scriptlet.Document.Interchange
import Scriptlet.Proofs.Consumption

/-!
# Trees come back from documents

A tree that is written as a document is read back as it was, and what is read from any document is
such a tree.

* `RawToken.Exchangeable`: the payload of a number is a number or null. No other token is
  restricted, and nothing is asked of lexemes and lines.
* `Node.typed?_raw`, `Node.tokens_raw`: a tree of tokens is told by the form in which it is
  exchanged.
* `Node.ofDocument_toDocument`: a tree of such tokens comes back.
* `Node.exchangeable_of_ofDocument`: whatever is read from a document has such tokens only.
-/

namespace Scriptlet

section Except

variable {ε α β : Type}

theorem ok_bind (a : α) (f : α → Except ε β) : (Except.ok a >>= f) = f a := rfl

theorem bind_eq_ok {x : Except ε α} {f : α → Except ε β} {b : β} (h : x >>= f = .ok b) :
    ∃ a, x = .ok a ∧ f a = .ok b := by
  cases x with
  | error e => cases h
  | ok a => exact ⟨a, rfl, h⟩

theorem map_eq_ok {x : Except ε α} {f : α → β} {b : β} (h : x.map f = .ok b) :
    ∃ a, x = .ok a ∧ f a = b := by
  cases x with
  | error e => cases h
  | ok a => exact ⟨a, rfl, Except.ok.inj h⟩

end Except

/-! ## Tokens -/

/-- A payload that reading leaves as it is. -/
def Kind.Keeps (k : Kind) (d : Document) : Prop := k = .number → d = .null ∨ ∃ x, d = .number x

theorem Kind.ofDocument_name (k : Kind) : Kind.ofDocument (.text k.name) = .ok k := by
  have hname : ∀ k ∈ Kind.all, Kind.ofName? k.name = some k := by decide +kernel
  simp only [Kind.ofDocument, hname k k.mem_all]

theorem Kind.Keeps.payloadOf {k : Kind} {d : Document} (h : k.Keeps d) :
    RawToken.payloadOf k d = .ok d := by
  rw [RawToken.payloadOf.eq_def]
  split
  · rfl
  · obtain hnull | ⟨x, rfl⟩ := h rfl
    · contradiction
    · rfl
  · rfl

theorem Kind.keeps_of_payloadOf {k : Kind} {d e : Document} (h : RawToken.payloadOf k d = .ok e) :
    k.Keeps e := by
  rintro rfl
  rw [RawToken.payloadOf.eq_def] at h
  split at h
  · cases h
    exact .inl rfl
  · obtain ⟨x, -, rfl⟩ := map_eq_ok h
    exact .inr ⟨x, rfl⟩
  · contradiction

namespace RawToken

/-- A token that documents can hold. -/
def Exchangeable (t : RawToken) : Prop := t.kind.Keeps t.payload

theorem ofDocument_toDocument {t : RawToken} (h : t.Exchangeable) :
    RawToken.ofDocument t.toDocument = .ok t := by
  rw [toDocument, RawToken.ofDocument, ofFields]
  simp only [List.lookup_cons, String.reduceBEq, Option.getD_some, Kind.ofDocument_name, ok_bind,
    Kind.Keeps.payloadOf h]
  rfl

theorem exchangeable_of_ofFields {fields : List (String × Document)} {t : RawToken}
    (h : ofFields fields = .ok t) : t.Exchangeable := by
  rw [ofFields] at h
  split at h
  · obtain ⟨kind, -, h⟩ := bind_eq_ok h
    obtain ⟨payload, hpayload, h⟩ := bind_eq_ok h
    cases h
    exact Kind.keeps_of_payloadOf hpayload
  · cases h

theorem exchangeable_of_ofDocument {d : Document} {t : RawToken}
    (h : RawToken.ofDocument d = .ok t) : t.Exchangeable := by
  cases d with
  | record fields => exact exchangeable_of_ofFields h
  | _ => cases h

end RawToken

/-! ## Trees -/

namespace Node

/-- The forms in which trees are exchanged. -/
def rawAll (ns : List Node) : List (Node RawToken) :=
  Id.run (traverseAll (fun t => pure t.raw) ns)

mutual

/-- A tree is told by the form in which it is exchanged. -/
theorem typed?_raw : ∀ n : Node, n.raw.typed? = some n
  | .absent | .token _ | .literal _ => rfl
  | .list items => by
    change (list <$> traverseAll RawToken.typed? (rawAll items)) = _
    rw [typedAll_rawAll items]
    rfl
  | .unary op x => by
    change (unary <$> some op <*> x.raw.typed?) = _
    rw [typed?_raw x]
    rfl
  | .binary x op y => by
    change (binary <$> x.raw.typed? <*> some op <*> y.raw.typed?) = _
    rw [typed?_raw x, typed?_raw y]
    rfl
  | .grouping a x b => by
    change (grouping <$> some a <*> x.raw.typed? <*> some b) = _
    rw [typed?_raw x]
    rfl
  | .print x => by
    change (print <$> x.raw.typed?) = _
    rw [typed?_raw x]
    rfl
  | .expression x => by
    change (expression <$> x.raw.typed?) = _
    rw [typed?_raw x]
    rfl

theorem typedAll_rawAll : ∀ ns : List Node, traverseAll RawToken.typed? (rawAll ns) = some ns
  | [] => rfl
  | n :: ns => by
    change ((· :: ·) <$> n.raw.typed? <*> traverseAll RawToken.typed? (rawAll ns)) = _
    rw [typed?_raw n, typedAll_rawAll ns]
    rfl

end

mutual

theorem tokens_raw : ∀ n : Node, n.raw.tokens = n.tokens.map Token.raw
  | .absent | .token _ | .literal _ => rfl
  | .list items => tokensOf_rawAll items
  | .unary op x => congrArg (op.raw :: ·) (tokens_raw x)
  | .binary x op y => by
    change x.raw.tokens ++ op.raw :: y.raw.tokens = _
    rw [tokens_raw x, tokens_raw y, tokens, List.map_append, List.map_cons]
  | .grouping a x b => by
    change a.raw :: (x.raw.tokens ++ [b.raw]) = _
    rw [tokens_raw x, tokens, List.map_cons, List.map_append, List.map_singleton]
  | .print x => tokens_raw x
  | .expression x => tokens_raw x

theorem tokensOf_rawAll : ∀ ns : List Node, tokensOf (rawAll ns) = (tokensOf ns).map Token.raw
  | [] => rfl
  | n :: ns => by
    change n.raw.tokens ++ tokensOf (rawAll ns) = _
    rw [tokens_raw n, tokensOf_rawAll ns, tokensOf, List.map_append]

end

mutual

/-- A tree of such tokens is read back as it was written. -/
theorem ofDocument_toDocument : ∀ n : Node RawToken, (∀ t ∈ n.tokens, t.Exchangeable) →
    Node.ofDocument n.toDocument = .ok n
  | .absent, _ => by rw [toDocument, Node.ofDocument]
  | .list items, h => by
    rw [toDocument, Node.ofDocument, ofDocuments_toDocuments items h]
    rfl
  | .token t, h => by
    have ht := RawToken.ofDocument_toDocument (h t (by simp [tokens]))
    rw [toDocument, RawToken.toDocument, Node.ofDocument]
    change (RawToken.ofDocument t.toDocument >>= fun t => pure (token t)) = Except.ok _
    rw [ht, ok_bind]
    rfl
  | .print e, h => by
    rw [toDocument, Node.ofDocument]
    change (Node.ofDocument e.toDocument >>= fun e => pure (print e)) = Except.ok _
    rw [ofDocument_toDocument e h]
    rfl
  | .expression e, h => by
    rw [toDocument, Node.ofDocument]
    change (Node.ofDocument e.toDocument >>= fun e => pure (expression e)) = Except.ok _
    rw [ofDocument_toDocument e h]
    rfl
  | .literal t, h => by
    rw [toDocument, Node.ofDocument]
    change (RawToken.ofDocument t.toDocument >>= fun t => pure (literal t)) = Except.ok _
    rw [RawToken.ofDocument_toDocument (h t (by simp [tokens]))]
    rfl
  | .unary op x, h => by
    rw [toDocument, Node.ofDocument]
    change (RawToken.ofDocument op.toDocument >>= fun op => Node.ofDocument x.toDocument >>=
      fun x => pure (unary op x)) = Except.ok _
    rw [RawToken.ofDocument_toDocument (h op (by simp [tokens])), ok_bind,
      ofDocument_toDocument x fun t ht => h t (by simp [tokens, ht])]
    rfl
  | .binary x op y, h => by
    rw [toDocument, Node.ofDocument]
    change (Node.ofDocument x.toDocument >>= fun x => RawToken.ofDocument op.toDocument >>=
      fun op => Node.ofDocument y.toDocument >>= fun y => pure (binary x op y)) = Except.ok _
    rw [ofDocument_toDocument x fun t ht => h t (by simp [tokens, ht]), ok_bind,
      RawToken.ofDocument_toDocument (h op (by simp [tokens])), ok_bind,
      ofDocument_toDocument y fun t ht => h t (by simp [tokens, ht])]
    rfl
  | .grouping a x b, h => by
    rw [toDocument, Node.ofDocument]
    change (RawToken.ofDocument a.toDocument >>= fun a => Node.ofDocument x.toDocument >>=
      fun x => RawToken.ofDocument b.toDocument >>= fun b => pure (grouping a x b)) = Except.ok _
    rw [RawToken.ofDocument_toDocument (h a (by simp [tokens])), ok_bind,
      ofDocument_toDocument x fun t ht => h t (by simp [tokens, ht]), ok_bind,
      RawToken.ofDocument_toDocument (h b (by simp [tokens]))]
    rfl

theorem ofDocuments_toDocuments : ∀ ns : List (Node RawToken), (∀ t ∈ tokensOf ns, t.Exchangeable) →
    Node.ofDocuments (toDocuments ns) = .ok ns
  | [], _ => by rw [toDocuments, Node.ofDocuments]
  | n :: ns, h => by
    rw [toDocuments, Node.ofDocuments,
      ofDocument_toDocument n fun t ht => h t (by simp [tokensOf, ht]), ok_bind,
      ofDocuments_toDocuments ns fun t ht => h t (by simp [tokensOf, ht])]
    rfl

end

/-- A record is read from smaller documents, and its tokens are theirs. -/
theorem exchangeable_of_record {fields : List (String × Document)} {n : Node RawToken}
    (ih : ∀ d : Document, sizeOf d < sizeOf fields → ∀ m : Node RawToken,
      Node.ofDocument d = .ok m → ∀ t ∈ m.tokens, t.Exchangeable)
    (h : Node.ofDocument (.record fields) = .ok n) : ∀ t ∈ n.tokens, t.Exchangeable := by
  have htoken {n : Node RawToken}
      (h : (RawToken.ofFields fields >>= fun t => pure (token t)) = .ok n) :
      ∀ t ∈ n.tokens, t.Exchangeable := by
    obtain ⟨t, ht, h⟩ := bind_eq_ok h
    cases h
    simpa only [tokens, List.forall_mem_singleton] using RawToken.exchangeable_of_ofFields ht
  rw [Node.ofDocument] at h
  split at h
  · split at h
    · exact htoken h
    · cases h
  · split at h
    · exact htoken h
    · cases h
  · obtain ⟨⟨e, he⟩, -, h⟩ := bind_eq_ok h
    obtain ⟨x, hx, h⟩ := bind_eq_ok h
    cases h
    exact ih e he x hx
  · obtain ⟨⟨e, he⟩, -, h⟩ := bind_eq_ok h
    obtain ⟨x, hx, h⟩ := bind_eq_ok h
    cases h
    exact ih e he x hx
  · obtain ⟨⟨d, _⟩, -, h⟩ := bind_eq_ok h
    obtain ⟨t, ht, h⟩ := bind_eq_ok h
    cases h
    simpa only [tokens, List.forall_mem_singleton] using RawToken.exchangeable_of_ofDocument ht
  · obtain ⟨⟨d, _⟩, -, h⟩ := bind_eq_ok h
    obtain ⟨op, hop, h⟩ := bind_eq_ok h
    obtain ⟨⟨e, he⟩, -, h⟩ := bind_eq_ok h
    obtain ⟨x, hx, h⟩ := bind_eq_ok h
    cases h
    simp only [tokens, List.forall_mem_cons]
    exact ⟨RawToken.exchangeable_of_ofDocument hop, ih e he x hx⟩
  · obtain ⟨⟨d, hd⟩, -, h⟩ := bind_eq_ok h
    obtain ⟨x, hx, h⟩ := bind_eq_ok h
    obtain ⟨⟨e, _⟩, -, h⟩ := bind_eq_ok h
    obtain ⟨op, hop, h⟩ := bind_eq_ok h
    obtain ⟨⟨f, hf⟩, -, h⟩ := bind_eq_ok h
    obtain ⟨y, hy, h⟩ := bind_eq_ok h
    cases h
    simp only [tokens, List.forall_mem_append, List.forall_mem_cons]
    exact ⟨ih d hd x hx, RawToken.exchangeable_of_ofDocument hop, ih f hf y hy⟩
  · obtain ⟨⟨d, _⟩, -, h⟩ := bind_eq_ok h
    obtain ⟨opening, hopening, h⟩ := bind_eq_ok h
    obtain ⟨⟨e, he⟩, -, h⟩ := bind_eq_ok h
    obtain ⟨x, hx, h⟩ := bind_eq_ok h
    obtain ⟨⟨f, _⟩, -, h⟩ := bind_eq_ok h
    obtain ⟨closing, hclosing, h⟩ := bind_eq_ok h
    cases h
    simp only [tokens, List.forall_mem_append, List.forall_mem_cons]
    exact ⟨RawToken.exchangeable_of_ofDocument hopening, ih e he x hx,
      RawToken.exchangeable_of_ofDocument hclosing, List.forall_mem_nil _⟩
  · cases h

mutual

/-- Whatever is read has such tokens only, for the payloads of numbers are read as numbers. -/
theorem exchangeable_of_ofDocument : ∀ (d : Document) (n : Node RawToken),
    Node.ofDocument d = .ok n → ∀ t ∈ n.tokens, t.Exchangeable
  | .null, n, h => by
    rw [Node.ofDocument] at h
    cases h
    exact List.forall_mem_nil _
  | .list items, n, h => by
    rw [Node.ofDocument] at h
    obtain ⟨ns, hns, rfl⟩ := map_eq_ok h
    exact exchangeable_of_ofDocuments items ns hns
  | .record fields, n, h =>
    exchangeable_of_record (fun d _ m hm => exchangeable_of_ofDocument d m hm) h
  | .truth _, n, h | .integer _, n, h | .number _, n, h | .text _, n, h => by
    simp [Node.ofDocument] at h

theorem exchangeable_of_ofDocuments : ∀ (ds : List Document) (ns : List (Node RawToken)),
    Node.ofDocuments ds = .ok ns → ∀ t ∈ tokensOf ns, t.Exchangeable
  | [], ns, h => by
    rw [Node.ofDocuments] at h
    cases h
    exact List.forall_mem_nil _
  | d :: ds, ns, h => by
    rw [Node.ofDocuments] at h
    obtain ⟨m, hm, h⟩ := bind_eq_ok h
    obtain ⟨ms, hms, h⟩ := bind_eq_ok h
    cases h
    rw [tokensOf, List.forall_mem_append]
    exact ⟨exchangeable_of_ofDocument d m hm, exchangeable_of_ofDocuments ds ms hms⟩

end

/-- The trees that come back are those of such tokens. -/
theorem ofDocument_toDocument_iff (n : Node RawToken) :
    Node.ofDocument n.toDocument = .ok n ↔ ∀ t ∈ n.tokens, t.Exchangeable :=
  ⟨exchangeable_of_ofDocument _ n, ofDocument_toDocument n⟩

end Node

/-- A document as it is written again after it was read. Fields that were ignored are left out, and
those that were left out are put in. -/
def Document.normalized (d : Document) : Except ReadFault Document :=
  (Node.ofDocument d).map Node.toDocument

/-- **Documents hold trees.** A tree, of any nesting and with anything for lexemes and lines, comes
back from its document exactly as it was if and only if the payload of each number in it is a number
or null. In particular a tree of tokens does, and it is told by the form in which it is exchanged.
A tree that was read from a document, whatever that is, is such a tree. So a document that was read
and written again does not change any more. -/
theorem documents_hold_trees :
    (∀ n : Node RawToken, Node.ofDocument n.toDocument = .ok n ↔ ∀ t ∈ n.tokens, t.Exchangeable) ∧
    (∀ n : Node, n.raw.typed? = some n ∧
      (Node.ofDocument n.raw.toDocument = .ok n.raw ↔ ∀ t ∈ n.tokens, t.kind.Keeps t.payload)) ∧
    (∀ (d : Document) (n : Node RawToken), Node.ofDocument d = .ok n →
      Node.ofDocument n.toDocument = .ok n) ∧
    ∀ d e : Document, d.normalized = .ok e → e.normalized = .ok e := by
  have hagain (d : Document) (n : Node RawToken) (h : Node.ofDocument d = .ok n) :
      Node.ofDocument n.toDocument = .ok n :=
    n.ofDocument_toDocument (Node.exchangeable_of_ofDocument d n h)
  refine ⟨Node.ofDocument_toDocument_iff, fun n => ⟨n.typed?_raw, ?_⟩, hagain, fun d e h => ?_⟩
  · rw [Node.ofDocument_toDocument_iff, Node.tokens_raw, List.forall_mem_map]
    rfl
  · obtain ⟨n, hn, rfl⟩ := map_eq_ok h
    rw [Document.normalized, hagain d n hn]
    rfl

/-- A list with nothing in it, with a statement in the place of an operand, and with a number that
has no payload. The second document leaves out fields and has one that is not asked for, and its
line is no line. -/
theorem documents_hold_trees_sample :
    let n : Node := .list [.absent, .unary ⟨.minus, "-", .null, 7⟩ (.print (.list [])),
      .grouping ⟨.comma, "", .text "a", -1⟩ (.token ⟨.number, "x", .null, 2⟩) (.ofNumber (-0.0))]
    let d : Document := .record [("type", .text "Literal"), ("extra", .null),
      ("token", .record [("kind", .text "NUMBER"), ("value", .truth true), ("line", .number 1.5)])]
    (n.raw.typed? = some n ∧ Node.ofDocument n.raw.toDocument = .ok n.raw) ∧
      ∃ e, d.normalized = .ok e ∧ e ≠ d ∧ e.normalized = .ok e := by
  intro n d
  obtain ⟨-, htyped, -, hnormalized⟩ := documents_hold_trees
  have hd : d.normalized = .ok (Node.literal
      { kind := .number, payload := .number 1.0, line := .number 1.5 : RawToken }).toDocument := by
    rw [Document.normalized, Node.ofDocument]
    rfl
  refine ⟨⟨(htyped n).1, (htyped n).2.mpr ?_⟩, _, hd, ?_, hnormalized _ _ hd⟩
  · simp [n, Node.tokens, Node.tokensOf, Kind.Keeps, Token.ofNumber, Token.ofPayload]
  · simp [d, Node.toDocument]

end Scriptlet
