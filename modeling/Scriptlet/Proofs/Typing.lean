import Scriptlet.Diagnostic
import Scriptlet.Eval.Operator
import Scriptlet.Proofs.FixedNotation
import Scriptlet.Scan.Cursor
import Scriptlet.Tree.Grammar

/-!
# Operators on well-formed values

* `Coerced`: a coercion gives a datum of the type that it is for, or refuses. On well-formed values,
  every coercion does (`WellFormed.coerced_toNumber`, `coerced_toTruth`, `coerced_toText`).
* `arithmetic?_total`, `comparison?_total`: operations on numbers give a result for all numbers,
  those included at which the machine fails.
* `Regular`: an operator gives a well-formed value, or fails over its operands.
* `regular_unaryValue`, `regular_binaryValue`: the operators of the grammar are regular on
  well-formed values, whatever the settings.
* `isUnsupported`: messages that blame an operator. No failure over operands reads like that, and
  neither does anything that is wrong with a source or its tokens.
-/

namespace Scriptlet

/-! ## Coercions -/

/-- A datum made by `wrap`, or a refusal. -/
def Coerced {α : Type} (wrap : α → Document) (r : Except CoercionError Document) : Prop :=
  (∃ a, r = .ok (wrap a)) ∨ ∃ fault, r = .error (.refused fault)

/-- Numbers are printed. -/
theorem Token.toText_number {t : Token} {x : Float} (hkind : t.kind = .number)
    (hpayload : t.payload = .number x) : t.toText = .ok (.text (Number.Style.plain.write x)) := by
  rw [Token.toText, hkind]
  dsimp only
  rw [hpayload]
  dsimp only
  rw [Number.printed?_eq]

namespace Token.WellFormed

variable {t : Token}

theorem payload_number (h : t.WellFormed) (hk : t.kind = .number) :
    ∃ x, t.payload = .number x := by
  rw [WellFormed, hk] at h
  cases hp : t.payload with
  | number x => exact ⟨x, rfl⟩
  | _ => rw [hp] at h; cases h

theorem payload_string (h : t.WellFormed) (hk : t.kind = .string) : ∃ s, t.payload = .text s := by
  rw [WellFormed, hk] at h
  cases hp : t.payload with
  | text s => exact ⟨s, rfl⟩
  | _ => rw [hp] at h; cases h

theorem payload_bool (h : t.WellFormed) (hk : t.kind = .bool) : ∃ b, t.payload = .truth b := by
  rw [WellFormed, hk] at h
  cases hp : t.payload with
  | truth b => exact ⟨b, rfl⟩
  | _ => rw [hp] at h; cases h

theorem coerced_toNumber (h : t.WellFormed) : Coerced Document.number t.toNumber := by
  unfold Token.toNumber
  split
  · rename_i hk
    obtain ⟨x, hx⟩ := h.payload_number hk
    rw [hx]
    exact .inl ⟨x, rfl⟩
  · exact .inr ⟨_, rfl⟩

theorem coerced_toTruth (h : t.WellFormed) : Coerced Document.truth t.toTruth := by
  unfold Token.toTruth
  split
  · exact .inl ⟨false, rfl⟩
  · rename_i hk
    obtain ⟨s, hs⟩ := h.payload_string hk
    rw [hs]
    exact .inl ⟨_, rfl⟩
  · exact .inl ⟨_, rfl⟩
  · rename_i hk
    obtain ⟨b, hb⟩ := h.payload_bool hk
    rw [hb]
    exact .inl ⟨b, rfl⟩
  · exact .inl ⟨false, rfl⟩
  · exact .inr ⟨_, rfl⟩

theorem coerced_toText (h : t.WellFormed) : Coerced Document.text t.toText := by
  by_cases hnumber : t.kind = .number
  · obtain ⟨x, hx⟩ := h.payload_number hnumber
    exact .inl ⟨_, toText_number hnumber hx⟩
  · unfold Token.toText
    split
    · rename_i hk
      obtain ⟨s, hs⟩ := h.payload_string hk
      rw [hs]
      exact .inl ⟨s, rfl⟩
    · exact absurd ‹_› hnumber
    · exact .inl ⟨_, rfl⟩
    · exact .inl ⟨_, rfl⟩
    · exact .inr ⟨_, rfl⟩

end Token.WellFormed

/-! ## Equality -/

namespace Token

theorem exists_equalUnder {α : Type} {wrap : α → Document}
    {coerce : Token → Except CoercionError Document} {a b : Token} (ha : Coerced wrap (coerce a))
    (hb : Coerced wrap (coerce b)) : ∃ answer, equalUnder coerce a b = .ok answer := by
  unfold equalUnder
  rcases ha with ⟨x, hx⟩ | ⟨fault, hx⟩
  · rw [hx]
    rcases hb with ⟨y, hy⟩ | ⟨fault, hy⟩
    · rw [hy]
      exact ⟨_, rfl⟩
    · rw [hy]
      exact ⟨none, rfl⟩
  · rw [hx]
    exact ⟨none, rfl⟩

theorem exists_equalUnderFirst {a b : Token}
    {coercions : List (Token → Except CoercionError Document)}
    (h : ∀ coerce ∈ coercions, ∃ answer, equalUnder coerce a b = .ok answer) :
    ∃ answer, equalUnderFirst a b coercions = .ok answer := by
  induction coercions with
  | nil => exact ⟨false, rfl⟩
  | cons coerce more ih =>
    obtain ⟨answer, hanswer⟩ := h coerce List.mem_cons_self
    rw [equalUnderFirst, hanswer]
    cases answer with
    | some b => exact ⟨b, rfl⟩
    | none => exact ih fun c hc => h c (List.mem_cons_of_mem coerce hc)

end Token

/-- Well-formed values can be compared, whatever the settings. -/
theorem Options.exists_equal (o : Options) {a b : Token} (ha : a.WellFormed) (hb : b.WellFormed) :
    ∃ answer, o.equal a b = .ok answer := by
  unfold Options.equal
  split
  · refine Token.exists_equalUnderFirst fun coerce hcoerce => ?_
    simp only [List.mem_cons, List.not_mem_nil, or_false] at hcoerce
    rcases hcoerce with rfl | rfl | rfl
    · exact Token.exists_equalUnder ha.coerced_toNumber hb.coerced_toNumber
    · exact Token.exists_equalUnder ha.coerced_toTruth hb.coerced_toTruth
    · exact Token.exists_equalUnder ha.coerced_toText hb.coerced_toText
  · exact ⟨_, rfl⟩

/-! ## Operations on numbers -/

namespace Number

/-- Zero divisors are told apart before anything is divided. -/
theorem exists_quotient (a b : Float) : ∃ r, quotient a b = .ok r := by
  unfold quotient
  split_ifs with hzero hnone
  · exact ⟨_, rfl⟩
  · exact ⟨_, rfl⟩
  · rw [divide, if_neg hzero]
    exact ⟨_, rfl⟩

theorem modulo_cases (a b : Float) : (∃ r, modulo a b = .ok r) ∨ modulo a b = .error .domain := by
  unfold modulo
  dsimp only
  split_ifs
  · exact .inl ⟨_, rfl⟩
  · exact .inr rfl
  · exact .inl ⟨_, rfl⟩
  · exact .inl ⟨_, rfl⟩

theorem exists_remainder (a b : Float) : ∃ r, remainder a b = .ok r := by
  unfold remainder
  rcases modulo_cases a b with ⟨r, hr⟩ | hdomain
  · rw [hr]
    exact ⟨r, rfl⟩
  · rw [hdomain]
    exact ⟨_, rfl⟩

theorem raise_cases (a b : Float) :
    (∃ r, raise a b = .ok r) ∨ raise a b = .error .domain ∨ raise a b = .error .range := by
  unfold raise
  dsimp only
  split_ifs
  · exact .inr (.inl rfl)
  · exact .inr (.inr rfl)
  · exact .inl ⟨_, rfl⟩

theorem exists_power (a b : Float) : ∃ r, power a b = .ok r := by
  unfold power
  rcases raise_cases a b with ⟨r, hr⟩ | hdomain | hrange
  · rw [hr]
    exact ⟨r, rfl⟩
  · rw [hdomain]
    dsimp only
    split_ifs <;> exact ⟨_, rfl⟩
  · rw [hrange]
    exact ⟨_, rfl⟩

end Number

/-- **No operation of the machine fails a program**: arithmetic gives a number for any two
numbers. -/
theorem arithmetic?_total {k : Kind} {f : Float → Float → Except Number.Trap Float}
    (h : arithmetic? k = some f) (a b : Float) : ∃ r, f a b = .ok r := by
  unfold arithmetic? at h
  split at h <;> cases h
  · exact ⟨_, rfl⟩
  · exact ⟨_, rfl⟩
  · exact Number.exists_quotient a b
  · exact Number.exists_remainder a b
  · exact Number.exists_power a b

theorem comparison?_total {k : Kind} {f : Float → Float → Except Number.Trap Bool}
    (h : comparison? k = some f) (a b : Float) : ∃ r, f a b = .ok r := by
  unfold comparison? at h
  split at h <;> cases h <;> exact ⟨_, rfl⟩

/-! ## Operators -/

/-- Whether a failure blames the operator and not its operands. -/
def Failure.blamesOperator : Failure → Bool
  | unsupportedUnary _ | unsupportedBinary _ => true
  | _ => false

/-- A well-formed value, or a failure over the operands. -/
inductive Regular : Except Refusal Token → Prop
  | value {t : Token} : t.WellFormed → Regular (.ok t)
  | failure {cause : Failure} : cause.blamesOperator = false → Regular (.error (.failure cause))

/-- **The prefix operators of the grammar are regular.** -/
theorem regular_unaryValue {op x : Token} (hop : op.kind ∈ prefixOperators) (hx : x.WellFormed) :
    Regular (unaryValue op x) := by
  simp only [prefixOperators, List.mem_cons, List.not_mem_nil, or_false] at hop
  have hnot : op.kind = .bang ∨ op.kind = .kwNot → Regular (unaryValue op x) := by
    intro hk
    unfold unaryValue
    rcases hx.coerced_toTruth with ⟨b, hb⟩ | ⟨fault, hfault⟩
    · rcases hk with hk | hk <;> rw [hk] <;> dsimp only <;> rw [hb] <;> exact .value rfl
    · rcases hk with hk | hk <;> rw [hk] <;> dsimp only <;> rw [hfault] <;> exact .failure rfl
  rcases hop with hk | hk | hk
  · exact hnot (.inl hk)
  · exact hnot (.inr hk)
  · unfold unaryValue
    rw [hk]
    dsimp only
    rcases hx.coerced_toNumber with ⟨a, ha⟩ | ⟨fault, hfault⟩
    · rw [ha]
      exact .value rfl
    · rw [hfault]
      exact .failure rfl

theorem regular_sumValue {x y : Token} (hx : x.WellFormed) (hy : y.WellFormed) :
    Regular (sumValue x y) := by
  unfold sumValue
  split
  · rename_i hkx hky
    obtain ⟨a, ha⟩ := hx.payload_number hkx
    obtain ⟨b, hb⟩ := hy.payload_number hky
    rw [ha, hb]
    exact .value rfl
  · rename_i hkx hky
    obtain ⟨s, hs⟩ := hx.payload_string hkx
    obtain ⟨t, ht⟩ := hy.payload_string hky
    rw [hs, ht]
    exact .value rfl
  · exact .failure rfl

theorem Document.exists_withNumbers {α : Type} {f : Float → Float → Except Number.Trap α}
    (hf : ∀ a b, ∃ r, f a b = .ok r) (operator : Kind) (a b : Float) :
    ∃ r, Document.withNumbers operator f (.number a) (.number b) = .ok r := by
  obtain ⟨r, hr⟩ := hf a b
  rw [Document.withNumbers, hr]
  exact ⟨r, rfl⟩

/-- An operation on numbers gives a result, or fails over an operand. -/
theorem numericValue_cases {α : Type} (op : Token) {x y : Token} (hx : x.WellFormed)
    (hy : y.WellFormed) {f : Float → Float → Except Number.Trap α}
    (hf : ∀ a b, ∃ r, f a b = .ok r) : (∃ a, numericValue op x y f = .ok a) ∨
      ∃ fault, numericValue op x y f = .error (.failure (.binaryOperand op.symbol fault)) := by
  unfold numericValue
  dsimp only
  rcases hx.coerced_toNumber with ⟨a, ha⟩ | ⟨fault, hfault⟩
  · rw [ha]
    rcases hy.coerced_toNumber with ⟨b, hb⟩ | ⟨fault, hfault⟩
    · obtain ⟨r, hr⟩ := Document.exists_withNumbers hf op.kind a b
      rw [hb]
      dsimp only
      rw [hr]
      exact .inl ⟨r, rfl⟩
    · rw [hfault]
      exact .inr ⟨fault, rfl⟩
  · rw [hfault]
    exact .inr ⟨fault, rfl⟩

theorem regular_numericValue {α : Type} (op : Token) {x y : Token} (hx : x.WellFormed)
    (hy : y.WellFormed) {f : Float → Float → Except Number.Trap α}
    (hf : ∀ a b, ∃ r, f a b = .ok r) {wrap : α → Token} (hwrap : ∀ a, (wrap a).WellFormed) :
    Regular ((numericValue op x y f).map wrap) := by
  rcases numericValue_cases op hx hy hf with ⟨a, ha⟩ | ⟨fault, hfault⟩
  · rw [ha]
    exact .value (hwrap a)
  · rw [hfault]
    exact .failure rfl

/-- **The binary operators of the grammar are regular**, whatever the settings. -/
theorem regular_binaryValue (o : Options) {l : Level} {op x y : Token}
    (hop : op.kind ∈ l.operators) (hx : x.WellFormed) (hy : y.WellFormed) :
    Regular (o.binaryValue op x y) := by
  have hequal : ∀ f : Bool → Bool,
      Regular (((o.equal x y).mapError .misuse).map fun b => .ofTruth (f b)) := by
    intro f
    obtain ⟨answer, hanswer⟩ := o.exists_equal hx hy
    rw [hanswer]
    exact .value rfl
  have harithmetic : ∀ {f}, arithmetic? op.kind = some f →
      Regular ((numericValue op x y f).map .ofNumber) := fun h =>
    regular_numericValue op hx hy (arithmetic?_total h) fun _ => rfl
  have hcomparison : ∀ {f}, comparison? op.kind = some f →
      Regular ((numericValue op x y f).map .ofTruth) := fun h =>
    regular_numericValue op hx hy (comparison?_total h) fun _ => rfl
  unfold Options.binaryValue
  cases l with
  | equality =>
    simp only [Level.operators, List.mem_cons, List.not_mem_nil, or_false] at hop
    rcases hop with hk | hk
    · rw [hk]
      exact hequal id
    · rw [hk]
      exact hequal not
  | comparison =>
    simp only [Level.operators, List.mem_cons, List.not_mem_nil, or_false] at hop
    rcases hop with hk | hk | hk | hk <;> rw [hk] <;> exact hcomparison (by rw [hk]; rfl)
  | term =>
    simp only [Level.operators, List.mem_cons, List.not_mem_nil, or_false] at hop
    rcases hop with hk | hk
    · rw [hk]
      exact regular_sumValue hx hy
    · rw [hk]
      exact harithmetic (by rw [hk]; rfl)
  | factor =>
    simp only [Level.operators, List.mem_cons, List.not_mem_nil, or_false] at hop
    rcases hop with hk | hk | hk <;> rw [hk] <;> exact harithmetic (by rw [hk]; rfl)
  | exponent =>
    simp only [Level.operators, List.mem_cons, List.not_mem_nil, or_false] at hop
    rw [hop]
    exact harithmetic (by rw [hop]; rfl)

/-! ## Wordings -/

/-- How reports that blame an operator begin. -/
def unsupportedTexts : List String := ["unsupported unary operator", "unsupported binary operator"]

/-- Whether a message blames an operator. -/
def isUnsupported (message : String) : Bool :=
  unsupportedTexts.any fun text => text.toList.isPrefixOf message.toList

/-- The front of a message can rule out that it blames an operator. -/
theorem isUnsupported_of_front {message : String} (front : String)
    (hfront : front.toList <+: message.toList)
    (h : unsupportedTexts.all (fun text =>
      !(text.toList.take front.toList.length).isPrefixOf front.toList) = true) :
    isUnsupported message = false := by
  refine List.any_eq_false.mpr fun text htext hprefix => ?_
  have hapart := List.all_eq_true.mp h text htext
  obtain ⟨tail, htail⟩ := hfront
  obtain ⟨more, hmore⟩ := List.isPrefixOf_iff_prefix.mp hprefix
  have htake : text.toList.take front.toList.length <+: front.toList := by
    have := congrArg (List.take front.toList.length) (hmore.trans htail.symm)
    rw [List.take_left, List.take_append] at this
    exact ⟨_, this⟩
  rw [List.isPrefixOf_iff_prefix.mpr htake] at hapart
  cases hapart

theorem toList_prefix_append (s t : String) : s.toList <+: (s ++ t).toList := by
  rw [String.toList_append]
  exact List.prefix_append _ _

/-- A failure over operands does not read as if the operator were to blame. -/
theorem Failure.isUnsupported_message {cause : Failure} (h : cause.blamesOperator = false) :
    isUnsupported cause.message = false := by
  cases cause with
  | unsupportedUnary symbol => cases h
  | unsupportedBinary symbol => cases h
  | unaryOperand symbol fault =>
    refine isUnsupported_of_front "unary '" ?_ (by decide +kernel)
    exact ((toList_prefix_append _ _).trans (toList_prefix_append _ _)).trans
      (toList_prefix_append _ _)
  | sum left right =>
    refine isUnsupported_of_front "unsupported '+' for " ?_ (by decide +kernel)
    exact ((toList_prefix_append _ _).trans (toList_prefix_append _ _)).trans
      (toList_prefix_append _ _)
  | binaryOperand symbol fault =>
    refine isUnsupported_of_front "'" ?_ (by decide +kernel)
    exact ((toList_prefix_append _ _).trans (toList_prefix_append _ _)).trans
      (toList_prefix_append _ _)
  | unprintable fault =>
    exact isUnsupported_of_front "cannot print value: " (toList_prefix_append _ _)
      (by decide +kernel)

theorem Complaint.isUnsupported_message (c : Complaint) : isUnsupported c.message = false := by
  cases c with
  | expected k =>
    exact isUnsupported_of_front "expected token of type " (toList_prefix_append _ _)
      (by decide +kernel)
  | unexpected k =>
    exact isUnsupported_of_front "unexpected token " (toList_prefix_append _ _)
      (by decide +kernel)

theorem ScanFault.isUnsupported_message (f : ScanFault) : isUnsupported f.message = false := by
  cases f with
  | numeral lexeme =>
    refine isUnsupported_of_front "invalid number literal '" ?_ (by decide +kernel)
    exact (toList_prefix_append _ _).trans (toList_prefix_append _ _)
  | unknown c =>
    exact isUnsupported_of_front "found unknown symbol " (toList_prefix_append _ _)
      (by decide +kernel)
  | _ => decide +kernel

end Scriptlet
