import Scriptlet.Proofs.Verdict

/-!
# The two equalities

Values are compared by kind and payload, or under the first coercion that both survive. The second
comparison has three legs in its definition and two in effect: what has a text has a truth value,
so that the last leg is never the first that both values survive.

* `Number.equal_iff`: equality of numbers, by what it tells apart. NaN is equal to nothing, and the
  two zeros are equal. So it is symmetric and transitive (`equal_comm`, `equal_trans`).
* `SamePayload`: payloads of one kind that count as the same. `valuesEqual_iff` reads the first
  equality off it.
* `Token.truth`: the truth value of a value. `cascadeEqual_numbers`, `cascadeEqual_literals` and
  `cascadeEqual_other` say what the second equality comes to.

`equalities_of_values` puts these together.
-/

namespace Scriptlet

/-! ## Numbers -/

namespace Number

open Float.Model Float.Model.UnpackedFloat

/-- What equality tells apart: NaN is nothing, and the zeros are one. -/
def equalityClass : UnpackedFloat → Option UnpackedFloat
  | .notANumber => none
  | .zero _ => some (.zero .positive)
  | .infinity s => some (.infinity s)
  | .finite s m e h => some (.finite s m e h)

/-- Both are told apart from nothing, and not from each other. -/
def SameClass (u v : UnpackedFloat) : Prop :=
  ∃ k, equalityClass u = some k ∧ equalityClass v = some k

theorem beq_of_apart {u v : UnpackedFloat} (hbeq : u.beq v = false)
    (hclass : equalityClass u ≠ equalityClass v) : u.beq v = true ↔ SameClass u v := by
  refine iff_of_false (Bool.eq_false_iff.mp hbeq) ?_
  rintro ⟨k, hu, hv⟩
  exact hclass (hu.trans hv.symm)

theorem beq_of_refl {u v : UnpackedFloat} (hbeq : u.beq v = true) {k : UnpackedFloat}
    (hu : equalityClass u = some k) (hv : equalityClass v = some k) :
    u.beq v = true ↔ SameClass u v :=
  iff_of_true hbeq ⟨k, hu, hv⟩

theorem beq_infinity (s t : Sign) :
    (UnpackedFloat.infinity s).beq (.infinity t) = true ↔
      SameClass (.infinity s) (.infinity t) := by
  cases s with
  | negative =>
    cases t with
    | negative => exact beq_of_refl rfl rfl rfl
    | positive => exact beq_of_apart rfl fun h => by cases h
  | positive =>
    cases t with
    | negative => exact beq_of_apart rfl fun h => by cases h
    | positive => exact beq_of_refl rfl rfl rfl

theorem beq_finite (s : Sign) {m m' : Nat} {e e' : Int} (h : 0 < m) (h' : 0 < m') :
    (UnpackedFloat.finite s m e h).beq (.finite s m' e' h') = true ↔ e = e' ∧ m = m' := by
  have hcompare : (compare e e').then (compare m m') = .eq ↔ e = e' ∧ m = m' := by
    rw [Ordering.then_eq_eq, Int.compare_eq_eq, Nat.compare_eq_eq]
  rw [← hcompare]
  cases s with
  | negative =>
    show (some ((compare e e').then (compare m m')).swap == some .eq) = true ↔ _
    simp
  | positive =>
    show (some ((compare e e').then (compare m m')) == some .eq) = true ↔ _
    simp

theorem beq_finite_signs {s t : Sign} (hst : s ≠ t) {m m' : Nat} {e e' : Int} (h : 0 < m)
    (h' : 0 < m') : (UnpackedFloat.finite s m e h).beq (.finite t m' e' h') = false := by
  cases s with
  | negative =>
    cases t with
    | negative => exact absurd rfl hst
    | positive => rfl
  | positive =>
    cases t with
    | negative => rfl
    | positive => exact absurd rfl hst

theorem beq_iff_sameClass (u v : UnpackedFloat) : u.beq v = true ↔ SameClass u v := by
  cases u with
  | notANumber =>
    refine iff_of_false Bool.false_ne_true ?_
    rintro ⟨k, hk, -⟩
    cases hk
  | zero s =>
    cases v with
    | notANumber => exact beq_of_apart rfl fun h => by cases h
    | zero t => exact beq_of_refl rfl rfl rfl
    | infinity t => exact beq_of_apart (by cases t <;> rfl) fun h => by cases h
    | finite t m e h => exact beq_of_apart (by cases t <;> rfl) fun h => by cases h
  | infinity s =>
    cases v with
    | notANumber => exact beq_of_apart rfl fun h => by cases h
    | zero t => exact beq_of_apart (by cases s <;> rfl) fun h => by cases h
    | infinity t => exact beq_infinity s t
    | finite t m e h => exact beq_of_apart (by cases s <;> rfl) fun h => by cases h
  | finite s m e h =>
    cases v with
    | notANumber => exact beq_of_apart rfl fun h => by cases h
    | zero t => exact beq_of_apart (by cases s <;> rfl) fun h => by cases h
    | infinity t => exact beq_of_apart (by cases t <;> rfl) fun h => by cases h
    | finite t m' e' h' =>
      by_cases hst : s = t
      · subst hst
        rw [beq_finite]
        constructor
        · rintro ⟨rfl, rfl⟩
          exact ⟨_, rfl, rfl⟩
        · rintro ⟨k, hk, hk'⟩
          cases hk
          cases hk'
          exact ⟨rfl, rfl⟩
      · refine beq_of_apart (beq_finite_signs hst h h') ?_
        intro hclass
        cases hclass
        exact hst rfl

/-- **Numbers are equal if they are of one class.** -/
theorem equal_iff (x y : Float) :
    (x == y) = true ↔ SameClass x.toModel.unpack y.toModel.unpack :=
  beq_iff_sameClass x.toModel.unpack y.toModel.unpack

theorem equal_comm (x y : Float) : (x == y) = (y == x) := by
  have hsymm : ∀ {x y : Float}, (x == y) = true → (y == x) = true := by
    intro x y h
    obtain ⟨k, hx, hy⟩ := (equal_iff x y).mp h
    exact (equal_iff y x).mpr ⟨k, hy, hx⟩
  rw [Bool.eq_iff_iff]
  exact ⟨hsymm, hsymm⟩

theorem equal_trans {x y z : Float} (hxy : (x == y) = true) (hyz : (y == z) = true) :
    (x == z) = true := by
  obtain ⟨k, hx, hy⟩ := (equal_iff x y).mp hxy
  obtain ⟨l, hy', hz⟩ := (equal_iff y z).mp hyz
  rw [hy] at hy'
  cases hy'
  exact (equal_iff x z).mpr ⟨k, hx, hz⟩

end Number

/-! ## Kinds and payloads -/

/-- The payloads that a kind admits, by their form. -/
inductive Kind.Carries : Kind → Document → Prop
  | number (x : Float) : Carries .number (.number x)
  | string (s : String) : Carries .string (.text s)
  | name (s : String) : Carries .identifier (.text s)
  | bool (b : Bool) : Carries .bool (.truth b)
  | other {k : Kind} : k ≠ .number → k ≠ .string → k ≠ .identifier → k ≠ .bool → Carries k .null

theorem Token.WellFormed.carries {t : Token} (h : t.WellFormed) : t.kind.Carries t.payload := by
  unfold WellFormed at h
  generalize t.kind = k, t.payload = d at h
  unfold Kind.admits at h
  split at h
  · exact .name _
  · exact .string _
  · exact .number _
  · exact .bool _
  · cases h
  · cases h
  · cases h
  · cases h
  · rename_i hname hstring hnumber hbool
    exact .other hnumber hstring hname hbool
  · cases h

/-- Payloads of one kind that count as the same. -/
inductive SamePayload : Document → Document → Prop
  | null : SamePayload .null .null
  | truth (b : Bool) : SamePayload (.truth b) (.truth b)
  | text (s : String) : SamePayload (.text s) (.text s)
  | number {x y : Float} : (x == y) = true → SamePayload (.number x) (.number y)

namespace SamePayload

variable {d e f : Document}

theorem symm (h : SamePayload d e) : SamePayload e d := by
  cases h with
  | null => exact .null
  | truth b => exact .truth b
  | text s => exact .text s
  | number hxy => exact .number ((Number.equal_comm _ _).trans hxy)

theorem trans (h : SamePayload d e) (h' : SamePayload e f) : SamePayload d f := by
  cases h with
  | null => exact h'
  | truth b => exact h'
  | text s => exact h'
  | number hxy =>
    cases h' with
    | number hyz => exact .number (Number.equal_trans hxy hyz)

end SamePayload

theorem same_number (x y : Float) : Document.same (.number x) (.number y) = (x == y) := by
  simp [Document.same, Document.sameScalar]

theorem same_truth (b c : Bool) : Document.same (.truth b) (.truth c) = (b == c) := by
  cases b <;> cases c <;> decide

theorem same_number_iff (x y : Float) :
    Document.same (.number x) (.number y) = true ↔ SamePayload (.number x) (.number y) := by
  rw [same_number]
  constructor
  · exact .number
  · intro h
    cases h with
    | number hxy => exact hxy

theorem same_text_iff (s t : String) :
    Document.same (.text s) (.text t) = true ↔ SamePayload (.text s) (.text t) := by
  have hsame : Document.same (.text s) (.text t) = (s == t) := by
    simp [Document.same, Document.sameScalar]
  rw [hsame, beq_iff_eq]
  constructor
  · rintro rfl
    exact .text s
  · intro h
    cases h
    rfl

theorem same_truth_iff (b c : Bool) :
    Document.same (.truth b) (.truth c) = true ↔ SamePayload (.truth b) (.truth c) := by
  rw [same_truth, beq_iff_eq]
  constructor
  · rintro rfl
    exact .truth b
  · intro h
    cases h
    rfl

/-- Payloads of one kind are compared by their form. -/
theorem same_iff {k : Kind} {d e : Document} (hd : k.Carries d) (he : k.Carries e) :
    d.same e = true ↔ SamePayload d e := by
  cases hd with
  | number x =>
    cases he with
    | number y => exact same_number_iff x y
    | other hnumber => exact absurd rfl hnumber
  | string s =>
    cases he with
    | string t => exact same_text_iff s t
    | other _ hstring => exact absurd rfl hstring
  | name s =>
    cases he with
    | name t => exact same_text_iff s t
    | other _ _ hname => exact absurd rfl hname
  | bool b =>
    cases he with
    | bool c => exact same_truth_iff b c
    | other _ _ _ hbool => exact absurd rfl hbool
  | other hnumber hstring hname hbool =>
    cases he with
    | number y => exact absurd rfl hnumber
    | string t => exact absurd rfl hstring
    | name t => exact absurd rfl hname
    | bool c => exact absurd rfl hbool
    | other => exact iff_of_true rfl .null

/-! ## Values -/

namespace Token

variable {a b c : Token}

theorem valuesEqual_iff (ha : a.WellFormed) (hb : b.WellFormed) :
    a.valuesEqual b = true ↔ a.kind = b.kind ∧ SamePayload a.payload b.payload := by
  rw [valuesEqual, Bool.and_eq_true, beq_iff_eq]
  constructor
  · rintro ⟨hkind, hsame⟩
    exact ⟨hkind, (same_iff ha.carries (hkind ▸ hb.carries)).mp hsame⟩
  · rintro ⟨hkind, hsame⟩
    exact ⟨hkind, (same_iff ha.carries (hkind ▸ hb.carries)).mpr hsame⟩

theorem valuesEqual_comm (ha : a.WellFormed) (hb : b.WellFormed) :
    a.valuesEqual b = b.valuesEqual a := by
  rw [Bool.eq_iff_iff, valuesEqual_iff ha hb, valuesEqual_iff hb ha]
  constructor
  · rintro ⟨hkind, hsame⟩
    exact ⟨hkind.symm, hsame.symm⟩
  · rintro ⟨hkind, hsame⟩
    exact ⟨hkind.symm, hsame.symm⟩

theorem valuesEqual_trans (ha : a.WellFormed) (hb : b.WellFormed) (hc : c.WellFormed)
    (hab : a.valuesEqual b = true) (hbc : b.valuesEqual c = true) : a.valuesEqual c = true := by
  rw [valuesEqual_iff ha hb] at hab
  rw [valuesEqual_iff hb hc] at hbc
  rw [valuesEqual_iff ha hc]
  exact ⟨hab.1.trans hbc.1, hab.2.trans hbc.2⟩

/-- The truth value of a value is that of its payload. A name is false, whatever it is. -/
def truth (t : Token) : Bool := t.kind != .identifier && t.payload.truthy

theorem toTruth_eq (h : a.WellFormed) (hk : a.kind.isLiteral = true) :
    a.toTruth = .ok (.truth a.truth) := by
  have hcarries := h.carries
  unfold toTruth truth
  generalize a.kind = k, a.payload = d at hcarries hk
  cases hcarries with
  | number x =>
    dsimp only
    rw [same_number]
    rfl
  | string s =>
    have hlength : decide (0 < s.length) = (s != "") := by
      rw [Bool.eq_iff_iff, decide_eq_true_eq, bne_iff_ne, Nat.pos_iff_ne_zero, ne_eq,
        String.length_eq_zero_iff]
    exact congrArg (fun p => Except.ok (Document.truth p)) hlength
  | name s => rfl
  | bool b => rfl
  | other hnumber hstring hname hbool =>
    have hnone : k = .kwNone := by
      simpa [Kind.isLiteral, Kind.literals, hnumber, hstring, hname, hbool] using hk
    subst hnone
    rfl

/-! ## Legs of the cascade -/

variable {coerce : Token → Except CoercionError Document}

theorem equalUnder_of_ok {d e : Document} (ha : coerce a = .ok d) (hb : coerce b = .ok e) :
    equalUnder coerce a b = .ok (some (d.same e)) := by
  unfold equalUnder
  rw [ha]
  dsimp only
  rw [hb]

/-- A value that is refused takes the other one out of the comparison. -/
theorem equalUnder_of_refused {α : Type} {wrap : α → Document} (ha : Coerced wrap (coerce a))
    (hrefused : (∃ fault, coerce a = .error (.refused fault)) ∨
      ∃ fault, coerce b = .error (.refused fault)) : equalUnder coerce a b = .ok none := by
  unfold equalUnder
  rcases ha with ⟨x, hx⟩ | ⟨fault, hx⟩
  · rw [hx]
    rcases hrefused with ⟨fault, hrefused⟩ | ⟨fault, hrefused⟩
    · rw [hx] at hrefused
      cases hrefused
    · dsimp only
      rw [hrefused]
  · rw [hx]

theorem toText_of_not_isLiteral (hk : a.kind.isLiteral = false) :
    a.toText = .error (.refused (.wantsText a.kind)) := by
  refine toText_of_not_isPrintable ?_
  have hprintable : ∀ k ∈ Kind.all, k.isLiteral = false → k.isPrintable = false := by decide
  exact hprintable a.kind a.kind.mem_all hk

theorem cascadeEqual_numbers {x y : Float} (hka : a.kind = .number) (hkb : b.kind = .number)
    (ha : a.payload = .number x) (hb : b.payload = .number y) :
    a.cascadeEqual b = .ok (x == y) := by
  have hx : a.toNumber = .ok (.number x) := by
    rw [toNumber, if_pos hka, ha]
  have hy : b.toNumber = .ok (.number y) := by
    rw [toNumber, if_pos hkb, hb]
  unfold cascadeEqual
  rw [equalUnderFirst, equalUnder_of_ok hx hy, same_number]

/-- Values that are not both numbers are left to the second leg. -/
theorem cascadeEqual_of_not_numbers (ha : a.WellFormed)
    (h : ¬(a.kind = .number ∧ b.kind = .number)) :
    a.cascadeEqual b = equalUnderFirst a b [toTruth, toText] := by
  have hrefused : (∃ fault, a.toNumber = .error (.refused fault)) ∨
      ∃ fault, b.toNumber = .error (.refused fault) := by
    by_cases hka : a.kind = .number
    · exact .inr ⟨_, toNumber_of_ne fun hkb => h ⟨hka, hkb⟩⟩
    · exact .inl ⟨_, toNumber_of_ne hka⟩
  unfold cascadeEqual
  rw [equalUnderFirst, equalUnder_of_refused ha.coerced_toNumber hrefused]

theorem cascadeEqual_literals (ha : a.WellFormed) (hb : b.WellFormed)
    (h : ¬(a.kind = .number ∧ b.kind = .number)) (hka : a.kind.isLiteral = true)
    (hkb : b.kind.isLiteral = true) : a.cascadeEqual b = .ok (a.truth == b.truth) := by
  rw [cascadeEqual_of_not_numbers ha h, equalUnderFirst,
    equalUnder_of_ok (toTruth_eq ha hka) (toTruth_eq hb hkb), same_truth]

/-- A value that has no truth value has no text. -/
theorem equalUnder_toTruth_toText (ha : a.WellFormed)
    (h : ¬(a.kind.isLiteral = true ∧ b.kind.isLiteral = true)) :
    equalUnder toTruth a b = .ok none ∧ equalUnder toText a b = .ok none := by
  have hone : a.kind.isLiteral = false ∨ b.kind.isLiteral = false := by
    cases hka : a.kind.isLiteral with
    | false => exact .inl rfl
    | true => exact .inr (Bool.eq_false_iff.mpr fun hkb => h ⟨hka, hkb⟩)
  constructor
  · refine equalUnder_of_refused ha.coerced_toTruth ?_
    exact hone.imp (fun hk => ⟨_, toTruth_of_not_isLiteral hk⟩) fun hk =>
      ⟨_, toTruth_of_not_isLiteral hk⟩
  · refine equalUnder_of_refused ha.coerced_toText ?_
    exact hone.imp (fun hk => ⟨_, toText_of_not_isLiteral hk⟩) fun hk =>
      ⟨_, toText_of_not_isLiteral hk⟩

theorem cascadeEqual_other (ha : a.WellFormed)
    (h : ¬(a.kind.isLiteral = true ∧ b.kind.isLiteral = true)) :
    a.cascadeEqual b = .ok false := by
  have hnumbers : ¬(a.kind = .number ∧ b.kind = .number) := by
    rintro ⟨hka, hkb⟩
    rw [hka, hkb] at h
    exact h ⟨rfl, rfl⟩
  obtain ⟨htruth, htext⟩ := equalUnder_toTruth_toText ha h
  rw [cascadeEqual_of_not_numbers ha hnumbers, equalUnderFirst, htruth]
  dsimp only
  rw [equalUnderFirst, htext]
  rfl

theorem cascadeEqual_comm (ha : a.WellFormed) (hb : b.WellFormed) :
    a.cascadeEqual b = b.cascadeEqual a := by
  by_cases hnumbers : a.kind = .number ∧ b.kind = .number
  · obtain ⟨hka, hkb⟩ := hnumbers
    obtain ⟨x, hx⟩ := ha.payload_number hka
    obtain ⟨y, hy⟩ := hb.payload_number hkb
    rw [cascadeEqual_numbers hka hkb hx hy, cascadeEqual_numbers hkb hka hy hx, Number.equal_comm]
  · by_cases hliterals : a.kind.isLiteral = true ∧ b.kind.isLiteral = true
    · obtain ⟨hka, hkb⟩ := hliterals
      rw [cascadeEqual_literals ha hb hnumbers hka hkb,
        cascadeEqual_literals hb ha (fun h => hnumbers h.symm) hkb hka, BEq.comm]
    · rw [cascadeEqual_other ha hliterals, cascadeEqual_other hb fun h => hliterals h.symm]

/-- Equal payloads have the same truth value, numbers apart. -/
theorem truth_eq_of_samePayload (ha : a.WellFormed) (hkind : a.kind = b.kind)
    (hne : a.kind ≠ .number) (hsame : SamePayload a.payload b.payload) : a.truth = b.truth := by
  have hcarries := ha.carries
  have hpayload : a.payload = b.payload := by
    generalize a.kind = k, a.payload = d at hcarries hsame hne
    generalize b.payload = e at hsame
    cases hsame with
    | null => rfl
    | truth b => rfl
    | text s => rfl
    | number hxy =>
      cases hcarries with
      | number x => exact absurd rfl hne
  unfold truth
  rw [hkind, hpayload]

theorem cascadeEqual_of_valuesEqual (ha : a.WellFormed) (hb : b.WellFormed)
    (hka : a.kind.isLiteral = true) (h : a.valuesEqual b = true) : a.cascadeEqual b = .ok true := by
  obtain ⟨hkind, hsame⟩ := (valuesEqual_iff ha hb).mp h
  by_cases hnumber : a.kind = .number
  · have hkb : b.kind = .number := hkind.symm.trans hnumber
    obtain ⟨x, hx⟩ := ha.payload_number hnumber
    obtain ⟨y, hy⟩ := hb.payload_number hkb
    rw [hx, hy] at hsame
    cases hsame with
    | number hxy => rw [cascadeEqual_numbers hnumber hkb hx hy, hxy]
  · rw [cascadeEqual_literals ha hb (fun hboth => hnumber hboth.1) hka (hkind ▸ hka),
      truth_eq_of_samePayload ha hkind hnumber hsame, BEq.rfl]

end Token

/-- **The two equalities of well-formed values.** Under the cascade, numbers are compared as numbers
and other values by their truth; what stands for no value equals nothing, and the text of a value
never decides. Both equalities are symmetric and the one by kind and payload is transitive. For
values, it is the finer one. -/
theorem equalities_of_values {a b : Token} (ha : a.WellFormed) (hb : b.WellFormed) :
    (a.kind = .number ∧ b.kind = .number →
      ∃ x y, a.payload = .number x ∧ b.payload = .number y ∧ a.cascadeEqual b = .ok (x == y)) ∧
    (¬(a.kind = .number ∧ b.kind = .number) →
      a.kind.isLiteral = true ∧ b.kind.isLiteral = true →
        a.toTruth = .ok (.truth a.truth) ∧ b.toTruth = .ok (.truth b.truth) ∧
          a.cascadeEqual b = .ok (a.truth == b.truth)) ∧
    (¬(a.kind.isLiteral = true ∧ b.kind.isLiteral = true) →
      Token.equalUnder Token.toText a b = .ok none ∧ a.cascadeEqual b = .ok false) ∧
    a.cascadeEqual b = b.cascadeEqual a ∧ a.valuesEqual b = b.valuesEqual a ∧
    (∀ c : Token, c.WellFormed → a.valuesEqual b = true → b.valuesEqual c = true →
      a.valuesEqual c = true) ∧
    (a.kind.isLiteral = true ∧ b.kind.isLiteral = true → a.valuesEqual b = true →
      a.cascadeEqual b = .ok true) := by
  refine ⟨?_, ?_, ?_, Token.cascadeEqual_comm ha hb, Token.valuesEqual_comm ha hb, ?_, ?_⟩
  · rintro ⟨hka, hkb⟩
    obtain ⟨x, hx⟩ := ha.payload_number hka
    obtain ⟨y, hy⟩ := hb.payload_number hkb
    exact ⟨x, y, hx, hy, Token.cascadeEqual_numbers hka hkb hx hy⟩
  · rintro hnumbers ⟨hka, hkb⟩
    exact ⟨Token.toTruth_eq ha hka, Token.toTruth_eq hb hkb,
      Token.cascadeEqual_literals ha hb hnumbers hka hkb⟩
  · intro hother
    exact ⟨(Token.equalUnder_toTruth_toText ha hother).2, Token.cascadeEqual_other ha hother⟩
  · intro c hc hab hbc
    exact Token.valuesEqual_trans ha hb hc hab hbc
  · rintro ⟨hka, -⟩ hequal
    exact Token.cascadeEqual_of_valuesEqual ha hb hka hequal

/-- A number and a text are compared by truth: one and `x` are equal under the cascade, and not by
kind and payload. -/
theorem equalities_of_number_and_text :
    let one : Token := .ofNumber (Float.ofBits 0x3FF0000000000000)
    let x : Token := .ofText "x"
    one.WellFormed ∧ x.WellFormed ∧ one.valuesEqual x = false ∧ one.cascadeEqual x = .ok true ∧
      x.cascadeEqual one = .ok true := by
  intro one x
  have hone : one.WellFormed := rfl
  have hx : x.WellFormed := rfl
  have htruth : (one.truth == x.truth) = true := by decide +kernel
  obtain ⟨-, hliterals, -, hcomm, -⟩ := equalities_of_values hone hx
  obtain ⟨-, -, hequal⟩ := hliterals (by decide) ⟨rfl, rfl⟩
  rw [htruth] at hequal
  exact ⟨hone, hx, rfl, hequal, hcomm ▸ hequal⟩

end Scriptlet
