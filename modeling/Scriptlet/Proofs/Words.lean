import Scriptlet.Number.Binary64
import Mathlib.Tactic.SplitIfs

/-!
# Numbers and their words

A number is taken apart into a sign and a magnitude word by `isNegative` and `magnitude`, and put
together from them by `ofMagnitude`. For finite numbers the two are inverse, and changing the sign
of the number changes the sign alone.

* `isFinite_iff`: the finite numbers are those whose magnitude is below that of infinity.
* `ofMagnitude_magnitude`: a finite number is put together again from its parts.
* `neg_ofMagnitude`: negation keeps the magnitude.

The machine type is a bit pattern of three fields; an operation unpacks them and packs its result.
`unpackFields` says what unpacking gives in terms of the fields, and packing undoes it
(`pack_unpackFields`).
-/

namespace Scriptlet.Number

open Float.Model Float.Model.UnpackedFloat

/-! ## The fields of a bit pattern -/

/-- The fraction field with the hidden bit above it. -/
theorem toNat_hidden (m : BitVec 52) : (1#1 ++ m).toNat = hiddenBit + m.toNat := by
  rw [BitVec.toNat_append, ← Nat.shiftLeft_add_eq_or_of_lt m.isLt]
  rfl

theorem toNat_pos_of_ne {m : BitVec 52} (h : m ≠ 0#52) : 0 < m.toNat :=
  Nat.pos_of_ne_zero fun hzero => h (BitVec.eq_of_toNat_eq hzero)

theorem toNat_hidden_pos (m : BitVec 52) : 0 < (1#1 ++ m).toNat := by
  rw [toNat_hidden]
  exact Nat.add_pos_left (by decide) _

/-- The number with the given sign, exponent field and fraction field, if it is finite. -/
def unpackFields (s : Sign) (e : BitVec 11) (m : BitVec 52) : UnpackedFloat :=
  if e = 0#11 then
    if h : m = 0#52 then .zero s
    else .finite s m.toNat (e.toNat - 1075 + 1) (toNat_pos_of_ne h)
  else .finite s (1#1 ++ m).toNat (e.toNat - 1075) (toNat_hidden_pos m)

theorem unpackFields_subnormal (s : Sign) {m : BitVec 52} (h : m ≠ 0#52) :
    unpackFields s 0#11 m = .finite s m.toNat (-1074) (toNat_pos_of_ne h) := by
  rw [unpackFields, if_pos rfl, dif_neg h]
  rfl

theorem unpackFields_normal (s : Sign) {e : BitVec 11} (h : e ≠ 0#11) (m : BitVec 52) :
    unpackFields s e m = .finite s (1#1 ++ m).toNat (e.toNat - 1075) (toNat_hidden_pos m) := by
  rw [unpackFields, if_neg h]

/-- The fields of zero, of a number without the hidden bit, and of one with it. -/
theorem fields_cases (e : BitVec 11) (m : BitVec 52) :
    (e = 0#11 ∧ m = 0#52) ∨ (e = 0#11 ∧ m ≠ 0#52) ∨ e ≠ 0#11 := by
  by_cases he : e = 0#11
  · by_cases hm : m = 0#52
    · exact .inl ⟨he, hm⟩
    · exact .inr (.inl ⟨he, hm⟩)
  · exact .inr (.inr he)

theorem unpack_eq (b : BitVec Format.binary64.numBits) : UnpackedFloat.unpack .binary64 b =
    if unpackExponent b = -1#11 then
      if unpackMantissa b = 0#52 then .infinity (Sign.ofBitVec (unpackSign b)) else .notANumber
    else unpackFields (Sign.ofBitVec (unpackSign b)) (unpackExponent b) (unpackMantissa b) := rfl

theorem pack_finite (s : Sign) (m : Nat) (e : Int) (h : 0 < m) :
    UnpackedFloat.pack .binary64 (.finite s m e h) =
      if 2048 ≤ (e + 1023 + 52).toNat + 1 then packedInfinity .binary64 s
      else if m.log2 + 1 = 53 then
        packComponents .binary64 s (BitVec.ofNat 11 (e + 1023 + 52).toNat) (BitVec.ofNat 52 m)
      else packComponents .binary64 s 0#11 (BitVec.ofNat 52 m) := rfl

theorem ofBitVec_unpackSign (s : Sign) (e : BitVec 11) (m : BitVec 52) :
    Sign.ofBitVec (unpackSign (packComponents .binary64 s e m)) = s := by
  show Sign.ofBitVec ((s.toBitVec ++ e ++ m).extractLsb' 63 1) = s
  rw [BitVec.extractLsb'_append_eq_of_le (by decide),
    BitVec.extractLsb'_append_eq_of_le (by decide)]
  cases s <;> rfl

theorem unpack_packComponents (s : Sign) {e : BitVec 11} (m : BitVec 52) (he : e ≠ -1#11) :
    UnpackedFloat.unpack .binary64 (packComponents .binary64 s e m) = unpackFields s e m := by
  rw [unpack_eq, unpackMantissa_packComponents, unpackExponent_packComponents, ofBitVec_unpackSign,
    if_neg he]

theorem isFinite_unpackFields (s : Sign) (e : BitVec 11) (m : BitVec 52) :
    (unpackFields s e m).isFinite = true := by
  rcases fields_cases e m with ⟨rfl, rfl⟩ | ⟨rfl, hm⟩ | he
  · rfl
  · rw [unpackFields_subnormal s hm]
    rfl
  · rw [unpackFields_normal s he]
    rfl

theorem neg_unpackFields (s : Sign) (e : BitVec 11) (m : BitVec 52) :
    (unpackFields s e m).neg = unpackFields (-s) e m := by
  rcases fields_cases e m with ⟨rfl, rfl⟩ | ⟨rfl, hm⟩ | he
  · rfl
  · rw [unpackFields_subnormal s hm, unpackFields_subnormal (-s) hm]
    rfl
  · rw [unpackFields_normal s he, unpackFields_normal (-s) he]
    rfl

/-- Packing undoes unpacking. -/
theorem pack_unpackFields (s : Sign) {e : BitVec 11} (m : BitVec 52) (he : e ≠ -1#11) :
    UnpackedFloat.pack .binary64 (unpackFields s e m) = packComponents .binary64 s e m := by
  have hmlt := m.isLt
  have helt : e.toNat < 2047 := by
    have hne : e.toNat ≠ (-1#11).toNat := fun h => he (BitVec.eq_of_toNat_eq h)
    have hlt := e.isLt
    have hones : (-1#11).toNat = 2047 := rfl
    omega
  rcases fields_cases e m with ⟨rfl, rfl⟩ | ⟨rfl, hm⟩ | hnormal
  · rfl
  · -- a fraction field alone has fewer bits than it would have with the hidden bit
    have hlog : m.toNat.log2 < 52 := (Nat.log2_lt (Nat.ne_of_gt (toNat_pos_of_ne hm))).mpr hmlt
    rw [unpackFields_subnormal s hm, pack_finite, if_neg (by decide), if_neg (by omega),
      BitVec.ofNat_toNat, BitVec.setWidth_eq]
  · have hlog : (1#1 ++ m).toNat.log2 = 52 := by
      rw [Nat.log2_eq_iff (Nat.ne_of_gt (toNat_hidden_pos m)), toNat_hidden]
      unfold hiddenBit
      omega
    have hexp : ((e.toNat - 1075 : Int) + 1023 + 52).toNat = e.toNat := by omega
    have hfraction : BitVec.ofNat 52 (1#1 ++ m).toNat = m := by
      refine BitVec.eq_of_toNat_eq ?_
      rw [BitVec.toNat_ofNat, toNat_hidden]
      unfold hiddenBit
      omega
    rw [unpackFields_normal s hnormal, pack_finite, hexp, hlog, if_neg (by omega), if_pos rfl,
      hfraction, BitVec.ofNat_toNat, BitVec.setWidth_eq]

/-! ## The pattern of a sign and a word -/

/-- The bit pattern of a sign and a magnitude word. -/
def pattern (negative : Bool) (w : Nat) : BitVec 64 :=
  packComponents .binary64 (if negative then .negative else .positive)
    (BitVec.ofNat 11 (w / hiddenBit)) (BitVec.ofNat 52 w)

theorem toNat_pattern (negative : Bool) {w : Nat} (hw : w < signBit) :
    (pattern negative w).toNat = if negative then signBit + w else w := by
  have hfields (s : BitVec 1) (e : BitVec 11) (m : BitVec 52) :
      (s ++ e ++ m).toNat = s.toNat * signBit + e.toNat * hiddenBit + m.toNat := by
    rw [BitVec.toNat_append, ← Nat.shiftLeft_add_eq_or_of_lt m.isLt, BitVec.toNat_append,
      ← Nat.shiftLeft_add_eq_or_of_lt e.isLt, Nat.shiftLeft_eq, Nat.shiftLeft_eq]
    unfold signBit hiddenBit
    omega
  rw [pattern, packComponents, hfields, BitVec.toNat_ofNat, BitVec.toNat_ofNat]
  unfold signBit hiddenBit at *
  cases negative with
  | false =>
    show 0 * _ + _ + _ = w
    omega
  | true =>
    show 1 * _ + _ + _ = _ + w
    omega

theorem exponentField_ne {w : Nat} (hw : w < infinityWord) :
    BitVec.ofNat 11 (w / hiddenBit) ≠ -1#11 := by
  intro h
  have hnat := congrArg BitVec.toNat h
  rw [BitVec.toNat_ofNat, show (-1#11).toNat = 2047 from rfl] at hnat
  unfold infinityWord hiddenBit at *
  omega

/-- A pattern is that of a finite number if its word is below that of infinity. -/
theorem isFinite_unpack_pattern (negative : Bool) {w : Nat} (hw : w < signBit) :
    (UnpackedFloat.unpack .binary64 (pattern negative w)).isFinite = true ↔ w < infinityWord := by
  by_cases hfinite : w < infinityWord
  · rw [pattern, unpack_packComponents _ _ (exponentField_ne hfinite), isFinite_unpackFields]
    exact iff_of_true rfl hfinite
  · have hones : BitVec.ofNat 11 (w / hiddenBit) = -1#11 := by
      refine BitVec.eq_of_toNat_eq ?_
      rw [BitVec.toNat_ofNat, show (-1#11).toNat = 2047 from rfl]
      unfold infinityWord hiddenBit signBit at *
      omega
    refine iff_of_false ?_ hfinite
    rw [pattern, unpack_eq, unpackExponent_packComponents, if_pos hones]
    split_ifs <;> exact Bool.false_ne_true

/-- Every pattern is that of its sign and its word. -/
theorem pattern_toNat (b : BitVec 64) :
    pattern (decide (signBit ≤ b.toNat)) (b.toNat % signBit) = b := by
  have hlt := b.isLt
  refine BitVec.eq_of_toNat_eq ?_
  rw [toNat_pattern _ (Nat.mod_lt _ (by decide))]
  unfold signBit
  split_ifs with h
  · have hle := of_decide_eq_true h
    omega
  · have hnle := of_decide_eq_false (Bool.eq_false_iff.mpr h)
    omega

/-! ## Numbers -/

theorem eq_of_toBits {x y : Float} (h : x.toBits = y.toBits) : x = y := by
  obtain ⟨⟨b, hb⟩⟩ := x
  obtain ⟨⟨c, hc⟩⟩ := y
  obtain rfl : b = c := h
  rfl

theorem pattern_magnitude (x : Float) :
    UInt64.ofBitVec (pattern (isNegative x) (magnitude x)) = x.toBits := by
  rw [isNegative, magnitude]
  exact congrArg UInt64.ofBitVec (pattern_toNat x.toBits.toBitVec)

/-- **The finite numbers are those whose magnitude is below that of infinity.** -/
theorem isFinite_iff (x : Float) : x.isFinite = true ↔ magnitude x < infinityWord := by
  have hpattern : x.toBits.toBitVec = pattern (isNegative x) (magnitude x) :=
    (congrArg UInt64.toBitVec (pattern_magnitude x)).symm
  have hlt : magnitude x < signBit := Nat.mod_lt _ (by decide)
  rw [← isFinite_unpack_pattern (isNegative x) hlt, ← hpattern]
  rfl

theorem toBits_ofMagnitude (negative : Bool) {w : Nat} (hw : w < infinityWord) :
    (ofMagnitude negative w).toBits = UInt64.ofBitVec (pattern negative w) := by
  have hlt : w < signBit := Nat.lt_trans hw (by decide)
  have hbits : (UInt64.ofNat (if negative then signBit + w else w)).toBitVec =
      pattern negative w := by
    refine BitVec.eq_of_toNat_eq ?_
    rw [toNat_pattern negative hlt]
    show (if negative then signBit + w else w) % 2 ^ 64 = _
    refine Nat.mod_eq_of_lt ?_
    unfold signBit at *
    split_ifs <;> omega
  show UInt64.ofBitVec (UnpackedFloat.pack .binary64 (UnpackedFloat.unpack .binary64 _)) = _
  rw [hbits, pattern, unpack_packComponents _ _ (exponentField_ne hw),
    pack_unpackFields _ _ (exponentField_ne hw)]

/-- **A finite number is put together again from its sign and its magnitude.** -/
theorem ofMagnitude_magnitude {x : Float} (h : magnitude x < infinityWord) :
    ofMagnitude (isNegative x) (magnitude x) = x :=
  eq_of_toBits ((toBits_ofMagnitude _ h).trans (pattern_magnitude x))

/-- **Negation keeps the magnitude and changes the sign.** -/
theorem neg_ofMagnitude (negative : Bool) {w : Nat} (hw : w < infinityWord) :
    -ofMagnitude negative w = ofMagnitude (!negative) w := by
  refine eq_of_toBits ?_
  have hbits : (ofMagnitude negative w).toBits.toBitVec = pattern negative w :=
    congrArg UInt64.toBitVec (toBits_ofMagnitude negative hw)
  rw [toBits_ofMagnitude _ hw]
  show UInt64.ofBitVec (UnpackedFloat.pack .binary64
    (UnpackedFloat.unpack .binary64 (ofMagnitude negative w).toBits.toBitVec).neg) = _
  rw [hbits, pattern, unpack_packComponents _ _ (exponentField_ne hw), neg_unpackFields,
    pack_unpackFields _ _ (exponentField_ne hw), pattern]
  cases negative <;> rfl

end Scriptlet.Number
