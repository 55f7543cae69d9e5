import Scriptlet.Number.Decimal
import Mathlib.Algebra.Order.Field.Power
import Mathlib.Algebra.Order.Field.Rat
import Mathlib.Data.Nat.Cast.Order.Field
import Mathlib.Tactic.FieldSimp
import Mathlib.Tactic.Linarith
import Mathlib.Tactic.Positivity
import Mathlib.Tactic.Ring

/-!
# Rounding depends on the value alone

A fraction is rounded by its numerator and denominator, and a decimal by its digits and exponent.
What comes of it depends on nothing but the rational number that they denote.

* `nearest_congr`: equal fractions have the same nearest word. `nearest_wordValue`: the value of a
  word is rounded to that word.
* `Decimal.value`: the number that a decimal denotes. `Decimal.toWord_congr`: decimals of the same
  value are read as the same word, although some are read without computing a fraction.
* `toWord_shortest`: the shortest decimal of a finite word reads back as that word.
-/

namespace Scriptlet.Number

/-! ## Fractions -/

theorem cast_scaleUp (n : Nat) (e : Int) : (scaleUp n e : ℚ) = n * 2 ^ e.toNat := by
  rw [scaleUp, Nat.shiftLeft_eq, Nat.cast_mul, Nat.cast_pow, Nat.cast_ofNat]

theorem scaleUp_pos {n : Nat} (h : 0 < n) (e : Int) : 0 < scaleUp n e := by
  rw [scaleUp, Nat.shiftLeft_eq]
  exact Nat.mul_pos h (Nat.two_pow_pos _)

/-- Scaling both sides of a fraction divides it by a power of two. -/
theorem scaleUp_div_scaleUp (num den : Nat) (e : Int) :
    (scaleUp num (-e) : ℚ) / scaleUp den e = num / den / 2 ^ e := by
  rw [cast_scaleUp, cast_scaleUp]
  obtain ⟨n, rfl | rfl⟩ := e.eq_nat_or_neg
  · have hzero : (-(n : Int)).toNat = 0 := by omega
    rw [hzero, pow_zero, mul_one, Int.toNat_natCast, zpow_natCast, div_div]
  · have hzero : (-(n : Int)).toNat = 0 := by omega
    rw [hzero, pow_zero, mul_one, neg_neg, Int.toNat_natCast, zpow_neg, zpow_natCast]
    rw [div_inv_eq_mul, div_mul_eq_mul_div]

/-- The integer that `floorLog2` gives is the binary logarithm, rounded down. -/
theorem floorLog2_spec {num den : Nat} (hnum : 0 < num) (hden : 0 < den) :
    (2 : ℚ) ^ floorLog2 num den ≤ num / den ∧ (num / den : ℚ) < 2 ^ (floorLog2 num den + 1) := by
  have hnum' : (0 : ℚ) < num := Nat.cast_pos.mpr hnum
  have hden' : (0 : ℚ) < den := Nat.cast_pos.mpr hden
  have hlow : (2 : ℚ) ^ (Nat.log2 num : Int) ≤ num := by
    rw [zpow_natCast]
    exact_mod_cast Nat.log2_self_le hnum.ne'
  have hhigh : (num : ℚ) < 2 ^ ((Nat.log2 num : Int) + 1) := by
    exact_mod_cast Nat.lt_log2_self
  have hlow' : (2 : ℚ) ^ (Nat.log2 den : Int) ≤ den := by
    rw [zpow_natCast]
    exact_mod_cast Nat.log2_self_le hden.ne'
  have hhigh' : (den : ℚ) < 2 ^ ((Nat.log2 den : Int) + 1) := by
    exact_mod_cast Nat.lt_log2_self
  obtain ⟨k, hk⟩ : ∃ k : Int, k = (Nat.log2 num : Int) - Nat.log2 den := ⟨_, rfl⟩
  have hbelow : (2 : ℚ) ^ (k - 1) ≤ num / den := by
    rw [le_div_iff₀ hden']
    calc (2 : ℚ) ^ (k - 1) * den ≤ 2 ^ (k - 1) * 2 ^ ((Nat.log2 den : Int) + 1) := by
          exact mul_le_mul_of_nonneg_left hhigh'.le (by positivity)
      _ = 2 ^ (Nat.log2 num : Int) := by
          rw [← zpow_add₀ (by norm_num)]
          congr 1
          omega
      _ ≤ num := hlow
  have habove : (num / den : ℚ) < 2 ^ (k + 1) := by
    rw [div_lt_iff₀ hden']
    calc (num : ℚ) < 2 ^ ((Nat.log2 num : Int) + 1) := hhigh
      _ = 2 ^ (k + 1) * 2 ^ (Nat.log2 den : Int) := by
          rw [← zpow_add₀ (by norm_num)]
          congr 1
          omega
      _ ≤ 2 ^ (k + 1) * den := mul_le_mul_of_nonneg_left hlow' (by positivity)
  have htest : scaleUp num (-k) < scaleUp den k ↔ (num / den : ℚ) < 2 ^ k := by
    have hpos : (0 : ℚ) < scaleUp den k := Nat.cast_pos.mpr (scaleUp_pos hden k)
    rw [← Nat.cast_lt (α := ℚ), ← div_lt_one hpos, scaleUp_div_scaleUp, div_lt_one (by positivity)]
  unfold floorLog2
  rw [← hk]
  dsimp only
  split
  · rename_i h
    rw [sub_add_cancel]
    exact ⟨hbelow, htest.mp h⟩
  · rename_i h
    exact ⟨not_lt.mp fun hlt => h (htest.mpr hlt), habove⟩

theorem le_floorLog2 {num den : Nat} (hnum : 0 < num) (hden : 0 < den) {k : Int}
    (h : (2 : ℚ) ^ k ≤ num / den) : k ≤ floorLog2 num den := by
  have hlt := h.trans_lt (floorLog2_spec hnum hden).2
  have hexp := (zpow_lt_zpow_iff_right₀ (one_lt_two (α := ℚ))).mp hlt
  omega

theorem floorLog2_lt {num den : Nat} (hnum : 0 < num) (hden : 0 < den) {k : Int}
    (h : (num / den : ℚ) < 2 ^ k) : floorLog2 num den < k :=
  (zpow_lt_zpow_iff_right₀ (one_lt_two (α := ℚ))).mp
    ((floorLog2_spec hnum hden).1.trans_lt h)

theorem floorLog2_eq {num den : Nat} (hnum : 0 < num) (hden : 0 < den) {k : Int}
    (hlow : (2 : ℚ) ^ k ≤ num / den) (hhigh : (num / den : ℚ) < 2 ^ (k + 1)) :
    floorLog2 num den = k := by
  have hle := le_floorLog2 hnum hden hlow
  have hlt := floorLog2_lt hnum hden hhigh
  omega

theorem roundDiv_mul {c : Nat} (hc : 0 < c) (a b : Nat) :
    roundDiv (a * c) (b * c) = roundDiv a b := by
  have hlt : ∀ x y : Nat, x * c < y * c ↔ x < y := fun x y => Nat.mul_lt_mul_right hc
  unfold roundDiv
  dsimp only
  rw [Nat.mul_div_mul_right _ _ hc, Nat.mul_mod_mul_right, ← Nat.mul_assoc]
  simp only [hlt]

/-- Equal fractions are rounded alike. -/
theorem roundDiv_congr {a b a' b' : Nat} (hb : 0 < b) (hb' : 0 < b')
    (h : (a / b : ℚ) = a' / b') : roundDiv a b = roundDiv a' b' := by
  have hcross : a * b' = a' * b := by
    have hb₀ : (b : ℚ) ≠ 0 := Nat.cast_ne_zero.mpr hb.ne'
    have hb₀' : (b' : ℚ) ≠ 0 := Nat.cast_ne_zero.mpr hb'.ne'
    rw [div_eq_div_iff hb₀ hb₀'] at h
    exact_mod_cast h
  rw [← roundDiv_mul hb' a b, hcross, Nat.mul_comm b b', roundDiv_mul hb]

theorem roundDiv_eq {a b n : Nat} (hb : 0 < b) (h : (a / b : ℚ) = n) : roundDiv a b = n := by
  have hone : roundDiv n 1 = n := by simp [roundDiv, Nat.mod_one]
  rw [← hone]
  exact roundDiv_congr hb Nat.one_pos (by rw [h, Nat.cast_one, div_one])

theorem div_le_roundDiv (a b : Nat) : a / b ≤ roundDiv a b := by
  unfold roundDiv
  dsimp only
  split_ifs <;> omega

theorem roundDiv_of_lt_half {a b : Nat} (h : 2 * a < b) : roundDiv a b = 0 := by
  have hlt : a < b := by omega
  rw [roundDiv, Nat.mod_eq_of_lt hlt, Nat.div_eq_of_lt hlt, if_pos h]

/-! ## Words -/

/-- The grid on which a fraction is rounded. -/
def gridExponent (num den : Nat) : Int := max (-1074) (floorLog2 num den - 52)

theorem nearest_eq {num den : Nat} (hnum : 0 < num) : nearest num den =
    min infinityWord (((gridExponent num den) + 1074).toNat * hiddenBit +
      roundDiv (scaleUp num (-gridExponent num den)) (scaleUp den (gridExponent num den))) := by
  rw [nearest, if_neg hnum.ne']
  rfl

/-- **Equal fractions have the same nearest word.** -/
theorem nearest_congr {num den num' den' : Nat} (hden : 0 < den) (hden' : 0 < den')
    (h : (num / den : ℚ) = num' / den') : nearest num den = nearest num' den' := by
  rcases Nat.eq_zero_or_pos num with rfl | hnum
  · have hnum' : num' = 0 := by
      rw [Nat.cast_zero, zero_div, eq_comm, div_eq_zero_iff] at h
      exact_mod_cast h.resolve_right (Nat.cast_ne_zero.mpr hden'.ne')
    rw [hnum', nearest, nearest, if_pos rfl, if_pos rfl]
  · have hnum' : 0 < num' := by
      rcases Nat.eq_zero_or_pos num' with rfl | hnum'
      · have hpos : (0 : ℚ) < num / den := div_pos (Nat.cast_pos.mpr hnum) (Nat.cast_pos.mpr hden)
        rw [h, Nat.cast_zero, zero_div] at hpos
        exact absurd hpos (lt_irrefl _)
      · exact hnum'
    have hlog : floorLog2 num den = floorLog2 num' den' := by
      obtain ⟨hlow, hhigh⟩ := floorLog2_spec hnum' hden'
      rw [← h] at hlow hhigh
      exact floorLog2_eq hnum hden hlow hhigh
    have hgrid : gridExponent num den = gridExponent num' den' := by
      rw [gridExponent, gridExponent, hlog]
    rw [nearest_eq hnum, nearest_eq hnum', hgrid]
    congr 2
    refine roundDiv_congr (scaleUp_pos hden _) (scaleUp_pos hden' _) ?_
    rw [scaleUp_div_scaleUp, scaleUp_div_scaleUp, h]

/-- The number that a finite word stands for. -/
def wordValue (w : Nat) : ℚ := significand w * 2 ^ exponent w

theorem cast_hiddenBit : (hiddenBit : ℚ) = 2 ^ (52 : Int) := by
  norm_num [hiddenBit]

theorem significand_lt (w : Nat) : significand w < 2 * hiddenBit := by
  have hmod := Nat.mod_lt w (show 0 < hiddenBit by decide)
  rw [significand]
  split <;> omega

/-- A positive word is rounded on its own grid. -/
theorem gridExponent_wordValue {num den w : Nat} (hnum : 0 < num) (hden : 0 < den)
    (h : (num / den : ℚ) = wordValue w) : gridExponent num den = exponent w := by
  have hpos : (0 : ℚ) < 2 ^ exponent w := by positivity
  rw [wordValue] at h
  rw [gridExponent]
  by_cases hw : w < hiddenBit
  · have hexp : exponent w = -1074 := by rw [exponent, if_pos hw]
    have hlt : (num / den : ℚ) < 2 ^ (-1022 : Int) := by
      have hcast : (w : ℚ) < hiddenBit := Nat.cast_lt.mpr hw
      calc (num / den : ℚ) = w * 2 ^ exponent w := by rw [h, significand, if_pos hw]
        _ < hiddenBit * 2 ^ exponent w := mul_lt_mul_of_pos_right hcast hpos
        _ = 2 ^ (-1022 : Int) := by
            rw [cast_hiddenBit, hexp, ← zpow_add₀ (by norm_num)]
            norm_num
    have hlog := floorLog2_lt hnum hden hlt
    omega
  · have hexp : exponent w = (w / hiddenBit : Nat) - 1075 := by rw [exponent, if_neg hw]
    have hfield : 1 ≤ w / hiddenBit :=
      (Nat.one_le_div_iff (by decide)).mpr (Nat.le_of_not_lt hw)
    have hlog : floorLog2 num den = 52 + exponent w := by
      refine floorLog2_eq hnum hden ?_ ?_
      · have hge : (hiddenBit : ℚ) ≤ significand w := by
          rw [significand, if_neg hw]
          exact Nat.cast_le.mpr (Nat.le_add_right _ _)
        rw [h, zpow_add₀ (by norm_num), ← cast_hiddenBit]
        exact mul_le_mul_of_nonneg_right hge hpos.le
      · have hlt : (significand w : ℚ) < 2 * hiddenBit := by exact_mod_cast significand_lt w
        calc (num / den : ℚ) = significand w * 2 ^ exponent w := h
          _ < 2 * hiddenBit * 2 ^ exponent w := mul_lt_mul_of_pos_right hlt hpos
          _ = 2 ^ (52 + exponent w + 1) := by
              rw [cast_hiddenBit, zpow_add_one₀ (by norm_num), zpow_add₀ (by norm_num)]
              ring
    omega

/-- **The value of a finite word is rounded to that word.** -/
theorem nearest_wordValue {num den w : Nat} (hden : 0 < den) (hw : w < infinityWord)
    (h : (num / den : ℚ) = wordValue w) : nearest num den = w := by
  have hden' : (den : ℚ) ≠ 0 := Nat.cast_ne_zero.mpr hden.ne'
  have hpow : (2 : ℚ) ^ exponent w ≠ 0 := by positivity
  rcases Nat.eq_zero_or_pos num with rfl | hnum
  · rw [Nat.cast_zero, zero_div, wordValue, eq_comm, mul_eq_zero] at h
    have hsig : significand w = 0 := Nat.cast_eq_zero.mp (h.resolve_right hpow)
    rw [nearest, if_pos rfl]
    rw [significand, hiddenBit] at hsig
    split at hsig <;> omega
  · have hquot : roundDiv (scaleUp num (-exponent w)) (scaleUp den (exponent w)) =
        significand w := by
      refine roundDiv_eq (scaleUp_pos hden _) ?_
      rw [scaleUp_div_scaleUp, h, wordValue, mul_div_cancel_right₀ _ hpow]
    rw [nearest_eq hnum, gridExponent_wordValue hnum hden h, hquot]
    have hsplit := Nat.div_add_mod w hiddenBit
    rw [exponent, significand]
    unfold infinityWord hiddenBit at *
    split <;> omega

/-- What is at least `2 ^ 1024` is rounded to infinity. -/
theorem nearest_of_large {num den : Nat} (hnum : 0 < num) (hden : 0 < den)
    (h : (2 : ℚ) ^ (1024 : Int) ≤ num / den) : nearest num den = infinityWord := by
  have hlog := le_floorLog2 hnum hden h
  have hgrid : gridExponent num den = floorLog2 num den - 52 := by
    rw [gridExponent]
    omega
  have hquot : hiddenBit ≤ roundDiv (scaleUp num (-gridExponent num den))
      (scaleUp den (gridExponent num den)) := by
    refine le_trans ?_ (div_le_roundDiv _ _)
    rw [Nat.le_div_iff_mul_le (scaleUp_pos hden _)]
    have hscaled : (hiddenBit : ℚ) ≤ num / den / 2 ^ gridExponent num den := by
      rw [le_div_iff₀ (by positivity), cast_hiddenBit, ← zpow_add₀ (by norm_num), hgrid]
      refine le_trans (le_of_eq ?_) (floorLog2_spec hnum hden).1
      congr 1
      omega
    rw [← scaleUp_div_scaleUp, le_div_iff₀ (Nat.cast_pos.mpr (scaleUp_pos hden _))] at hscaled
    exact_mod_cast hscaled
  rw [nearest_eq hnum]
  refine Nat.min_eq_left ?_
  have hfield : 2046 ≤ (gridExponent num den + 1074).toNat := by omega
  have hmul := Nat.mul_le_mul_right hiddenBit hfield
  unfold infinityWord
  omega

/-- What is below `2 ^ (-1075)` is rounded to zero. -/
theorem nearest_of_small {num den : Nat} (hden : 0 < den)
    (h : (num / den : ℚ) < 2 ^ (-1075 : Int)) : nearest num den = 0 := by
  rcases Nat.eq_zero_or_pos num with rfl | hnum
  · rw [nearest, if_pos rfl]
  · have hlog := floorLog2_lt hnum hden h
    have hgrid : gridExponent num den = -1074 := by
      rw [gridExponent]
      omega
    rw [nearest_eq hnum, hgrid]
    have hhalf : 2 * scaleUp num (- -1074) < scaleUp den (-1074) := by
      have hscaled : (num / den / 2 ^ (-1074 : Int) : ℚ) < 1 / 2 := by
        rw [div_lt_iff₀ (by positivity)]
        rw [one_div, ← zpow_neg_one, ← zpow_add₀ (by norm_num)]
        exact h
      rw [← scaleUp_div_scaleUp, div_lt_div_iff₀ (Nat.cast_pos.mpr (scaleUp_pos hden _)) two_pos]
        at hscaled
      have hnat : scaleUp num (- -1074) * 2 < 1 * scaleUp den (-1074) := by exact_mod_cast hscaled
      omega
    rw [roundDiv_of_lt_half hhalf]
    rfl

/-! ## Decimals -/

namespace Decimal

/-- The number that a decimal denotes. -/
def value (d : Decimal) : ℚ := d.digits * 10 ^ d.exponent

theorem value_eq_div (d : Decimal) : d.value =
    ((d.digits * Nat.pow 10 d.exponent.toNat : Nat) : ℚ) /
      (Nat.pow 10 (-d.exponent).toNat : Nat) := by
  obtain ⟨n, hn | hn⟩ := d.exponent.eq_nat_or_neg
  · have hzero : (-(n : Int)).toNat = 0 := by omega
    rw [value, hn, hzero, Int.toNat_natCast, zpow_natCast]
    simp
  · have hzero : (-(n : Int)).toNat = 0 := by omega
    rw [value, hn, hzero, neg_neg, Int.toNat_natCast, zpow_neg, zpow_natCast]
    simp [div_eq_mul_inv]

/-- A decimal whose power of ten is large is at least `2 ^ 1024`. -/
theorem value_large {d : Decimal} (hdigits : 0 < d.digits) (h : 342 ≤ d.exponent) :
    (2 : ℚ) ^ (1024 : Int) ≤ d.value := by
  have hone : (1 : ℚ) ≤ d.digits := Nat.one_le_cast.mpr hdigits
  calc (2 : ℚ) ^ (1024 : Int) ≤ 2 ^ (9 * 114 : Int) := zpow_le_zpow_right₀ (by norm_num) (by decide)
    _ = (2 ^ 9) ^ 114 := zpow_mul 2 9 114
    _ ≤ (10 ^ 3) ^ 114 := pow_le_pow_left₀ (by norm_num) (by norm_num) 114
    _ = 10 ^ (342 : Int) := (zpow_mul 10 3 114).symm
    _ ≤ 10 ^ d.exponent := zpow_le_zpow_right₀ (by norm_num) h
    _ ≤ d.value := le_mul_of_one_le_left (by positivity) hone

/-- A decimal is below the power of two that bounds its digits, times the power of eight that
bounds its power of ten. -/
theorem value_small {d : Decimal}
    (h : (Nat.log2 d.digits : Int) + 1 + 3 * d.exponent < -1075) :
    d.value < 2 ^ (-1075 : Int) := by
  have hdigits : (d.digits : ℚ) < 2 ^ ((Nat.log2 d.digits : Int) + 1) := by
    exact_mod_cast Nat.lt_log2_self
  have hten : (10 : ℚ) ^ d.exponent ≤ 2 ^ (3 * d.exponent) := by
    obtain ⟨n, hn⟩ : ∃ n : Nat, d.exponent = -n := ⟨(-d.exponent).toNat, by omega⟩
    rw [zpow_mul, hn, zpow_neg, zpow_neg, zpow_natCast, zpow_natCast]
    refine inv_anti₀ (by positivity) (pow_le_pow_left₀ (by positivity) ?_ n)
    norm_num
  calc d.value < 2 ^ ((Nat.log2 d.digits : Int) + 1) * 10 ^ d.exponent :=
        mul_lt_mul_of_pos_right hdigits (by positivity)
    _ ≤ 2 ^ ((Nat.log2 d.digits : Int) + 1) * 2 ^ (3 * d.exponent) :=
        mul_le_mul_of_nonneg_left hten (by positivity)
    _ = 2 ^ ((Nat.log2 d.digits : Int) + 1 + 3 * d.exponent) :=
        (zpow_add₀ (by norm_num) _ _).symm
    _ ≤ 2 ^ (-1075 : Int) := zpow_le_zpow_right₀ (by norm_num) h.le

/-- The decimals that are read without computing a fraction are read as if it had been
computed. -/
theorem toWord_eq_nearest (d : Decimal) : d.toWord =
    nearest (d.digits * Nat.pow 10 d.exponent.toNat) (Nat.pow 10 (-d.exponent).toNat) := by
  have hden : 0 < Nat.pow 10 (-d.exponent).toNat := Nat.pow_pos (by decide)
  unfold toWord
  split_ifs with hzero hlarge hsmall
  · rw [hzero, Nat.zero_mul, nearest, if_pos rfl]
  · have hdigits := Nat.pos_of_ne_zero hzero
    refine (nearest_of_large (Nat.mul_pos hdigits (Nat.pow_pos (by decide))) hden ?_).symm
    exact (value_large hdigits hlarge).trans_eq d.value_eq_div
  · exact (nearest_of_small hden (d.value_eq_div.symm.trans_lt (value_small hsmall))).symm
  · rfl

/-- **Decimals of the same value are read as the same word.** -/
theorem toWord_congr {d d' : Decimal} (h : d.value = d'.value) : d.toWord = d'.toWord := by
  rw [toWord_eq_nearest, toWord_eq_nearest]
  refine nearest_congr (Nat.pow_pos (by decide)) (Nat.pow_pos (by decide)) ?_
  rw [← value_eq_div, ← value_eq_div, h]

theorem toWord_of_wordValue {d : Decimal} {w : Nat} (hw : w < infinityWord)
    (h : d.value = wordValue w) : d.toWord = w := by
  rw [toWord_eq_nearest]
  exact nearest_wordValue (Nat.pow_pos (by decide)) hw (d.value_eq_div.symm.trans h)

theorem value_trim (d : Decimal) : d.trim.value = d.value := by
  fun_induction trim d with
  | case1 d hzero => rw [value, value, hzero, Nat.cast_zero, zero_mul, zero_mul]
  | case2 d hzero hmod ih =>
    obtain ⟨n, hn⟩ := Nat.dvd_of_mod_eq_zero hmod
    rw [ih, value, value, hn, Nat.mul_div_cancel_left n (by decide), zpow_add_one₀ (by norm_num)]
    push_cast
    ring
  | case3 d hzero hmod => rfl

end Decimal

theorem value_exactDecimal (w : Nat) : (exactDecimal w).value = wordValue w := by
  unfold exactDecimal wordValue Decimal.value
  dsimp only
  split_ifs with he
  · rw [cast_scaleUp, zpow_zero, mul_one, ← zpow_natCast, Int.toNat_of_nonneg he]
  · obtain ⟨n, hn⟩ : ∃ n : Nat, exponent w = -n := ⟨(-exponent w).toNat, by omega⟩
    rw [hn, neg_neg, Int.toNat_natCast, zpow_neg, zpow_neg, zpow_natCast, zpow_natCast]
    have hten : (10 : ℚ) ^ n = 5 ^ n * 2 ^ n := by
      rw [← mul_pow]
      norm_num
    have hfive : (5 : ℚ) ^ n ≠ 0 := by positivity
    have htwo : (2 : ℚ) ^ n ≠ 0 := by positivity
    simp only [Nat.pow_eq, Nat.cast_mul, Nat.cast_pow, Nat.cast_ofNat]
    rw [hten]
    field_simp

theorem toWord_of_onGrid? {w : Nat} {i : Int} {d : Decimal} (h : onGrid? w i = some d) :
    d.toWord = w := by
  unfold onGrid? at h
  dsimp only at h
  split_ifs at h with hlow hhigh
  · obtain rfl := Option.some.inj h
    rw [Bool.and_eq_true] at hlow
    exact of_decide_eq_true hlow.1
  · obtain rfl := Option.some.inj h
    exact of_decide_eq_true hhigh

theorem toWord_of_searchGrids {w n : Nat} {i : Int} {d : Decimal}
    (h : searchGrids w n i = some d) : d.toWord = w := by
  fun_induction searchGrids w n i with
  | case1 i => cases h
  | case2 n i d' hd' =>
    obtain rfl := Option.some.inj h
    exact toWord_of_onGrid? hd'
  | case3 n i hnone ih => exact ih h

/-- **The shortest decimal of a finite word reads back as that word.** -/
theorem toWord_shortest {w : Nat} (hw : w < infinityWord) : (shortest w).toWord = w := by
  rw [shortest, Decimal.toWord_congr (Decimal.value_trim _)]
  cases h : searchGrids w 20 (topGrid w) with
  | none => exact Decimal.toWord_of_wordValue hw (value_exactDecimal w)
  | some d => exact toWord_of_searchGrids h

end Scriptlet.Number
