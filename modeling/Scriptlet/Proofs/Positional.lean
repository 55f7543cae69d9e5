import Scriptlet.Number.Style
import Scriptlet.Proofs.Numerals
import Scriptlet.Proofs.Rounding

/-!
# Positional texts are numerals

The layout of a decimal and the reader of numerals know nothing of each other. Here they meet in
`Numeral`, the plain digits with at most one point and the decimal they denote as they stand.

* `Numeral.isNumber`, `Numeral.readChars?`: a numeral has the form of a number literal, and it is
  read as the word of its decimal.
* `Decimal.PointFalls`: where the point of a positional text falls. `Decimal.exists_numeral`:
  wherever that is, the text is a numeral of the value of the decimal.
* `lexeme_positional_shortest`: so the positional text of the shortest decimal of a finite word is a
  literal of that word.
-/

namespace Scriptlet.Number

/-! ## Numerals -/

/-- `Numeral w d`: the text is made of plain digits, with a point behind the first of them or
without one, and denotes the decimal. -/
inductive Numeral : List Char → Decimal → Prop
  | whole {whole : List Char} : whole ≠ [] → (∀ c ∈ whole, c.isDigit = true) →
      Numeral whole ⟨Nat.ofDigitChars 10 whole 0, 0⟩
  | fraction {whole fraction : List Char} : whole ≠ [] → (∀ c ∈ whole, c.isDigit = true) →
      (∀ c ∈ fraction, c.isDigit = true) →
      Numeral (whole ++ '.' :: fraction)
        ⟨Nat.ofDigitChars 10 (whole ++ fraction) 0, -fraction.length⟩

namespace Numeral

variable {w : List Char} {d : Decimal}

theorem decimal? (h : Numeral w d) : decimal? w = some d := by
  cases h with
  | whole hne hwhole => exact decimal?_whole hwhole hne
  | fraction hne hwhole hfraction => exact decimal?_fraction hwhole hfraction hne

theorem chars (h : Numeral w d) : ∀ c ∈ w, c.isDigit = true ∨ c = '.' := by
  cases h with
  | whole _ hwhole => exact fun c hc => .inl (hwhole c hc)
  | fraction _ hwhole hfraction =>
    intro c hc
    rcases List.mem_append.mp hc with hc | hc
    · exact .inl (hwhole c hc)
    · rcases List.mem_cons.mp hc with rfl | hc
      · exact .inr rfl
      · exact .inl (hfraction c hc)

theorem count_point (h : Numeral w d) : w.count '.' ≤ 1 := by
  have hnone : ∀ {cs : List Char}, (∀ c ∈ cs, c.isDigit = true) → cs.count '.' = 0 := by
    intro cs hcs
    exact List.count_eq_zero.mpr fun hmem => absurd (hcs _ hmem) (by decide)
  cases h with
  | whole _ hwhole => rw [hnone hwhole]; exact Nat.zero_le 1
  | fraction _ hwhole hfraction =>
    rw [List.count_append, List.count_cons_self, hnone hwhole, hnone hfraction]

theorem exists_cons (h : Numeral w d) : ∃ c cs, w = c :: cs ∧ c.isDigit = true := by
  cases h with
  | @whole whole hne hwhole =>
    obtain ⟨c, cs, rfl⟩ := List.exists_cons_of_ne_nil hne
    exact ⟨c, cs, rfl, hwhole c List.mem_cons_self⟩
  | @fraction whole fraction hne hwhole _ =>
    obtain ⟨c, cs, rfl⟩ := List.exists_cons_of_ne_nil hne
    exact ⟨c, cs ++ '.' :: fraction, rfl, hwhole c List.mem_cons_self⟩

theorem numberChars (h : Numeral w d) : NumberChars w :=
  ⟨fun c hc => (h.chars c hc).imp_right .inr, h.count_point⟩

theorem isNumber (h : Numeral w d) : IsNumber w := ⟨h.exists_cons, h.numberChars⟩

/-- **A numeral is read as the word of its decimal.** -/
theorem readChars? (h : Numeral w d) : readChars? w = some (ofMagnitude false d.toWord) := by
  have hunderscore : '_' ∉ w := by
    intro hmem
    rcases h.chars _ hmem with hdigit | heq
    · exact absurd hdigit (by decide)
    · exact absurd heq (by decide)
  obtain ⟨c, cs, hcons, hdigit⟩ := h.exists_cons
  obtain ⟨d', hd', hread⟩ := readChars?_of_separating h.numberChars
    ⟨c, by rw [hcons]; rfl, hdigit⟩ (.of_not_mem hunderscore)
  rw [deleteUnderscores_eq_self hunderscore, h.decimal?] at hd'
  rw [hread, Option.some.inj hd']

end Numeral

/-! ## Where the point falls -/

namespace Decimal

theorem isDigit_of_mem_replicate {n : Nat} {c : Char} (h : c ∈ List.replicate n '0') :
    c.isDigit = true := by
  rw [List.eq_of_mem_replicate h]
  rfl

theorem isDigit_of_mem_toDigits {n : Nat} {c : Char} (h : c ∈ Nat.toDigits 10 n) :
    c.isDigit = true :=
  Nat.isDigit_of_mem_toDigits (by decide) (by decide) h

/-- Digits that a power of ten follows are followed by as many zeros. -/
theorem value_ofDigitChars_append_zeros (digits : List Char) (n : Nat) (e : Int) :
    value ⟨Nat.ofDigitChars 10 (digits ++ List.replicate n '0') 0, e⟩ =
      value ⟨Nat.ofDigitChars 10 digits 0, n + e⟩ := by
  rw [Nat.ofDigitChars_append, Nat.ofDigitChars_replicate_zero, value, value,
    zpow_add₀ (by norm_num), zpow_natCast]
  push_cast
  ring

theorem ofDigitChars_zeros_append (n : Nat) (digits : List Char) :
    Nat.ofDigitChars 10 ('0' :: (List.replicate n '0' ++ digits)) 0 =
      Nat.ofDigitChars 10 digits 0 := by
  rw [Nat.ofDigitChars_cons, Nat.ofDigitChars_append, Nat.ofDigitChars_replicate_zero]
  rfl

/-- Where the point of a text falls: behind zeros that follow the digits, among the digits, or in
front of zeros that the digits follow. -/
inductive PointFalls (digits : List Char) : Int → List Char → Prop
  | behind (n : Nat) : PointFalls digits n (digits ++ List.replicate n '0')
  | among {n : Nat} : 0 < n → n < digits.length →
      PointFalls digits (n - digits.length) (digits.take n ++ '.' :: digits.drop n)
  | before (n : Nat) :
      PointFalls digits (-(n + digits.length)) (['0'] ++ '.' :: (List.replicate n '0' ++ digits))

theorem positional_pointFalls (d : Decimal) :
    PointFalls (Nat.toDigits 10 d.digits) d.exponent (d.positional false) := by
  obtain ⟨digits, hdigits⟩ : ∃ digits, digits = Nat.toDigits 10 d.digits := ⟨_, rfl⟩
  unfold positional
  rw [← hdigits, if_neg Bool.false_ne_true]
  dsimp only
  split_ifs with hexponent hpoint
  · have hfalls : PointFalls digits _ _ := .behind d.exponent.toNat
    rw [Int.toNat_of_nonneg hexponent] at hfalls
    rw [List.append_nil]
    exact hfalls
  · have hfalls : PointFalls digits _ _ :=
      .among (n := ((digits.length : Int) + d.exponent).toNat) (by omega) (by omega)
    rw [Int.toNat_of_nonneg hpoint.le, add_sub_cancel_left] at hfalls
    exact hfalls
  · have hfalls : PointFalls digits _ _ :=
      .before (-((digits.length : Int) + d.exponent)).toNat
    rw [Int.toNat_of_nonneg (by omega)] at hfalls
    have hlength : -(-((digits.length : Int) + d.exponent) + digits.length) = d.exponent := by omega
    rw [hlength] at hfalls
    exact hfalls

/-- With the point among the digits or in front of them, the text is a numeral of just these
digits. -/
theorem PointFalls.numeral {digits text : List Char} {e : Int} (h : PointFalls digits e text)
    (hne : digits ≠ []) (hdigit : ∀ c ∈ digits, c.isDigit = true) (he : e < 0) :
    Numeral text ⟨Nat.ofDigitChars 10 digits 0, e⟩ := by
  cases h with
  | behind n => exact absurd he (not_lt.mpr n.cast_nonneg)
  | @among n hpos hlt =>
    have htake : digits.take n ≠ [] := by
      rw [ne_eq, List.take_eq_nil_iff, not_or]
      exact ⟨by omega, hne⟩
    have hdrop : ∀ c ∈ digits.drop n, c.isDigit = true := fun c hc =>
      hdigit c (List.mem_of_mem_drop hc)
    have hnumeral := Numeral.fraction htake (fun c hc => hdigit c (List.mem_of_mem_take hc)) hdrop
    rw [List.take_append_drop, List.length_drop, Nat.cast_sub hlt.le, neg_sub] at hnumeral
    exact hnumeral
  | before n =>
    have hfraction : ∀ c ∈ List.replicate n '0' ++ digits, c.isDigit = true := fun c hc =>
      (List.mem_append.mp hc).elim isDigit_of_mem_replicate (hdigit c)
    have hnumeral := Numeral.fraction (List.cons_ne_nil '0' []) (by simp) hfraction
    rw [List.singleton_append, List.singleton_append, ofDigitChars_zeros_append,
      List.length_append, List.length_replicate, Nat.cast_add] at hnumeral
    exact hnumeral

/-- Wherever the point falls, the text is a numeral of the value of its digits. -/
theorem PointFalls.exists_numeral {digits text : List Char} {e : Int} (h : PointFalls digits e text)
    (hne : digits ≠ []) (hdigit : ∀ c ∈ digits, c.isDigit = true) :
    ∃ d, Numeral text d ∧ d.value = value ⟨Nat.ofDigitChars 10 digits 0, e⟩ := by
  have hlength := List.length_pos_of_ne_nil hne
  by_cases he : e < 0
  · exact ⟨_, h.numeral hne hdigit he, rfl⟩
  · cases h with
    | behind n =>
      refine ⟨_, .whole (List.append_ne_nil_of_left_ne_nil hne _) fun c hc => ?_, ?_⟩
      · exact (List.mem_append.mp hc).elim (hdigit c) isDigit_of_mem_replicate
      · rw [value_ofDigitChars_append_zeros, add_zero]
    | among hpos hlt => omega
    | before n => omega

/-- **The positional text of a decimal is a numeral of its value.** -/
theorem exists_numeral (d : Decimal) :
    ∃ d', Numeral (d.positional false) d' ∧ d'.value = d.value := by
  obtain ⟨d', hnumeral, hvalue⟩ := d.positional_pointFalls.exists_numeral Nat.toDigits_ne_nil
    fun _ => isDigit_of_mem_toDigits
  rw [Nat.ofDigitChars_ten_toDigits] at hvalue
  exact ⟨d', hnumeral, hvalue⟩

end Decimal

/-- The text of a finite number: its sign and the digits of its magnitude. -/
theorem Style.toList_write (s : Style) {v : Float} (h : magnitude v < infinityWord) :
    (s.write v).toList =
      (if isNegative v then ['-'] else []) ++ s.layOut (shortest (magnitude v)) := by
  rw [write, if_neg (by omega), String.toList_ofList, magnitudeText, if_pos h]

/-- **The positional text of the shortest decimal of a finite word is a literal of that word.** -/
theorem lexeme_positional_shortest {w : Nat} (hw : w < infinityWord) :
    Lexeme .number ((shortest w).positional false) (.number (ofMagnitude false w)) := by
  obtain ⟨d, hnumeral, hvalue⟩ := (shortest w).exists_numeral
  refine .number hnumeral.isNumber ?_
  rw [hnumeral.readChars?, Decimal.toWord_congr hvalue, toWord_shortest hw]

end Scriptlet.Number
