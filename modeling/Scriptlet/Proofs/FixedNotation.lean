import Mathlib.Data.List.DropRight
import Scriptlet.Number.Style
import Scriptlet.Proofs.Positional
import Scriptlet.Proofs.Words

/-!
# Printed numbers in fixed notation

Programs print numbers positionally and without idle zeros. Messages show the same numbers with a
point or an exponent in them. The two layouts are compared by what their texts denote, exactly and
before any rounding.

* `denotation?`: the sign and the magnitude that a text denotes.
* `Decimal.decimal?_scientific`, `Decimal.positional_spells`: whatever the layout, the text of a
  decimal denotes the value of the decimal. So all styles write the same number
  (`Style.denotation?_write`), and different numbers differently (`Style.write_injective`).
* `FixedNotation`: no exponent, no zero in front of other digits, none at the end of a fraction.
  `Decimal.isPlain_positional`: the positional text of a decimal whose digits do not end in a zero
  is of this form.
* `Decimal.fixed_eq_positional`, `stripFraction_of_isPlain`, `stripFraction_point_zero`: what the
  steps of printing do to a shown text. `printed?_eq`: in the end every number has a printed text,
  and that is the positional one.

`numbers_print_in_fixed_notation` puts these together.
-/

namespace Scriptlet

namespace Number

/-! ## What a text denotes -/

/-- The sign and the magnitude that a text denotes, as it stands and before it is rounded. -/
def denotation? (text : List Char) : Option (Bool × ℚ) :=
  (decimal? (splitSign text).2).map fun d => ((splitSign text).1, d.value)

/-- `Spells text q`: an unsigned text, which starts with a digit, denotes the magnitude. -/
def Spells (text : List Char) (q : ℚ) : Prop :=
  (∃ c ∈ text.head?, c.isDigit = true) ∧ ∃ d, decimal? text = some d ∧ d.value = q

theorem splitSign_sign {text : List Char} (h : ∃ c ∈ text.head?, c.isDigit = true)
    (negative : Bool) :
    splitSign ((if negative then ['-'] else []) ++ text) = (negative, text) := by
  cases negative with
  | false => exact splitSign_of_digit h
  | true => rfl

theorem Spells.denotation?_sign {text : List Char} {q : ℚ} (h : Spells text q) (negative : Bool) :
    denotation? ((if negative then ['-'] else []) ++ text) = some (negative, q) := by
  obtain ⟨hhead, d, hd, rfl⟩ := h
  rw [denotation?, splitSign_sign hhead, hd]
  rfl

theorem Numeral.spells {text : List Char} {d : Decimal} (h : Numeral text d) :
    Spells text d.value := by
  obtain ⟨c, cs, rfl, hdigit⟩ := h.exists_cons
  exact ⟨⟨c, rfl, hdigit⟩, d, h.decimal?, rfl⟩

/-! ## Texts with an exponent -/

/-- A letter, a sign and digits are an exponent, with idle zeros among them or without. -/
theorem exponentPart?_power (power : Int) (n : Nat) :
    exponentPart? ('e' :: (if power < 0 then '-' else '+') ::
      (List.replicate n '0' ++ Nat.toDigits 10 power.natAbs)) = some power := by
  obtain ⟨digits, hdigits⟩ :
      ∃ digits, digits = List.replicate n '0' ++ Nat.toDigits 10 power.natAbs := ⟨_, rfl⟩
  have hread : digits ≠ [] ∧ digits.all Char.isDigit = true := by
    rw [hdigits, List.all_eq_true]
    refine ⟨List.append_ne_nil_of_right_ne_nil _ Nat.toDigits_ne_nil, fun c hc => ?_⟩
    exact (List.mem_append.mp hc).elim Decimal.isDigit_of_mem_replicate
      Decimal.isDigit_of_mem_toDigits
  have hvalue : Nat.ofDigitChars 10 digits 0 = power.natAbs := by
    rw [hdigits, Nat.ofDigitChars_append, Nat.ofDigitChars_replicate_zero, Nat.mul_zero,
      Nat.ofDigitChars_ten_toDigits]
  have hsign : splitSign ((if power < 0 then '-' else '+') :: digits) =
      (decide (power < 0), digits) := by
    split_ifs with hpower
    · rw [decide_eq_true hpower]
      rfl
    · rw [decide_eq_false hpower]
      rfl
  rw [← hdigits, exponentPart?, if_pos (.inl rfl), hsign]
  dsimp only
  rw [if_pos hread, hvalue, Option.some.injEq]
  split_ifs with hpower
  · have := of_decide_eq_true hpower
    omega
  · have := of_decide_eq_false (eq_false_of_ne_true hpower)
    omega

/-- Digits, a point if more digits follow, and an exponent. -/
theorem decimal?_exponent {whole fraction tail : List Char} {e : Int} (hne : whole ≠ [])
    (hwhole : ∀ c ∈ whole, c.isDigit = true) (hfraction : ∀ c ∈ fraction, c.isDigit = true)
    (htail : exponentPart? ('e' :: tail) = some e) :
    decimal? (whole ++ (if fraction.isEmpty then [] else '.' :: fraction) ++ 'e' :: tail) =
      some ⟨Nat.ofDigitChars 10 (whole ++ fraction) 0, e - fraction.length⟩ := by
  have hletter : ∀ c ∈ ('e' :: tail).head?, c.isDigit = false := by
    rintro c ⟨⟩
    rfl
  cases fraction with
  | nil =>
    obtain ⟨htake, hdrop⟩ := takeWhile_digits hwhole hletter
    simp [decimal?, htake, hdrop, splitFraction, htail, hne]
  | cons c cs =>
    have hpoint : ∀ c' ∈ ('.' :: (c :: cs ++ 'e' :: tail)).head?, c'.isDigit = false := by
      rintro c' ⟨⟩
      rfl
    obtain ⟨htake, hdrop⟩ := takeWhile_digits hwhole hpoint
    obtain ⟨htake', hdrop'⟩ := takeWhile_digits hfraction hletter
    rw [List.isEmpty_cons, if_neg Bool.false_ne_true, List.append_assoc, List.cons_append]
    simp only [decimal?, htake, hdrop, splitFraction, reduceIte, htake', hdrop', htail]
    rw [if_neg fun h => hne h.1]

namespace Decimal

/-- **A decimal is read back from its scientific layout.** -/
theorem decimal?_scientific (d : Decimal) : decimal? d.scientific = some d := by
  have hlength := Nat.length_toDigits_pos (b := 10) (n := d.digits)
  have hne : (Nat.toDigits 10 d.digits).take 1 ≠ [] := by
    rw [ne_eq, List.take_eq_nil_iff, not_or]
    exact ⟨Nat.one_ne_zero, Nat.toDigits_ne_nil⟩
  unfold scientific
  rw [decimal?_exponent hne (fun c hc => isDigit_of_mem_toDigits (List.mem_of_mem_take hc))
    (fun c hc => isDigit_of_mem_toDigits (List.mem_of_mem_drop hc)) (exponentPart?_power ..),
    List.take_append_drop, Nat.ofDigitChars_ten_toDigits, List.length_drop]
  congr 2
  omega

theorem scientific_spells (d : Decimal) : Spells d.scientific d.value := by
  refine ⟨?_, d, d.decimal?_scientific, rfl⟩
  have hne : Nat.toDigits 10 d.digits ≠ [] := Nat.toDigits_ne_nil
  obtain ⟨c, cs, hcons⟩ := List.exists_cons_of_ne_nil hne
  refine ⟨c, ?_, isDigit_of_mem_toDigits (hcons ▸ List.mem_cons_self)⟩
  rw [scientific, hcons]
  rfl

/-! ## Positional texts -/

/-- Without digits behind the point, zeros reach to it. -/
theorem positional_of_nonneg {d : Decimal} (h : 0 ≤ d.exponent) (keepPoint : Bool) :
    d.positional keepPoint = Nat.toDigits 10 d.digits ++ List.replicate d.exponent.toNat '0' ++
      (if keepPoint then ['.', '0'] else []) := by
  rw [positional, if_pos h]

/-- Digits behind the point keep it anyway. -/
theorem positional_of_neg {d : Decimal} (h : ¬ 0 ≤ d.exponent) (keepPoint : Bool) :
    d.positional keepPoint = d.positional false := by
  rw [positional, positional, if_neg h, if_neg h]

theorem positional_true {d : Decimal} (h : 0 ≤ d.exponent) :
    d.positional true = d.positional false ++ ['.', '0'] := by
  rw [positional_of_nonneg h, positional_of_nonneg h, if_pos rfl, if_neg Bool.false_ne_true,
    List.append_nil]

/-- A positional text without a point is made of digits. -/
theorem digits_positional {d : Decimal} (h : 0 ≤ d.exponent) :
    d.positional false ≠ [] ∧ ∀ c ∈ d.positional false, c.isDigit = true := by
  rw [positional_of_nonneg h, if_neg Bool.false_ne_true, List.append_nil]
  refine ⟨List.append_ne_nil_of_left_ne_nil Nat.toDigits_ne_nil _, fun c hc => ?_⟩
  exact (List.mem_append.mp hc).elim isDigit_of_mem_toDigits isDigit_of_mem_replicate

/-- One more zero behind a positional text without a point, as in front of it. -/
theorem positional_append_zero {d : Decimal} (h : 0 ≤ d.exponent) :
    d.positional false ++ ['0'] =
      Nat.toDigits 10 d.digits ++ List.replicate (d.exponent.toNat + 1) '0' := by
  rw [positional_of_nonneg h, if_neg Bool.false_ne_true, List.append_nil, List.append_assoc,
    ← List.replicate_succ']

theorem numeral_positional_true {d : Decimal} (h : 0 ≤ d.exponent) :
    Numeral (d.positional true) ⟨Nat.ofDigitChars 10 (d.positional false ++ ['0']) 0, -1⟩ := by
  obtain ⟨hne, hdigit⟩ := digits_positional h
  rw [positional_true h]
  exact .fraction hne hdigit (by simp)

/-- **Whether the point is kept or not, a positional text denotes the value of the decimal.** -/
theorem positional_spells (keepPoint : Bool) (d : Decimal) :
    Spells (d.positional keepPoint) d.value := by
  by_cases h : keepPoint = true ∧ 0 ≤ d.exponent
  · -- zeros reach to the point, and one more stands behind it
    obtain ⟨rfl, hexponent⟩ := h
    have hspells := (numeral_positional_true hexponent).spells
    have hvalue : ((d.exponent.toNat + 1 : Nat) : Int) + -1 = d.exponent := by omega
    rw [positional_append_zero hexponent, value_ofDigitChars_append_zeros,
      Nat.ofDigitChars_ten_toDigits, hvalue] at hspells
    exact hspells
  · -- no point, or one that is kept anyway
    have htext : d.positional keepPoint = d.positional false := by
      rcases not_and_or.mp h with hpoint | hexponent
      · rw [Bool.not_eq_true] at hpoint
        rw [hpoint]
      · exact positional_of_neg hexponent keepPoint
    obtain ⟨d', hnumeral, hvalue⟩ := d.exists_numeral
    rw [htext, ← hvalue]
    exact hnumeral.spells

end Decimal

theorem Style.layOut_spells (s : Style) (d : Decimal) : Spells (s.layOut d) d.value := by
  unfold layOut
  cases s.positional with
  | none => exact d.positional_spells s.keepPoint
  | some bounds =>
    dsimp only
    split_ifs
    · exact d.positional_spells s.keepPoint
    · exact d.scientific_spells

/-- **All styles write the same number**, with its sign. -/
theorem Style.denotation?_write (s : Style) {v : Float} (h : magnitude v < infinityWord) :
    denotation? (s.write v).toList = some (isNegative v, (shortest (magnitude v)).value) := by
  rw [s.toList_write h]
  exact (s.layOut_spells _).denotation?_sign (isNegative v)

/-! ## The normal form -/

/-- Digits in front of a point: a zero alone, or digits that do not start with a zero. -/
def IsWhole (digits : List Char) : Prop :=
  digits = ['0'] ∨
    digits ≠ [] ∧ (∀ c ∈ digits, c.isDigit = true) ∧ digits.head? ≠ some '0'

/-- Digits behind a point: they do not end in a zero. -/
def IsFraction (digits : List Char) : Prop :=
  digits ≠ [] ∧ (∀ c ∈ digits, c.isDigit = true) ∧ digits.getLast? ≠ some '0'

/-- An unsigned number in fixed notation: digits, and a point if there are digits behind it. -/
inductive IsPlain : List Char → Prop
  | whole {whole : List Char} : IsWhole whole → IsPlain whole
  | fraction {whole fraction : List Char} : IsWhole whole → IsFraction fraction →
      IsPlain (whole ++ '.' :: fraction)

/-- A number in fixed notation, with the sign of a negative one. -/
def FixedNotation (text : List Char) : Prop :=
  ∃ (negative : Bool) (unsigned : List Char),
    text = (if negative then ['-'] else []) ++ unsigned ∧ IsPlain unsigned

theorem IsWhole.digits {digits : List Char} (h : IsWhole digits) :
    digits ≠ [] ∧ ∀ c ∈ digits, c.isDigit = true := by
  rcases h with rfl | ⟨hne, hdigit, -⟩
  · simp
  · exact ⟨hne, hdigit⟩

theorem IsPlain.exists_numeral {unsigned : List Char} (h : IsPlain unsigned) :
    ∃ d, Numeral unsigned d := by
  cases h with
  | whole hwhole => exact ⟨_, .whole hwhole.digits.1 hwhole.digits.2⟩
  | fraction hwhole hfraction =>
    exact ⟨_, .fraction hwhole.digits.1 hwhole.digits.2 hfraction.2.1⟩

/-- What is neither a sign, a digit nor a point does not occur in fixed notation. -/
theorem FixedNotation.not_mem {text : List Char} (h : FixedNotation text) {c : Char}
    (hsign : c ≠ '-') (hdigit : c.isDigit = false) (hpoint : c ≠ '.') : c ∉ text := by
  obtain ⟨negative, unsigned, rfl, hplain⟩ := h
  obtain ⟨d, hnumeral⟩ := hplain.exists_numeral
  intro hc
  rcases List.mem_append.mp hc with hc | hc
  · cases negative with
    | false => cases hc
    | true => exact hsign (List.mem_singleton.mp hc)
  · rcases hnumeral.chars c hc with hc | hc
    · rw [hdigit] at hc
      cases hc
    · exact hpoint hc

/-! ## Digits without idle zeros -/

/-- The digits of a positive number do not start with a zero. -/
theorem head?_toDigits {n : Nat} (h : 0 < n) : (Nat.toDigits 10 n).head? ≠ some '0' := by
  induction n using Nat.strongRecOn with
  | _ n ih =>
    rw [Nat.toDigits_eq_if (by decide)]
    split_ifs with hlt
    · simp only [List.head?_cons, ne_eq, Option.some.injEq, Nat.digitChar_eq_zero]
      omega
    · rw [List.head?_append_of_ne_nil _ Nat.toDigits_ne_nil]
      exact ih (n / 10) (by omega) (by omega)

theorem getLast?_toDigits (n : Nat) :
    (Nat.toDigits 10 n).getLast? = some (Nat.digitChar (n % 10)) := by
  rw [Nat.toDigits_eq_if (by decide)]
  split_ifs with hlt
  · rw [Nat.mod_eq_of_lt hlt]
    rfl
  · exact List.getLast?_concat

namespace Decimal

/-- Trimming leaves zero, or digits that do not end in a zero. -/
theorem trim_cases (d : Decimal) : d.trim = ⟨0, 0⟩ ∨ d.trim.digits % 10 ≠ 0 := by
  fun_induction trim d with
  | case1 => exact .inl rfl
  | case2 d _ _ ih => exact ih
  | case3 d _ hlast => exact .inr hlast

/-- Wherever the point falls, digits without a zero at either end are in fixed notation. -/
theorem PointFalls.isPlain {digits text : List Char} {e : Int} (h : PointFalls digits e text)
    (hdigit : ∀ c ∈ digits, c.isDigit = true) (hne : digits ≠ []) (hhead : digits.head? ≠ some '0')
    (hend : digits.getLast? ≠ some '0') : IsPlain text := by
  cases h with
  | behind n =>
    refine .whole (.inr ⟨List.append_ne_nil_of_left_ne_nil hne _, fun c hc => ?_, ?_⟩)
    · exact (List.mem_append.mp hc).elim (hdigit c) isDigit_of_mem_replicate
    · rw [List.head?_append_of_ne_nil _ hne]
      exact hhead
  | @among n hpos hlt =>
    have hwhole : IsWhole (digits.take n) := by
      refine .inr ⟨?_, fun c hc => hdigit c (List.mem_of_mem_take hc), ?_⟩
      · rw [ne_eq, List.take_eq_nil_iff, not_or]
        exact ⟨by omega, hne⟩
      · rw [List.head?_take, if_neg (by omega)]
        exact hhead
    have hfraction : IsFraction (digits.drop n) := by
      refine ⟨?_, fun c hc => hdigit c (List.mem_of_mem_drop hc), ?_⟩
      · rw [ne_eq, List.drop_eq_nil_iff]
        omega
      · rw [List.getLast?_drop, if_neg (by omega)]
        exact hend
    exact .fraction hwhole hfraction
  | before n =>
    have hfraction : IsFraction (List.replicate n '0' ++ digits) := by
      refine ⟨List.append_ne_nil_of_right_ne_nil _ hne, fun c hc => ?_, ?_⟩
      · exact (List.mem_append.mp hc).elim isDigit_of_mem_replicate (hdigit c)
      · rw [List.getLast?_append_of_ne_nil _ hne]
        exact hend
    exact .fraction (.inl rfl) hfraction

/-- **The positional text of a decimal is in fixed notation** if its digits do not end in a
zero. -/
theorem isPlain_positional {d : Decimal} (h : d = ⟨0, 0⟩ ∨ d.digits % 10 ≠ 0) :
    IsPlain (d.positional false) := by
  rcases h with rfl | hlast
  · exact .whole (.inl rfl)
  · apply d.positional_pointFalls.isPlain (fun _ => isDigit_of_mem_toDigits) Nat.toDigits_ne_nil
    · exact head?_toDigits (by omega)
    · rw [getLast?_toDigits, ne_eq, Option.some.injEq, Nat.digitChar_eq_zero]
      exact hlast

end Decimal

/-! ## The steps of printing -/

/-- The layout of printed numbers: always positional, without a fraction if they are integral. -/
def Style.plain : Style := ⟨none, false, "inf", "NaN"⟩

theorem Style.toList_plain {v : Float} (h : magnitude v < infinityWord) :
    (plain.write v).toList =
      (if isNegative v then ['-'] else []) ++ (shortest (magnitude v)).positional false :=
  plain.toList_write h

namespace Decimal

/-- Fixed notation is the positional layout, except for zeros with a power of ten. -/
theorem fixed_eq_positional {d : Decimal} (h : d.digits = 0 → d.exponent ≤ 0) :
    d.fixed = d.positional false := by
  have hlength := Nat.length_toDigits_pos (b := 10) (n := d.digits)
  unfold fixed positional
  rw [if_neg fun hzero => by have := h hzero.1; omega]
  generalize Nat.toDigits 10 d.digits = digits at hlength
  dsimp only
  rcases lt_trichotomy d.exponent 0 with hneg | hzero | hpos
  · rw [if_neg (not_le.mpr hneg)]
    rcases lt_trichotomy ((digits.length : Int) + d.exponent) 0 with hbefore | hpoint | hamong
    · rw [if_pos hbefore, if_neg hbefore.not_gt]
      rfl
    · rw [hpoint, if_neg (lt_irrefl 0), if_neg (by omega), if_pos rfl, if_neg (lt_irrefl 0)]
      cases digits with
      | nil => cases hlength
      | cons c cs => rfl
    · have hdrop : (digits.drop ((digits.length : Int) + d.exponent).toNat).isEmpty = false := by
        rw [List.isEmpty_eq_false_iff, ne_eq, List.drop_eq_nil_iff]
        omega
      rw [if_neg hamong.not_gt, if_neg (by omega), if_neg hamong.ne', if_pos hamong, hdrop]
      rfl
  · simp [hzero, List.ne_nil_of_length_pos hlength]
  · rw [if_pos hpos.le, if_neg (by omega), if_pos (by omega), add_sub_cancel_left]
    exact (List.append_nil _).symm

/-- Zeros behind the digits of a positive number are digits of a multiple of it. -/
theorem toDigits_ofDigitChars_append_zeros {n : Nat} (h : 0 < n) (k : Nat) :
    Nat.toDigits 10 (Nat.ofDigitChars 10 (Nat.toDigits 10 n ++ List.replicate k '0') 0) =
      Nat.toDigits 10 n ++ List.replicate k '0' := by
  rw [Nat.ofDigitChars_append, Nat.ofDigitChars_replicate_zero, Nat.ofDigitChars_ten_toDigits]
  induction k with
  | zero => rw [Nat.pow_zero, Nat.one_mul, List.replicate_zero, List.append_nil]
  | succ k ih =>
    have hdigit := Nat.toDigits_append_toDigits (b := 10) (n := 10 ^ k * n) (d := 0) (by decide)
      (Nat.mul_pos (Nat.pow_pos (by decide)) h) (by decide)
    rw [Nat.pow_succ', Nat.mul_assoc, List.replicate_succ', ← List.append_assoc, ← ih]
    exact hdigit.symm

/-- A number with one zero behind its point is laid out with it. -/
theorem fixed_point_zero {d : Decimal} (h : d = ⟨0, 0⟩ ∨ 0 < d.digits)
    (hexponent : 0 ≤ d.exponent) :
    fixed ⟨Nat.ofDigitChars 10 (d.positional false ++ ['0']) 0, -1⟩ =
      d.positional false ++ ['.', '0'] := by
  rcases h with rfl | hpos
  · decide +kernel
  · obtain ⟨whole, hwhole⟩ : ∃ whole, whole = d.positional false := ⟨_, rfl⟩
    have hdigits : Nat.toDigits 10 (Nat.ofDigitChars 10 (whole ++ ['0']) 0) = whole ++ ['0'] := by
      rw [hwhole, positional_append_zero hexponent, toDigits_ofDigitChars_append_zeros hpos]
    have hpoint : ((whole ++ ['0']).length : Int) + -1 = whole.length := by simp
    have hlength : 0 < whole.length := by
      rw [hwhole]
      exact List.length_pos_of_ne_nil (digits_positional hexponent).1
    have hneg : ¬ (0 : Int) ≤ -1 := by decide
    rw [← hwhole, fixed_eq_positional fun _ => (not_le.mp hneg).le, positional, if_neg hneg,
      hdigits]
    dsimp only
    rw [hpoint, if_pos (by omega), Int.toNat_natCast, List.take_left, List.drop_left]

end Decimal

theorem stripEnd_concat (c : Char) (text : List Char) :
    stripEnd c (text ++ [c]) = stripEnd c text :=
  List.rdropWhile_concat_pos _ _ _ (beq_self_eq_true c)

theorem stripEnd_eq_self {c : Char} {text : List Char} (h : text.getLast? ≠ some c) :
    stripEnd c text = text := by
  refine List.rdropWhile_eq_self_iff.mpr fun hne hlast => h ?_
  rw [List.getLast?_eq_some_getLast hne, beq_iff_eq.mp hlast]

/-- A text in fixed notation has no zeros to lose. -/
theorem stripFraction_of_isPlain {sign unsigned : List Char} (hsign : '.' ∉ sign)
    (h : IsPlain unsigned) : stripFraction (sign ++ unsigned) = sign ++ unsigned := by
  cases h with
  | whole hwhole =>
    have hpoint : '.' ∉ unsigned := fun hmem => absurd (hwhole.digits.2 _ hmem) (by decide)
    rw [stripFraction, if_neg fun hmem => (List.mem_append.mp hmem).elim hsign hpoint]
  | @fraction whole fraction hwhole hfraction =>
    have hlast : (sign ++ (whole ++ '.' :: fraction)).getLast? = fraction.getLast? := by
      rw [List.append_cons, ← List.append_assoc, List.getLast?_append_of_ne_nil _ hfraction.1]
    have hpoint : fraction.getLast? ≠ some '.' := fun hend =>
      absurd (hfraction.2.1 _ (List.mem_of_getLast? hend)) (by decide)
    rw [← hlast] at hpoint
    have hzero := hfraction.2.2
    rw [← hlast] at hzero
    rw [stripFraction, if_pos (by simp), stripEnd_eq_self hzero, stripEnd_eq_self hpoint]

/-- A zero behind a point is lost together with it. -/
theorem stripFraction_point_zero {text : List Char} (h : text.getLast? ≠ some '.') :
    stripFraction (text ++ ['.', '0']) = text := by
  have hpoint : (text ++ ['.']).getLast? ≠ some '0' := by simp
  rw [stripFraction, if_pos (by simp), List.append_cons, stripEnd_concat,
    stripEnd_eq_self hpoint, stripEnd_concat, stripEnd_eq_self h]

/-- **The shown text of a decimal leads to its positional one**: it is read as a decimal, and what
fixed notation adds to the digits of that is stripped again. -/
theorem exists_fixed_of_shown {d : Decimal} (h : d = ⟨0, 0⟩ ∨ d.digits % 10 ≠ 0)
    {sign : List Char} (hsign : '.' ∉ sign) :
    ∃ d', decimal? (Style.shown.layOut d) = some d' ∧
      stripFraction (sign ++ d'.fixed) = sign ++ d.positional false := by
  have hplain := Decimal.isPlain_positional h
  have hfixed : d.fixed = d.positional false := by
    refine Decimal.fixed_eq_positional fun hzero => ?_
    rcases h with rfl | hlast
    · exact le_rfl
    · rw [hzero] at hlast
      exact absurd rfl hlast
  have hstrip : stripFraction (sign ++ d.fixed) = sign ++ d.positional false := by
    rw [hfixed, stripFraction_of_isPlain hsign hplain]
  unfold Style.layOut Style.shown
  dsimp only
  split_ifs
  · rcases lt_or_ge d.exponent 0 with hneg | hexponent
    · -- the point stands where it is wanted
      refine ⟨d, ?_, hstrip⟩
      have hnumeral := d.positional_pointFalls.numeral Nat.toDigits_ne_nil
        (fun _ => Decimal.isDigit_of_mem_toDigits) hneg
      rw [Nat.ofDigitChars_ten_toDigits] at hnumeral
      rw [Decimal.positional_of_neg (not_le.mpr hneg), hnumeral.decimal?]
    · -- the zero behind the point is read and written again before it is stripped
      obtain ⟨hne, hdigit⟩ := Decimal.digits_positional hexponent
      refine ⟨_, (Decimal.numeral_positional_true hexponent).decimal?, ?_⟩
      rw [Decimal.fixed_point_zero (h.imp_right fun hlast => by omega) hexponent,
        ← List.append_assoc]
      refine stripFraction_point_zero ?_
      rw [List.getLast?_append_of_ne_nil _ hne]
      exact fun hend => absurd (hdigit _ (List.mem_of_getLast? hend)) (by decide)
  · exact ⟨d, d.decimal?_scientific, hstrip⟩

/-- **Every number has a printed text**, and that is its positional one. -/
theorem printed?_eq (x : Float) : printed? x = some (Style.plain.write x) := by
  rcases lt_trichotomy (magnitude x) infinityWord with hfinite | hinfinite | hnan
  · have hsign : '.' ∉ if isNegative x then ['-'] else [] := by
      cases isNegative x <;> decide
    obtain ⟨d, hread, hfixed⟩ :=
      exists_fixed_of_shown (Decimal.trim_cases _) hsign (d := shortest (magnitude x))
    have hhead := (Style.shown.layOut_spells (shortest (magnitude x))).1
    rw [printed?, if_neg hfinite.not_gt, if_neg hfinite.ne, Style.shown.toList_write hfinite,
      splitSign_sign hhead]
    dsimp only
    rw [hread, Option.map_some, hfixed, Option.some.injEq, ← String.toList_inj,
      String.toList_ofList, Style.toList_plain hfinite]
  · rw [printed?, if_neg hinfinite.not_gt, if_pos hinfinite, Style.write,
      if_neg hinfinite.not_gt, Style.magnitudeText, if_neg hinfinite.not_lt]
    cases isNegative x <;> rfl
  · rw [printed?, if_pos hnan, Style.write, if_pos hnan]
    rfl

/-- The printed text of a finite number is in fixed notation. -/
theorem fixedNotation_write {v : Float} (h : magnitude v < infinityWord) :
    FixedNotation (Style.plain.write v).toList := by
  exact ⟨isNegative v, _, Style.toList_plain h, Decimal.isPlain_positional (Decimal.trim_cases _)⟩

/-- A finite number is told by its sign and the decimal it is written with. -/
theorem eq_of_shortest_value {u v : Float} (hu : magnitude u < infinityWord)
    (hv : magnitude v < infinityWord) (hsign : isNegative u = isNegative v)
    (hvalue : (shortest (magnitude u)).value = (shortest (magnitude v)).value) : u = v := by
  have hmagnitude : magnitude u = magnitude v :=
    calc magnitude u = (shortest (magnitude u)).toWord := (toWord_shortest hu).symm
      _ = (shortest (magnitude v)).toWord := Decimal.toWord_congr hvalue
      _ = magnitude v := toWord_shortest hv
  rw [← ofMagnitude_magnitude hu, hsign, hmagnitude, ofMagnitude_magnitude hv]

/-- **Different finite numbers are written differently**, in any style. -/
theorem Style.write_injective (s : Style) {u v : Float} (hu : magnitude u < infinityWord)
    (hv : magnitude v < infinityWord) (h : s.write u = s.write v) : u = v := by
  have hdenotation := s.denotation?_write hu
  rw [h, s.denotation?_write hv, Option.some.injEq, Prod.mk.injEq] at hdenotation
  exact eq_of_shortest_value hu hv hdenotation.1.symm hdenotation.2.symm

end Number

/-- **Numbers are printed exactly and in fixed notation.** The printed text of a finite number
denotes the sign of the number, zero included, and the magnitude that the shown text denotes, which
is rounded to the number. It is in normal form and has no exponent. Numbers with different bits are
printed differently. -/
theorem numbers_print_in_fixed_notation (v : Float) (h : v.isFinite = true) :
    ∃ text, Number.printed? v = some text ∧
      (∃ d : Number.Decimal, d.toWord = Number.magnitude v ∧
        Number.denotation? text.toList = some (Number.isNegative v, d.value) ∧
        Number.denotation? (Document.number v).inspect.toList =
          some (Number.isNegative v, d.value)) ∧
      Number.FixedNotation text.toList ∧ 'e' ∉ text.toList ∧ 'E' ∉ text.toList ∧
      ∀ u : Float, u.isFinite = true → u.toBits ≠ v.toBits → Number.printed? u ≠ some text := by
  have hfinite := (Number.isFinite_iff v).mp h
  have hfixed := Number.fixedNotation_write hfinite
  have hshown : (Document.number v).inspect = Number.Style.shown.write v := by
    rw [Document.inspect]
  refine ⟨Number.Style.plain.write v, Number.printed?_eq v,
    ⟨Number.shortest (Number.magnitude v), Number.toWord_shortest hfinite, ?_, ?_⟩, hfixed,
    hfixed.not_mem (by decide) rfl (by decide), hfixed.not_mem (by decide) rfl (by decide), ?_⟩
  · exact Number.Style.plain.denotation?_write hfinite
  · rw [hshown]
    exact Number.Style.shown.denotation?_write hfinite
  · intro u hu hbits htext
    rw [Number.printed?_eq, Option.some.injEq] at htext
    have heq := Number.Style.plain.write_injective ((Number.isFinite_iff u).mp hu) hfinite htext
    exact hbits (congrArg Float.toBits heq)

/-- The number that is shown as `-1e+23` is printed with all its zeros. -/
theorem power_prints_in_fixed_notation :
    let v := Float.ofBits 0xC4B52D02C7E14AF6
    v.isFinite = true ∧ Number.printed? v = some "-100000000000000000000000" ∧
      (∃ d : Number.Decimal, d.toWord = Number.magnitude v ∧
        Number.denotation? "-100000000000000000000000".toList = some (true, d.value) ∧
        Number.denotation? "-1e+23".toList = some (true, d.value)) ∧
      Number.FixedNotation "-100000000000000000000000".toList ∧
      ∀ u : Float, u.isFinite = true → u.toBits ≠ v.toBits →
        Number.printed? u ≠ some "-100000000000000000000000" := by
  intro v
  have hfinite : v.isFinite = true := by decide +kernel
  have hprinted : Number.printed? v = some "-100000000000000000000000" := by decide +kernel
  have hshown : (Document.number v).inspect = "-1e+23" := by decide +kernel
  have hsign : Number.isNegative v = true := by decide +kernel
  obtain ⟨text, htext, hdenotes, hfixed, -, -, hdiffer⟩ :=
    numbers_print_in_fixed_notation v hfinite
  obtain rfl : "-100000000000000000000000" = text := Option.some.inj (hprinted.symm.trans htext)
  rw [hshown, hsign] at hdenotes
  exact ⟨hfinite, hprinted, hdenotes, hfixed, hdiffer⟩

end Scriptlet
