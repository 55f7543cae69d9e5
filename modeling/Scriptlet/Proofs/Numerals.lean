import Scriptlet.Proofs.Munch

/-!
# Number literals

The scanner passes the longest text of digits, underscores and at most one period, and the reader
of numerals settles whether that text has a value. The two know different grammars; this module
says where they meet.

* `NumberChars`, `Separating`: the characters of a number literal, and underscores that stand
  between digits.
* `Number.withoutUnderscores?_eq`: underscores are deleted exactly if they are separating.
* `Number.decimal?_whole`, `decimal?_fraction`: the decimal that plain digits denote, with or
  without a point among them.
* `Number.readChars?_of_separating`, `readChars?_of_not_separating`: so a literal has a value
  exactly if its underscores are separating. `Number.readChars?_deleteUnderscores`: it has the
  value of its text without them.

`Scanner.scanNumber_follows_grammar` puts this together for every place that holds a digit.
-/

namespace Scriptlet

/-! ## The grammar -/

/-- Plain digits, underscores and at most one period. -/
def NumberChars (w : List Char) : Prop :=
  (∀ c ∈ w, c.isDigit = true ∨ c = '_' ∨ c = '.') ∧ w.count '.' ≤ 1

/-- Every underscore stands between two digits. -/
def Separating (w : List Char) : Prop :=
  ∀ before after, w = before ++ '_' :: after →
    (∃ c ∈ before.getLast?, c.isDigit = true) ∧ ∃ c ∈ after.head?, c.isDigit = true

/-- The text without its underscores. -/
def deleteUnderscores (w : List Char) : List Char := w.filter (· != '_')

theorem deleteUnderscores_eq_self {w : List Char} (h : '_' ∉ w) : deleteUnderscores w = w := by
  refine List.filter_eq_self.mpr fun c hc => ?_
  rw [bne_iff_ne]
  rintro rfl
  exact h hc

theorem Separating.of_not_mem {w : List Char} (h : '_' ∉ w) : Separating w := by
  rintro before after rfl
  exact absurd (List.mem_append_right before List.mem_cons_self) h

/-- The span of a number holds every text of its form that starts where it does. -/
theorem prefix_numberSpan (metPeriod : Bool) {w cs : List Char} (h : w <+: cs)
    (hchars : ∀ c ∈ w, c.isDigit = true ∨ c = '_' ∨ c = '.')
    (hperiod : w.count '.' ≤ if metPeriod then 0 else 1) : w <+: numberSpan metPeriod cs := by
  induction w generalizing metPeriod cs with
  | nil => exact List.nil_prefix
  | cons d ds ih =>
    obtain ⟨rest, rfl⟩ := h
    have hds : ds <+: ds ++ rest := List.prefix_append ds rest
    have hgoes : ∀ c ∈ ds, c.isDigit = true ∨ c = '_' ∨ c = '.' :=
      fun c hc => hchars c (List.mem_cons_of_mem d hc)
    rw [List.cons_append, numberSpan]
    by_cases hdot : d = '.'
    · subst hdot
      rw [List.count_cons_self] at hperiod
      obtain rfl : metPeriod = false := by
        cases metPeriod with
        | false => rfl
        | true => exact absurd hperiod (by simp)
      rw [if_pos (by rfl)]
      exact List.prefix_cons_iff.mpr (.inr ⟨ds, rfl, ih true hds hgoes (by simpa using hperiod)⟩)
    · have hdigit : (d.isDigit || d == '_') = true := by
        rcases hchars d List.mem_cons_self with h | h | h
        · simp [h]
        · simp [h]
        · exact absurd h hdot
      rw [List.count_cons_of_ne hdot] at hperiod
      rw [if_neg (by simp [hdot]), if_pos hdigit]
      exact List.prefix_cons_iff.mpr (.inr ⟨ds, rfl, ih metPeriod hds hgoes hperiod⟩)

namespace Number

/-! ## Underscores -/

/-- Underscores that stand between digits, with a flag for a digit in front of the text. -/
def SeparatingAfter (afterDigit : Bool) (w : List Char) : Prop :=
  ∀ before after, w = before ++ '_' :: after →
    (before = [] ∧ afterDigit = true ∨ ∃ c ∈ before.getLast?, c.isDigit = true) ∧
      ∃ c ∈ after.head?, c.isDigit = true

theorem separatingAfter_cons {afterDigit : Bool} {c : Char} (hc : c ≠ '_') (cs : List Char) :
    SeparatingAfter afterDigit (c :: cs) ↔ SeparatingAfter c.isDigit cs := by
  constructor
  · rintro h before after rfl
    obtain ⟨hbefore, hafter⟩ := h (c :: before) after rfl
    refine ⟨?_, hafter⟩
    cases before with
    | nil => simpa using hbefore
    | cons d ds => simpa using hbefore
  · intro h before after hsplit
    cases before with
    | nil => exact absurd (List.cons.inj hsplit).1 hc
    | cons d ds =>
      obtain ⟨rfl, rfl⟩ := List.cons.inj hsplit
      obtain ⟨hbefore, hafter⟩ := h ds after rfl
      refine ⟨.inr ?_, hafter⟩
      rcases hbefore with ⟨rfl, hdigit⟩ | hbefore
      · exact ⟨c, rfl, hdigit⟩
      · obtain ⟨e, he, hdigit⟩ := hbefore
        cases ds with
        | nil => cases he
        | cons f fs => exact ⟨e, by simpa using he, hdigit⟩

theorem startsWithDigit_iff (cs : List Char) :
    startsWithDigit cs = true ↔ ∃ c ∈ cs.head?, c.isDigit = true := by
  cases cs with
  | nil => simp [startsWithDigit]
  | cons c cs => simp [startsWithDigit]

theorem separatingAfter_underscore {afterDigit : Bool} (cs : List Char) :
    SeparatingAfter afterDigit ('_' :: cs) ↔
      afterDigit = true ∧ startsWithDigit cs = true ∧ SeparatingAfter false cs := by
  rw [startsWithDigit_iff]
  constructor
  · intro h
    obtain ⟨hbefore, hafter⟩ := h [] cs rfl
    refine ⟨by simpa using hbefore, hafter, ?_⟩
    rintro before after rfl
    obtain ⟨hbefore', hafter'⟩ := h ('_' :: before) after rfl
    refine ⟨.inr ?_, hafter'⟩
    cases before with
    | nil => exact absurd hafter (by simp)
    | cons d ds => simpa using hbefore'
  · rintro ⟨hflag, hdigit, h⟩ before after hsplit
    cases before with
    | nil =>
      obtain ⟨-, rfl⟩ := List.cons.inj hsplit
      exact ⟨.inl ⟨rfl, hflag⟩, hdigit⟩
    | cons d ds =>
      obtain ⟨rfl, rfl⟩ := List.cons.inj hsplit
      obtain ⟨hbefore, hafter⟩ := h ds after rfl
      refine ⟨.inr ?_, hafter⟩
      rcases hbefore with ⟨-, hfalse⟩ | ⟨e, he, hdigit'⟩
      · cases hfalse
      · cases ds with
        | nil => cases he
        | cons f fs => exact ⟨e, by simpa using he, hdigit'⟩

open Classical in
/-- **Underscores are deleted exactly if they are separating.** -/
theorem withoutUnderscores?_eq (afterDigit : Bool) (w : List Char) :
    withoutUnderscores? afterDigit w =
      if SeparatingAfter afterDigit w then some (deleteUnderscores w) else none := by
  induction w generalizing afterDigit with
  | nil =>
    rw [if_pos (by rintro before after h; simp at h)]
    rfl
  | cons c cs ih =>
    rw [withoutUnderscores?]
    by_cases hc : c = '_'
    · subst hc
      have hdelete : deleteUnderscores ('_' :: cs) = deleteUnderscores cs := rfl
      rw [if_pos rfl, separatingAfter_underscore, hdelete]
      by_cases hflags : (afterDigit && startsWithDigit cs) = true
      · rw [if_pos hflags, ih]
        obtain ⟨hafter, hstarts⟩ := (Bool.and_eq_true _ _).mp hflags
        simp only [hafter, hstarts, true_and]
      · rw [if_neg hflags, if_neg]
        rintro ⟨hafter, hstarts, -⟩
        exact hflags (by rw [hafter, hstarts]; rfl)
    · have hdelete : deleteUnderscores (c :: cs) = c :: deleteUnderscores cs :=
        List.filter_cons_of_pos (by simpa using hc)
      rw [if_neg hc, ih, hdelete]
      by_cases hcs : SeparatingAfter c.isDigit cs
      · rw [if_pos hcs, if_pos ((separatingAfter_cons hc cs).mpr hcs)]
        rfl
      · rw [if_neg hcs, if_neg fun h => hcs ((separatingAfter_cons hc cs).mp h)]
        rfl

theorem separatingAfter_false (w : List Char) : SeparatingAfter false w ↔ Separating w := by
  simp [SeparatingAfter, Separating]

/-! ## Plain digits -/

theorem takeWhile_digits {whole rest : List Char} (h : ∀ c ∈ whole, c.isDigit = true)
    (hrest : ∀ c ∈ rest.head?, c.isDigit = false) :
    (whole ++ rest).takeWhile Char.isDigit = whole ∧
      (whole ++ rest).dropWhile Char.isDigit = rest := by
  have htake := takeWhile_append_of_head h hrest
  refine ⟨htake, ?_⟩
  have hboth := List.takeWhile_append_dropWhile (p := Char.isDigit) (l := whole ++ rest)
  rw [htake] at hboth
  exact List.append_cancel_left hboth

/-- Digits alone denote their number. -/
theorem decimal?_whole {whole : List Char} (h : ∀ c ∈ whole, c.isDigit = true) (hne : whole ≠ []) :
    decimal? whole = some ⟨Nat.ofDigitChars 10 whole 0, 0⟩ := by
  have hend : ∀ c ∈ ([] : List Char).head?, c.isDigit = false := by simp
  obtain ⟨htake, hdrop⟩ := takeWhile_digits h hend
  rw [List.append_nil] at htake hdrop
  simp [decimal?, htake, hdrop, splitFraction, exponentPart?, hne]

/-- Digits with a point denote their number, scaled by the digits behind the point. -/
theorem decimal?_fraction {whole fraction : List Char} (hwhole : ∀ c ∈ whole, c.isDigit = true)
    (hfraction : ∀ c ∈ fraction, c.isDigit = true) (hne : whole ≠ []) :
    decimal? (whole ++ '.' :: fraction) =
      some ⟨Nat.ofDigitChars 10 (whole ++ fraction) 0, -fraction.length⟩ := by
  have hpoint : ∀ c ∈ ('.' :: fraction).head?, c.isDigit = false := by
    rintro c ⟨⟩
    rfl
  have hend : ∀ c ∈ ([] : List Char).head?, c.isDigit = false := by simp
  obtain ⟨htake, hdrop⟩ := takeWhile_digits hwhole hpoint
  obtain ⟨htake', hdrop'⟩ := takeWhile_digits hfraction hend
  rw [List.append_nil] at htake' hdrop'
  simp [decimal?, htake, hdrop, htake', hdrop', splitFraction, exponentPart?, hne]

/-- Digits with at most one period are digits alone, or have a point among them. -/
theorem digits_cases {w : List Char} (h : ∀ c ∈ w, c.isDigit = true ∨ c = '.')
    (hperiod : w.count '.' ≤ 1) :
    (∀ c ∈ w, c.isDigit = true) ∨ ∃ whole fraction, w = whole ++ '.' :: fraction ∧
      (∀ c ∈ whole, c.isDigit = true) ∧ ∀ c ∈ fraction, c.isDigit = true := by
  by_cases hmem : '.' ∈ w
  · obtain ⟨whole, fraction, rfl⟩ := List.append_of_mem hmem
    have hnone : whole.count '.' = 0 ∧ fraction.count '.' = 0 := by
      rw [List.count_append, List.count_cons_self] at hperiod
      omega
    have hdigit : ∀ v : List Char, v.count '.' = 0 → v ⊆ whole ++ '.' :: fraction →
        ∀ c ∈ v, c.isDigit = true := by
      intro v hv hsub c hc
      refine (h c (hsub hc)).resolve_right ?_
      rintro rfl
      exact List.count_eq_zero.mp hv hc
    refine .inr ⟨whole, fraction, rfl, hdigit whole hnone.1 (List.subset_append_left _ _), ?_⟩
    exact hdigit fraction hnone.2
      (List.subset_append_of_subset_right _ (List.subset_cons_self _ _))
  · refine .inl fun c hc => (h c hc).resolve_right ?_
    rintro rfl
    exact hmem hc

/-- A text that starts with a digit and has digits and at most one period denotes a decimal. -/
theorem exists_decimal? {w : List Char} (h : ∀ c ∈ w, c.isDigit = true ∨ c = '.')
    (hperiod : w.count '.' ≤ 1) (hhead : ∃ c ∈ w.head?, c.isDigit = true) :
    ∃ d, decimal? w = some d := by
  have hne : w ≠ [] := by
    rintro rfl
    simp at hhead
  rcases digits_cases h hperiod with hdigits | ⟨whole, fraction, rfl, hwhole, hfraction⟩
  · exact ⟨_, decimal?_whole hdigits hne⟩
  · refine ⟨_, decimal?_fraction hwhole hfraction ?_⟩
    rintro rfl
    obtain ⟨c, ⟨⟩, hdigit⟩ := hhead
    cases hdigit

/-! ## Reading -/

theorem plain_of_numberChar {c : Char} (h : c.isDigit = true ∨ c = '_' ∨ c = '.') :
    toPlain c = c ∧ isPlainBlank c = false := by
  have hcode : c.toNat ∈ List.range' 48 10 ∨ c.toNat = 95 ∨ c.toNat = 46 :=
    h.imp toNat_of_isDigit (Or.imp (congrArg Char.toNat) (congrArg Char.toNat))
  rw [List.mem_range'_1] at hcode
  have hblank : c ≠ ' ' := by
    rintro rfl
    exact absurd hcode (by decide)
  refine ⟨if_pos (by omega), ?_⟩
  simp only [isPlainBlank, hblank, decide_false, Bool.false_or, Bool.and_eq_false_imp,
    decide_eq_true_eq, decide_eq_false_iff_not]
  omega

theorem trimBlanks_eq_self {w : List Char} (h : ∀ c ∈ w, isPlainBlank c = false) :
    trimBlanks w = w := by
  have hdrop : ∀ v : List Char, (∀ c ∈ v, isPlainBlank c = false) →
      v.dropWhile isPlainBlank = v := by
    intro v hv
    cases v with
    | nil => rfl
    | cons c cs => exact List.dropWhile_cons_of_neg (by simp [hv c List.mem_cons_self])
  rw [trimBlanks, hdrop w h, hdrop _ fun c hc => h c (List.mem_reverse.mp hc), List.reverse_reverse]

theorem toWord_le (d : Decimal) : d.toWord ≤ infinityWord := by
  unfold Decimal.toWord
  split
  · exact Nat.zero_le _
  split
  · exact Nat.le_refl _
  split
  · exact Nat.zero_le _
  · unfold nearest
    split
    · exact Nat.zero_le _
    · exact Nat.min_le_left _ _

theorem deleteUnderscores_head {w : List Char} (h : ∃ c ∈ w.head?, c.isDigit = true) :
    ∃ c ∈ (deleteUnderscores w).head?, c.isDigit = true := by
  obtain ⟨c, hc, hdigit⟩ := h
  obtain ⟨cs, rfl⟩ := List.head?_eq_some_iff.mp hc
  refine ⟨c, ?_, hdigit⟩
  rw [deleteUnderscores, List.filter_cons_of_pos]
  · rfl
  · rw [bne_iff_ne]
    rintro rfl
    cases hdigit

theorem splitSign_of_digit {w : List Char} (h : ∃ c ∈ w.head?, c.isDigit = true) :
    splitSign w = (false, w) := by
  obtain ⟨c, hc, hdigit⟩ := h
  obtain ⟨cs, rfl⟩ := List.head?_eq_some_iff.mp hc
  have hminus : c ≠ '-' := by
    rintro rfl
    cases hdigit
  have hplus : c ≠ '+' := by
    rintro rfl
    cases hdigit
  rw [splitSign, if_neg hminus, if_neg hplus]

/-- The characters of a literal are plain, and none is trimmed. -/
theorem trimBlanks_toPlain {w : List Char} (h : NumberChars w) :
    trimBlanks (w.map toPlain) = w := by
  have hplain : w.map toPlain = w.map id :=
    List.map_congr_left fun c hc => (plain_of_numberChar (h.1 c hc)).1
  rw [hplain, List.map_id, trimBlanks_eq_self fun c hc => (plain_of_numberChar (h.1 c hc)).2]

/-- **A literal with separating underscores has the value of its text without them**, which is
the decimal that the text denotes, correctly rounded. -/
theorem readChars?_of_separating {w : List Char} (h : NumberChars w)
    (hhead : ∃ c ∈ w.head?, c.isDigit = true) (hsep : Separating w) :
    ∃ d, decimal? (deleteUnderscores w) = some d ∧
      readChars? w = some (ofMagnitude false d.toWord) := by
  have hhead' := deleteUnderscores_head hhead
  have hchars : ∀ c ∈ deleteUnderscores w, c.isDigit = true ∨ c = '.' := by
    intro c hc
    obtain ⟨hmem, hne⟩ := List.mem_filter.mp hc
    rw [bne_iff_ne] at hne
    exact (h.1 c hmem).imp_right fun hother => hother.resolve_left hne
  have hperiod : (deleteUnderscores w).count '.' ≤ 1 :=
    Nat.le_trans (List.filter_sublist.count_le '.') h.2
  obtain ⟨d, hd⟩ := exists_decimal? hchars hperiod hhead'
  refine ⟨d, hd, ?_⟩
  rw [readChars?, trimBlanks_toPlain h, withoutUnderscores?_eq,
    if_pos ((separatingAfter_false w).mpr hsep)]
  dsimp only
  rw [splitSign_of_digit hhead']
  simp only [word?, hd, Option.map_some]
  rw [if_neg (Nat.not_lt.mpr (toWord_le d))]

/-- A literal has no value if an underscore of it does not separate. -/
theorem readChars?_of_not_separating {w : List Char} (h : NumberChars w)
    (hsep : ¬ Separating w) : readChars? w = none := by
  rw [readChars?, trimBlanks_toPlain h, withoutUnderscores?_eq,
    if_neg fun hafter => hsep ((separatingAfter_false w).mp hafter)]

/-- Deleting underscores keeps the value. -/
theorem readChars?_deleteUnderscores {w : List Char} (h : NumberChars w)
    (hhead : ∃ c ∈ w.head?, c.isDigit = true) (hsep : Separating w) :
    readChars? (deleteUnderscores w) = readChars? w := by
  have hsub : deleteUnderscores w ⊆ w := List.filter_sublist.subset
  have hnone : '_' ∉ deleteUnderscores w := by simp [deleteUnderscores]
  have hchars : NumberChars (deleteUnderscores w) :=
    ⟨fun c hc => h.1 c (hsub hc), Nat.le_trans (List.filter_sublist.count_le '.') h.2⟩
  obtain ⟨d, hd, hvalue⟩ := readChars?_of_separating h hhead hsep
  obtain ⟨e, he, hvalue'⟩ :=
    readChars?_of_separating hchars (deleteUnderscores_head hhead) (.of_not_mem hnone)
  rw [deleteUnderscores_eq_self hnone, hd] at he
  cases he
  rw [hvalue, hvalue']

end Number

/-! ## Scanning -/

namespace Scanner

/-- **Number literals are accepted exactly by their grammar.** At a place that holds a digit the
scanner passes the longest text of digits, underscores and at most one period, whatever follows. If
every underscore in it stands between two digits, it emits one number with that text, which has the
value of the text without underscores, and makes no report. Otherwise it emits nothing and makes one
report. -/
theorem scanNumber_follows_grammar (s : Scanner) {c : Char} {cs : List Char}
    (h : s.rest = c :: cs) (hc : c.isDigit = true) :
    ∃ lexeme rest, s.rest = lexeme ++ rest ∧ NumberChars lexeme ∧
      (∀ w, w <+: s.rest → NumberChars w → w <+: lexeme) ∧
      s.scanNumber.rest = rest ∧ s.scanNumber.pos = s.pos + lexeme.length ∧
      (Separating lexeme →
        ∃ x, Number.readChars? (deleteUnderscores lexeme) = some x ∧
          s.scanNumber.emitted =
            ⟨.number, String.ofList lexeme, .number x, s.tokenLine⟩ :: s.emitted ∧
          s.scanNumber.reports = s.reports ∧ s.scanNumber.failed = s.failed) ∧
      (¬ Separating lexeme →
        s.scanNumber.emitted = s.emitted ∧
          s.scanNumber.reports = s.reports.report ⟨Diagnostic.lexing,
            "invalid number literal '" ++ String.ofList lexeme ++ "'", some s.tokenLine⟩ ∧
          s.scanNumber.failed = true) := by
  obtain ⟨hsplit, hchars, hperiod, -⟩ := numberSpan_spec false s.rest
  have hlongest : ∀ w, w <+: s.rest → NumberChars w → w <+: numberSpan false s.rest :=
    fun w hw hform => prefix_numberSpan false hw hform.1 (by simpa using hform.2)
  have hhead : ∃ d ∈ (numberSpan false s.rest).head?, d.isDigit = true := by
    have hdot : (decide (c = '.') && !false) = false := by
      rw [Bool.and_eq_false_iff, decide_eq_false_iff_not]
      left
      rintro rfl
      cases hc
    refine ⟨c, ?_, hc⟩
    rw [h, numberSpan, hdot, if_neg (by simp), if_pos (by simp [hc])]
    rfl
  have hform : NumberChars (numberSpan false s.rest) := ⟨hchars, by simpa using hperiod⟩
  refine ⟨numberSpan false s.rest, _, hsplit, hform, hlongest, rest_scanNumber s, ?_, ?_, ?_⟩
  · unfold scanNumber
    dsimp only
    split
    · rfl
    · rfl
  · intro hsep
    obtain ⟨d, -, hvalue⟩ := Number.readChars?_of_separating hform hhead hsep
    refine ⟨_, (Number.readChars?_deleteUnderscores hform hhead hsep).trans hvalue, ?_⟩
    rw [scanNumber, hvalue]
    exact ⟨rfl, rfl, rfl⟩
  · intro hsep
    rw [scanNumber, Number.readChars?_of_not_separating hform hsep]
    exact ⟨rfl, rfl, rfl⟩

/-- An underscore in front of the end of a literal does not separate. -/
theorem scanNumber_trailing_underscore :
    (ofSource "1_0.5_.7" {}).scanNumber.rest = ".7".toList ∧
      (ofSource "1_0.5_.7" {}).scanNumber.emitted = [] ∧
      (ofSource "1_0.5_.7" {}).scanNumber.reports.records =
        [⟨Diagnostic.lexing, "invalid number literal '1_0.5_'", some 1⟩] := by
  have hsource : (ofSource "1_0.5_.7" {}).rest = '1' :: "_0.5_.7".toList := by decide +kernel
  obtain ⟨lexeme, rest, hsplit, -, -, hrest, -, -, hrefused⟩ :=
    (ofSource "1_0.5_.7" {}).scanNumber_follows_grammar hsource (by decide)
  have hleft : (ofSource "1_0.5_.7" {}).scanNumber.rest = ".7".toList := by
    rw [rest_scanNumber]
    decide +kernel
  have hlexeme : "1_0.5_".toList = lexeme := by
    rw [← hrest, hleft] at hsplit
    exact List.append_cancel_right (Eq.trans (by decide +kernel) hsplit)
  have hsep : ¬ Separating lexeme := by
    intro h
    obtain ⟨-, c, hc, -⟩ := h "1_0.5".toList [] (by rw [← hlexeme]; decide +kernel)
    cases hc
  obtain ⟨hemitted, hreports, -⟩ := hrefused hsep
  rw [hemitted, hreports, ← hlexeme]
  exact ⟨hleft, by decide +kernel, by decide +kernel⟩

end Scanner

end Scriptlet
