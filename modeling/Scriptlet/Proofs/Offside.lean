import Scriptlet.Proofs.Lines

/-!
# The offside rule

The usual rule keeps a stack of the widths of open blocks: a wider line opens a block, a narrower
one closes the blocks of greater widths. The scanner keeps the widths of all lines instead, and
walks them for wider lines too.

* `offside`, `lands`: the usual rule, and the sequences of widths it has an answer for.
* `unshadowed`: the sequences on which the scanner agrees with it.
* `layOuts_follow_iff`: the agreement for widths.
* `tokenize_follows_offside_iff`: the agreement for sources.
-/

namespace Scriptlet

/-! ## The usual rule -/

/-- The tokens in front of a line of the given width. -/
def offsideMarks (stack : List Nat) (width : Nat) : List Kind :=
  if stack.headD 0 < width then [.indent]
  else List.replicate (stack.takeWhile (width < ·)).length .dedent

/-- The stack behind the start of a line of the given width. -/
def offsideStack (stack : List Nat) (width : Nat) : List Nat :=
  if stack.headD 0 < width then width :: stack else stack.dropWhile (width < ·)

/-- The tokens in front of each of a sequence of lines, with the widths of the open blocks before
them, innermost first. -/
def offside (stack : List Nat) : List Nat → List (List Kind)
  | [] => []
  | width :: widths => offsideMarks stack width :: offside (offsideStack stack width) widths

/-- Whether each line that is not wider than the innermost block has the width of an open one. -/
def lands (stack : List Nat) : List Nat → Bool
  | [] => true
  | width :: widths =>
    (decide (stack.headD 0 < width) || stack.contains width) &&
      lands (offsideStack stack width) widths

/-- Whether each line that is wider than the last is wider than all lines since the last one of its
own width. The widths before the lines are given latest first. -/
def unshadowed (history : List Nat) : List Nat → Bool
  | [] => true
  | width :: widths =>
    (!decide (history.headD 0 < width) || (history.takeWhile (· != width)).all (· < width)) &&
      unshadowed (width :: history) widths

/-! ## The stack within the history -/

/-- The widths that are lower than all later ones, latest first. -/
def lows : List Nat → List Nat
  | [] => []
  | width :: history => width :: (lows history).filter (· < width)

theorem pairwise_lows (history : List Nat) : (lows history).Pairwise (· > ·) := by
  induction history with
  | nil => exact .nil
  | cons width history ih =>
    refine .cons ?_ (ih.filter _)
    intro v hv
    simpa using (List.mem_filter.mp hv).2

theorem headD_lows (history : List Nat) : (lows history).headD 0 = history.headD 0 := by
  cases history with
  | nil => rfl
  | cons width history => rfl

theorem takeWhile_eq_filter {stack : List Nat} (h : stack.Pairwise (· > ·)) (width : Nat) :
    stack.takeWhile (width < ·) = stack.filter (width < ·) := by
  induction h with
  | nil => rfl
  | @cons v vs hv _ ih =>
    by_cases hlt : width < v
    · rw [List.takeWhile_cons_of_pos (by simpa using hlt),
        List.filter_cons_of_pos (by simpa using hlt), ih]
    · rw [List.takeWhile_cons_of_neg (by simpa using hlt),
        List.filter_cons_of_neg (by simpa using hlt)]
      refine (List.filter_eq_nil_iff.mpr ?_).symm
      intro u hu
      have := hv u hu
      simp only [decide_eq_true_eq]
      omega

theorem dropWhile_eq_filter {stack : List Nat} (h : stack.Pairwise (· > ·)) {width : Nat}
    (hmem : width ∈ stack) :
    stack.dropWhile (width < ·) = width :: stack.filter (· < width) := by
  induction h with
  | nil => cases hmem
  | @cons v vs hv _ ih =>
    rcases List.mem_cons.mp hmem with rfl | hmem
    · rw [List.dropWhile_cons_of_neg (by simp), List.filter_cons_of_neg (by simp)]
      refine congrArg _ (List.filter_eq_self.mpr ?_).symm
      intro u hu
      simpa using hv u hu
    · have hlt := hv width hmem
      rw [List.dropWhile_cons_of_pos (by simpa using hlt),
        List.filter_cons_of_neg (by simp; omega), ih hmem]

/-! ## Walking the history -/

theorem unwind_self (width : Nat) (history : List Nat) (lowest : Option Nat) (blocks : Nat) :
    unwind width (width :: history) lowest blocks = ⟨0, true⟩ := by
  rw [unwind.eq_def]
  exact if_pos rfl

theorem unwind_counted {width v : Nat} {lowest : Option Nat} (hlt : width < v)
    (hlowest : lowest.all (v < ·) = true) (history : List Nat) (left : Nat) :
    unwind width (v :: history) lowest (left + 1) =
      ⟨(unwind width history (some v) left).closed + 1,
        (unwind width history (some v) left).matched⟩ := by
  rw [unwind.eq_def]
  simp only
  rw [if_neg (by omega), if_pos (by simp [hlt, hlowest])]

theorem unwind_passed {width v : Nat} {lowest : Option Nat} (hne : width ≠ v)
    (h : width < v → lowest.all (v < ·) = false) (history : List Nat) (blocks : Nat) :
    unwind width (v :: history) lowest blocks = unwind width history lowest blocks := by
  rw [unwind.eq_def]
  simp only
  rw [if_neg hne, if_neg]
  simpa using h

/-- The number of open blocks of a greater width than the given one, without those of width `lowest`
and more. -/
def toClose (width : Nat) (lowest : Option Nat) (history : List Nat) : Nat :=
  (lows history).countP fun v => width < v && lowest.all (v < ·)

theorem toClose_self (width : Nat) (lowest : Option Nat) (history : List Nat) :
    toClose width lowest (width :: history) = 0 := by
  refine List.countP_eq_zero.mpr ?_
  intro v hv
  rcases List.mem_cons.mp hv with rfl | hv
  · simp
  · have : v < width := by simpa using (List.mem_filter.mp hv).2
    simp only [Bool.and_eq_true, decide_eq_true_eq]
    omega

theorem toClose_counted {width v : Nat} {lowest : Option Nat} (hlt : width < v)
    (hlowest : lowest.all (v < ·) = true) (history : List Nat) :
    toClose width lowest (v :: history) = toClose width (some v) history + 1 := by
  unfold toClose
  rw [lows, List.countP_cons_of_pos (by simp [hlt, hlowest]), List.countP_filter]
  refine congrArg (· + 1) (List.countP_congr ?_)
  intro u _
  cases lowest with
  | none => simp
  | some l =>
    have : v < l := by simpa using hlowest
    simp only [Option.all_some, Bool.and_eq_true, decide_eq_true_eq]
    omega

theorem toClose_passed {width v : Nat} {lowest : Option Nat}
    (hlowest : lowest.all (v < ·) = false) (history : List Nat) :
    toClose width lowest (v :: history) = toClose width lowest history := by
  unfold toClose
  rw [lows, List.countP_cons_of_neg (by simp [hlowest]), List.countP_filter]
  refine List.countP_congr ?_
  intro u _
  cases lowest with
  | none => cases hlowest
  | some l =>
    have : ¬ v < l := by simpa using hlowest
    simp only [Option.all_some, Bool.and_eq_true, decide_eq_true_eq]
    omega

/-- Walking down to a width of an open block closes the blocks of greater widths. -/
theorem unwind_of_mem_lows {width : Nat} {history : List Nat} (h : width ∈ lows history)
    (lowest : Option Nat) (blocks : Nat) (hblocks : toClose width lowest history ≤ blocks) :
    unwind width history lowest blocks = ⟨toClose width lowest history, true⟩ := by
  induction history generalizing lowest blocks with
  | nil => cases h
  | cons v vs ih =>
    by_cases heq : width = v
    · subst heq
      rw [unwind_self, toClose_self]
    · have hvs : width ∈ lows vs ∧ width < v := by
        rcases List.mem_cons.mp h with h | h
        · exact absurd h heq
        · simpa using List.mem_filter.mp h
      cases hlowest : lowest.all (v < ·) with
      | true =>
        rw [toClose_counted hvs.2 hlowest] at hblocks ⊢
        obtain ⟨left, rfl⟩ : ∃ left, blocks = left + 1 := ⟨blocks - 1, by omega⟩
        rw [unwind_counted hvs.2 hlowest, ih hvs.1 (some v) left (by omega)]
      | false =>
        rw [toClose_passed hlowest] at hblocks ⊢
        rw [unwind_passed heq fun _ => hlowest, ih hvs.1 lowest blocks hblocks]

/-- Walking closes nothing if there is no greater width on the way. -/
theorem unwind_of_all_lt {width : Nat} {history : List Nat}
    (h : ∀ v ∈ history.takeWhile (· != width), v < width) (blocks : Nat) :
    unwind width history none blocks = ⟨0, true⟩ := by
  induction history with
  | nil => rfl
  | cons v vs ih =>
    by_cases heq : width = v
    · rw [heq, unwind_self]
    · have hne : (v != width) = true := by simpa using Ne.symm heq
      rw [List.takeWhile_cons_of_pos (p := (· != width)) hne] at h
      have hlt := h v List.mem_cons_self
      rw [unwind_passed heq (by omega)]
      exact ih fun u hu => h u (List.mem_cons_of_mem v hu)

/-- Walking past a greater width closes a block. -/
theorem unwind_of_exists_gt {width : Nat} {history : List Nat}
    (h : ∃ v ∈ history.takeWhile (· != width), width < v) (blocks : Nat) :
    0 < (unwind width history none (blocks + 1)).closed := by
  induction history with
  | nil =>
    obtain ⟨v, hv, -⟩ := h
    cases hv
  | cons v vs ih =>
    by_cases heq : width = v
    · obtain ⟨u, hu, -⟩ := h
      rw [List.takeWhile_cons_of_neg (by simp [heq])] at hu
      cases hu
    · have hne : (v != width) = true := by simpa using Ne.symm heq
      rw [List.takeWhile_cons_of_pos (p := (· != width)) hne] at h
      by_cases hlt : width < v
      · rw [unwind_counted hlt rfl]
        exact Nat.succ_pos _
      · rw [unwind_passed heq fun h => absurd h hlt]
        obtain ⟨u, hu, hgt⟩ := h
        rcases List.mem_cons.mp hu with rfl | hu
        · exact absurd hgt hlt
        · exact ih ⟨u, hu, hgt⟩

/-! ## The layout of a line -/

theorem Margin.layOut_wider {m : Margin} {width : Nat} (h : m.widths.headD 0 < width)
    {u : Unwound} (hu : unwind width m.widths none (m.openBlocks + 1) = u) :
    m.layOut width =
      ⟨.indent :: List.replicate u.closed .dedent, u.matched,
        if u.matched then width :: m.widths else m.widths, m.openBlocks + 1 - u.closed⟩ := by
  have hsame : m.widths.head? ≠ some width := by
    intro hsame
    rw [List.headD_eq_head?_getD, hsame] at h
    exact Nat.lt_irrefl _ h
  rw [← hu, layOut, if_neg hsame, if_pos h]
  rfl

theorem Margin.layOut_narrower {m : Margin} {width : Nat} (hsame : m.widths.head? ≠ some width)
    (h : ¬ m.widths.headD 0 < width) {u : Unwound}
    (hu : unwind width m.widths none m.openBlocks = u) :
    m.layOut width =
      ⟨List.replicate u.closed .dedent, u.matched,
        if u.matched then width :: m.widths else m.widths, m.openBlocks - u.closed⟩ := by
  rw [← hu, layOut, if_neg hsame, if_neg h]
  rfl

/-- The open blocks are those of the stack, which is found in the history. -/
structure Margin.Tracks (m : Margin) (stack : List Nat) : Prop where
  stack_eq : stack = lows m.widths
  blocks_eq : m.openBlocks + 1 = stack.length

theorem length_takeWhile_lows (history : List Nat) (width : Nat) :
    ((lows history).takeWhile (width < ·)).length = toClose width none history := by
  rw [takeWhile_eq_filter (pairwise_lows history), ← List.countP_eq_length_filter, toClose]
  simp

theorem length_dropWhile_lows (history : List Nat) (width : Nat) :
    toClose width none history + ((lows history).dropWhile (width < ·)).length =
      (lows history).length := by
  rw [← length_takeWhile_lows, ← List.length_append, List.takeWhile_append_dropWhile]

theorem lt_of_mem_lows {history : List Nat} {width v : Nat} (h : history.headD 0 < width)
    (hv : v ∈ lows history) : v < width := by
  cases history with
  | nil => cases hv
  | cons u us =>
    have hhead : u < width := h
    rcases List.mem_cons.mp hv with rfl | hv
    · exact hhead
    · have : v < u := by simpa using (List.mem_filter.mp hv).2
      omega

namespace Margin.Tracks

variable {m : Margin} {stack : List Nat}

theorem headD_eq (h : m.Tracks stack) : stack.headD 0 = m.widths.headD 0 := by
  rw [h.stack_eq, headD_lows]

/-- There are blocks enough to close for a line that has the width of an open one. -/
theorem toClose_le (h : m.Tracks stack) {width : Nat} (hmem : width ∈ stack) :
    toClose width none m.widths ≤ m.openBlocks := by
  have hlength := length_dropWhile_lows m.widths width
  have hblocks := h.blocks_eq
  rw [h.stack_eq] at hmem hblocks
  rw [dropWhile_eq_filter (pairwise_lows m.widths) hmem, List.length_cons] at hlength
  omega

/-- A line that is not wider than the last and has the width of an open block is laid out by the
usual rule. -/
theorem layOut_of_mem (h : m.Tracks stack) {width : Nat} (hwider : ¬ stack.headD 0 < width)
    (hmem : width ∈ stack) :
    m.layOut width =
      { marks := offsideMarks stack width
        matched := true
        after := ⟨width :: m.widths, m.openBlocks - toClose width none m.widths⟩ } := by
  have hle := h.toClose_le hmem
  rw [offsideMarks, if_neg hwider, h.stack_eq, length_takeWhile_lows]
  rw [h.headD_eq] at hwider
  rw [h.stack_eq] at hmem
  by_cases hsame : m.widths.head? = some width
  · have hnone : toClose width none m.widths = 0 := by
      obtain ⟨vs, hvs⟩ : ∃ vs, m.widths = width :: vs := List.head?_eq_some_iff.mp hsame
      rw [hvs, toClose_self]
    rw [Margin.layOut, if_pos hsame, hnone]
    rfl
  · exact Margin.layOut_narrower hsame hwider (unwind_of_mem_lows hmem none m.openBlocks hle)

/-- A wider line is laid out by the usual rule if it is wider than all lines since the last of its
width. -/
theorem layOut_of_wider (h : m.Tracks stack) {width : Nat} (hwider : stack.headD 0 < width)
    (hclear : ∀ v ∈ m.widths.takeWhile (· != width), v < width) :
    m.layOut width =
      { marks := offsideMarks stack width
        matched := true
        after := ⟨width :: m.widths, m.openBlocks + 1⟩ } := by
  rw [offsideMarks, if_pos hwider]
  rw [h.headD_eq] at hwider
  exact Margin.layOut_wider hwider (unwind_of_all_lt hclear _)

/-- Otherwise it also closes a block. -/
theorem marks_ne_of_shadowed (h : m.Tracks stack) {width : Nat}
    (hwider : stack.headD 0 < width)
    (hshadow : ¬ ∀ v ∈ m.widths.takeWhile (· != width), v < width) :
    (m.layOut width).marks ≠ offsideMarks stack width := by
  rw [offsideMarks, if_pos hwider]
  rw [h.headD_eq] at hwider
  have hgreater : ∃ v ∈ m.widths.takeWhile (· != width), width < v := by
    simp only [not_forall] at hshadow
    obtain ⟨v, hv, hle⟩ := hshadow
    have hne : v ≠ width := by simpa using List.mem_takeWhile_imp hv
    exact ⟨v, hv, by omega⟩
  have hclosed := unwind_of_exists_gt hgreater m.openBlocks
  rw [Margin.layOut_wider hwider rfl]
  intro hmarks
  have hlength := congrArg List.length hmarks
  simp only [List.length_cons, List.length_replicate, List.length_nil] at hlength
  omega

theorem narrower (h : m.Tracks stack) {width : Nat} (hwider : ¬ stack.headD 0 < width)
    (hmem : width ∈ stack) :
    Margin.Tracks ⟨width :: m.widths, m.openBlocks - toClose width none m.widths⟩
      (offsideStack stack width) := by
  have hle := h.toClose_le hmem
  have hlength := length_dropWhile_lows m.widths width
  have hblocks := h.blocks_eq
  rw [offsideStack, if_neg hwider]
  rw [h.stack_eq] at hmem hblocks ⊢
  refine ⟨dropWhile_eq_filter (pairwise_lows m.widths) hmem, ?_⟩
  dsimp only
  omega

theorem wider (h : m.Tracks stack) {width : Nat} (hwider : stack.headD 0 < width) :
    Margin.Tracks ⟨width :: m.widths, m.openBlocks + 1⟩ (offsideStack stack width) := by
  rw [offsideStack, if_pos hwider]
  rw [h.headD_eq] at hwider
  refine ⟨?_, ?_⟩
  · rw [h.stack_eq, lows]
    refine congrArg _ (List.filter_eq_self.mpr ?_).symm
    intro v hv
    simpa using lt_of_mem_lows hwider hv
  · rw [List.length_cons, ← h.blocks_eq]

end Margin.Tracks

/-- **Agreement with the usual rule, for widths.** -/
theorem layOuts_follow_iff {m : Margin} {stack : List Nat} (h : m.Tracks stack)
    {widths : List Nat} (hlands : lands stack widths = true) :
    (m.layOuts widths).countP (!·.matched) = 0 ∧
        (m.layOuts widths).map Layout.marks = offside stack widths ↔
      unshadowed m.widths widths = true := by
  induction widths generalizing m stack with
  | nil => exact ⟨fun _ => rfl, fun _ => ⟨rfl, rfl⟩⟩
  | cons width widths ih =>
    simp only [lands, Bool.and_eq_true, Bool.or_eq_true, decide_eq_true_eq,
      List.contains_iff_mem] at hlands
    obtain ⟨hland, hlands⟩ := hlands
    -- A line that follows the rule hands the question on to the lines behind it.
    have hfollow : ∀ after : Margin, m.layOut width = ⟨offsideMarks stack width, true, after⟩ →
        after.widths = width :: m.widths → after.Tracks (offsideStack stack width) →
        ((m.layOuts (width :: widths)).countP (!·.matched) = 0 ∧
            (m.layOuts (width :: widths)).map Layout.marks = offside stack (width :: widths) ↔
          unshadowed (width :: m.widths) widths = true) := by
      intro after hlayout hafter htracks
      have := ih htracks hlands
      rw [hafter] at this
      simpa [Margin.layOuts, offside, hlayout] using this
    by_cases hwider : stack.headD 0 < width
    · have hlater : m.widths.headD 0 < width := h.headD_eq ▸ hwider
      by_cases hclear : ∀ v ∈ m.widths.takeWhile (· != width), v < width
      · rw [hfollow _ (h.layOut_of_wider hwider hclear) rfl (h.wider hwider), unshadowed]
        have : (m.widths.takeWhile (· != width)).all (· < width) = true := by simpa using hclear
        rw [this, Bool.or_true, Bool.true_and]
      · have hne := h.marks_ne_of_shadowed hwider hclear
        constructor
        · rintro ⟨-, hmarks⟩
          exact absurd (List.cons.inj hmarks).1 hne
        · intro hunshadowed
          simp only [unshadowed, hlater, decide_true, Bool.not_true, Bool.false_or,
            Bool.and_eq_true, List.all_eq_true, decide_eq_true_eq] at hunshadowed
          exact absurd hunshadowed.1 hclear
    · have hlater : ¬ m.widths.headD 0 < width := h.headD_eq ▸ hwider
      have hmem : width ∈ stack := hland.resolve_left hwider
      rw [hfollow _ (h.layOut_of_mem hwider hmem) rfl (h.narrower hwider hmem), unshadowed]
      rw [decide_eq_false hlater, Bool.not_false, Bool.true_or, Bool.true_and]

theorem length_layOuts (m : Margin) (widths : List Nat) :
    (m.layOuts widths).length = widths.length := by
  induction widths generalizing m with
  | nil => rfl
  | cons width widths ih => rw [Margin.layOuts, List.length_cons, ih, List.length_cons]

theorem length_offside (stack widths : List Nat) :
    (offside stack widths).length = widths.length := by
  induction widths generalizing stack with
  | nil => rfl
  | cons width widths ih => rw [offside, List.length_cons, ih, List.length_cons]

theorem zip_right_inj {α β : Type} {xs : List α} {ys zs : List β} (hys : ys.length = xs.length)
    (hzs : zs.length = xs.length) : xs.zip ys = xs.zip zs ↔ ys = zs := by
  constructor
  · intro h
    rw [← List.map_snd_zip (Nat.le_of_eq hys), h, List.map_snd_zip (Nat.le_of_eq hzs)]
  · rintro rfl
    rfl

namespace Scanner

/-! ## Sources -/

theorem tracks_reset (s : Scanner) : s.reset.margin.Tracks [0] := ⟨rfl, rfl⟩

theorem finish_eq (s : Scanner) : ∃ t, s.SameBlocks t ∧ s.finish = closeBlocks s.openBlocks t := by
  unfold finish
  dsimp only
  split
  · exact ⟨s, ⟨rfl, rfl, rfl⟩, rfl⟩
  · exact ⟨s.mark .newline, sameBlocks_add (k := .newline) s "" .null fun _ => rfl, rfl⟩

/-- The end of the source reports nothing about indentation. -/
theorem indentationReports_finish (s : Scanner) :
    s.finish.indentationReports = s.indentationReports := by
  obtain ⟨t, hsame, hfinish⟩ := finish_eq s
  rw [hfinish, closeBlocks_eq, ← hsame.reports]
  rfl

/-- The end of the source closes the open blocks. -/
theorem blockMarks_finish (s : Scanner) :
    s.finish.blockMarks = s.blockMarks ++ List.replicate s.openBlocks .dedent := by
  obtain ⟨t, hsame, hfinish⟩ := finish_eq s
  rw [hfinish, closeBlocks_eq, ← hsame.marks]
  simp [blockMarks, tokens]

theorem marks_laidLines (s : Scanner) : s.laidLines.map Prod.snd =
    (s.margin.layOuts (s.lines.map indentation)).map Layout.marks := by
  rw [laidLines_eq, List.map_snd_zip]
  rw [List.length_map, length_layOuts, List.length_map]

/-- The tokens of blocks are those in front of the lines, and those at the end of the source. -/
theorem blockMarks_tokenize (s : Scanner) : s.tokenize.blockMarks =
    s.reset.laidLines.flatMap Prod.snd ++
      List.replicate s.reset.scanAll.openBlocks .dedent := by
  rw [tokenize, blockMarks_finish, blockMarks_scanAll, List.flatMap_def, ← marks_laidLines,
    ← List.flatMap_def]
  rfl

/-- A report about indentation is made for each line that is not matched. -/
theorem indentationReports_tokenize (s : Scanner) : s.tokenize.indentationReports =
    s.indentationReports +
      (s.reset.margin.layOuts (lineWidths s.source)).countP (!·.matched) := by
  rw [tokenize, indentationReports_finish, indentationReports_scanAll]
  rfl

/-- **When the scanner follows the offside rule.** For a source whose lines land on widths of open
blocks there is no report about indentation and the tokens in front of each line are those of the
usual rule, exactly if each line that is wider than the last is wider than all lines since the last
one of its own width. -/
theorem tokenize_follows_offside_iff (s : Scanner) (h : lands [0] (lineWidths s.source) = true) :
    s.tokenize.blockMarks = s.reset.laidLines.flatMap Prod.snd ++
        List.replicate s.reset.scanAll.openBlocks .dedent ∧
      (s.tokenize.indentationReports = s.indentationReports ∧
          s.reset.laidLines =
            (logicalLines {} true s.source).zip (offside [0] (lineWidths s.source)) ↔
        unshadowed [0] (lineWidths s.source) = true) := by
  refine ⟨blockMarks_tokenize s, ?_⟩
  have hwidths : s.reset.lines.map indentation = lineWidths s.source := rfl
  have hlines : s.reset.lines = logicalLines {} true s.source := rfl
  have hstart : s.reset.margin.widths = [0] := rfl
  have hlength : (logicalLines {} true s.source).length = (lineWidths s.source).length := by
    rw [lineWidths, List.length_map]
  have hfollow := layOuts_follow_iff (tracks_reset s) h
  rw [hstart] at hfollow
  rw [← hfollow, indentationReports_tokenize, laidLines_eq, hwidths, hlines, zip_right_inj]
  · exact and_congr (by omega) Iff.rfl
  · rw [List.length_map, length_layOuts, hlength]
  · rw [length_offside, hlength]

/-- Widths that go back and forth, with a tab for four blanks and lines that have no layout. -/
theorem follows_offside_sample :
    let s := Scanner.ofSource "a\n  (b\n\tc)\n    d # e\n\n\tf\n  g\n# h\ni\n    j\n" {}
    lineWidths s.source = [0, 2, 4, 4, 2, 0, 4] ∧
      lands [0] (lineWidths s.source) = true ∧
      s.tokenize.indentationReports = s.indentationReports ∧
      s.reset.laidLines =
        (logicalLines {} true s.source).zip (offside [0] (lineWidths s.source)) := by
  refine ⟨by decide, by decide, ?_⟩
  exact (tokenize_follows_offside_iff _ (by decide)).2.mpr (by decide)

/-- A line that a wider one shadows opens a block and closes it at once. The next line, which goes
back to the start, is then reported. -/
theorem shadowed_line_diverges :
    let s := Scanner.ofSource "a\n    b\nc\n  d\ne\n" {}
    lands [0] (lineWidths s.source) = true ∧
      offside [0] (lineWidths s.source) = [[], [.indent], [.dedent], [.indent], [.dedent]] ∧
      s.reset.laidLines.map Prod.snd = [[], [.indent], [.dedent], [.indent, .dedent], []] ∧
      s.tokenize.indentationReports = s.indentationReports + 1 := by
  dsimp only
  refine ⟨by decide, by decide, ?_, ?_⟩
  · rw [marks_laidLines]
    decide
  · rw [indentationReports_tokenize]
    decide

end Scanner

end Scriptlet
