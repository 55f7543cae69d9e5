import Scriptlet.Document.Interchange
import Scriptlet.Token.Basic

/-!
# Texts on one line

Whatever text a document holds, the forms in which messages and JSON show the document have no line
end: in quotes a line end is written by its escape.

* `OneLine`: a text without a line end.
* `Number.Style.oneLine_write`, `Text.oneLine_quoted`, `Document.oneLine_jsonString`: numbers and
  texts.
* `Document.oneLine_inspect`, `Document.oneLine_json`: so all documents, by recursion.
-/

namespace Scriptlet

/-- There is no line end in the text. -/
def OneLine (s : String) : Prop := '\n' ∉ s.toList

instance (s : String) : Decidable (OneLine s) := inferInstanceAs (Decidable (¬ _))

namespace OneLine

theorem ofList {cs : List Char} (h : '\n' ∉ cs) : OneLine (String.ofList cs) := by
  rwa [OneLine, String.toList_ofList]

theorem append {s t : String} (hs : OneLine s) (ht : OneLine t) : OneLine (s ++ t) := by
  rw [OneLine, String.toList_append, List.mem_append, not_or]
  exact ⟨hs, ht⟩

theorem intercalate {separator : String} (h : OneLine separator) {texts : List String}
    (htexts : ∀ s ∈ texts, OneLine s) : OneLine (separator.intercalate texts) := by
  rw [OneLine, String.toList_intercalate]
  intro hmem
  induction texts with
  | nil => cases hmem
  | cons s texts ih =>
    obtain ⟨hs, htexts⟩ := List.forall_mem_cons.mp htexts
    cases texts with
    | nil =>
      rw [List.map_singleton, List.intercalate_singleton] at hmem
      exact hs hmem
    | cons t texts =>
      rw [List.map_cons, List.intercalate_cons_of_ne_nil (by simp), List.mem_append,
        List.mem_append] at hmem
      rcases hmem with (hmem | hmem) | hmem
      · exact hs hmem
      · exact h hmem
      · exact ih htexts hmem

end OneLine

/-! ## Digits -/

theorem newline_not_mem_toDigits {b : Nat} (hb : 1 < b) (n : Nat) : '\n' ∉ Nat.toDigits b n := by
  have hdigit : ∀ d : Nat, '\n' ≠ d.digitChar := fun d => by simp
  induction n using Nat.strongRecOn with
  | ind n ih =>
    rw [Nat.toDigits_eq_if hb]
    split
    · rw [List.mem_singleton]
      exact hdigit n
    · rename_i hn
      rw [List.mem_append, List.mem_singleton, not_or]
      exact ⟨ih _ (Nat.div_lt_self (by omega) hb), hdigit _⟩

theorem oneLine_toString_nat (n : Nat) : OneLine (toString n) := by
  rw [Nat.toString_eq_ofList_toDigits]
  exact .ofList (newline_not_mem_toDigits (by decide) n)

theorem oneLine_toString_int (n : Int) : OneLine (toString n) := by
  cases n with
  | ofNat n => exact oneLine_toString_nat n
  | negSucc n => exact OneLine.append (by decide) (oneLine_toString_nat (n + 1))

namespace Number

theorem newline_not_mem_zeros (n : Nat) : '\n' ∉ List.replicate n '0' := by
  rw [List.mem_replicate]
  rintro ⟨-, h⟩
  cases h

theorem newline_not_mem_positional (keepPoint : Bool) (d : Decimal) :
    '\n' ∉ d.positional keepPoint := by
  have hdigits := newline_not_mem_toDigits (b := 10) (by decide) d.digits
  have htake : ∀ n, '\n' ∉ (Nat.toDigits 10 d.digits).take n :=
    fun n h => hdigits (List.mem_of_mem_take h)
  have hdrop : ∀ n, '\n' ∉ (Nat.toDigits 10 d.digits).drop n :=
    fun n h => hdigits (List.mem_of_mem_drop h)
  have hzeros := newline_not_mem_zeros
  have hpoint : '\n' ∉ if keepPoint then ['.', '0'] else [] := by
    cases keepPoint with
    | true => decide
    | false => decide
  unfold Decimal.positional
  dsimp only
  split
  · simp only [List.mem_append, not_or]
    exact ⟨⟨hdigits, hzeros _⟩, hpoint⟩
  split
  · simp only [List.mem_append, List.mem_cons, not_or]
    exact ⟨htake _, by decide, hdrop _⟩
  · simp only [List.mem_append, List.mem_cons, List.cons_append, not_or]
    exact ⟨by decide, by decide, hzeros _, hdigits⟩

theorem newline_not_mem_scientific (d : Decimal) : '\n' ∉ d.scientific := by
  have hdigits := newline_not_mem_toDigits (b := 10) (by decide) d.digits
  have hfraction : '\n' ∉ (Nat.toDigits 10 d.digits).drop 1 :=
    fun h => hdigits (List.mem_of_mem_drop h)
  have hpart : '\n' ∉ (if ((Nat.toDigits 10 d.digits).drop 1).isEmpty then []
      else '.' :: (Nat.toDigits 10 d.digits).drop 1) := by
    split
    · exact List.not_mem_nil
    · rw [List.mem_cons, not_or]
      exact ⟨by decide, hfraction⟩
  have hsign : ∀ n : Int, '\n' ≠ if n < 0 then '-' else '+' := by
    intro n
    split
    · decide
    · decide
  unfold Decimal.scientific
  simp only [List.mem_append, List.mem_cons, not_or]
  exact ⟨⟨fun h => hdigits (List.mem_of_mem_take h), hpart⟩, by decide, hsign _,
    newline_not_mem_zeros _, newline_not_mem_toDigits (by decide) _⟩

/-- **Numbers are written on one line**, if infinity and NaN are. -/
theorem Style.oneLine_write (s : Style) (hinfinity : OneLine s.infinity) (hnan : OneLine s.nan)
    (x : Float) : OneLine (s.write x) := by
  have hlayOut : ∀ d, '\n' ∉ s.layOut d := by
    intro d
    unfold layOut
    split
    · exact newline_not_mem_positional _ d
    · split
      · exact newline_not_mem_positional _ d
      · exact newline_not_mem_scientific d
  have hmagnitude : ∀ w, '\n' ∉ s.magnitudeText w := by
    intro w
    unfold magnitudeText
    split
    · exact hlayOut _
    · exact hinfinity
  have hsign : '\n' ∉ if isNegative x then ['-'] else [] := by
    split
    · decide
    · decide
  unfold write
  dsimp only
  split
  · exact hnan
  · refine .ofList ?_
    rw [List.mem_append, not_or]
    exact ⟨hsign, hmagnitude _⟩

end Number

/-! ## Text in quotes -/

namespace Text

theorem newline_not_mem_hexPadded (width n : Nat) : '\n' ∉ hexPadded width n := by
  rw [hexPadded, List.mem_append, not_or]
  exact ⟨Number.newline_not_mem_zeros _, newline_not_mem_toDigits (by decide) n⟩

theorem newline_not_mem_escapeByCode (c : Char) : '\n' ∉ escapeByCode c := by
  have hescape : ∀ (letter : Char) (width : Nat), '\n' ≠ letter →
      '\n' ∉ '\\' :: letter :: hexPadded width c.toNat := by
    intro letter width hletter
    rw [List.mem_cons, List.mem_cons, not_or, not_or]
    exact ⟨by decide, hletter, newline_not_mem_hexPadded width _⟩
  unfold escapeByCode
  split
  · exact hescape 'x' 2 (by decide)
  split
  · exact hescape 'u' 4 (by decide)
  · exact hescape 'U' 8 (by decide)

theorem newline_not_mem_quotedChar {quote : Char} (hquote : quote ≠ '\n') (c : Char) :
    '\n' ∉ quotedChar quote c := by
  unfold quotedChar
  split
  · rename_i hc
    have hne : c ≠ '\n' := by
      rintro rfl
      rcases hc with hc | hc
      · exact hquote hc.symm
      · cases hc
    simpa using hne.symm
  split
  · decide
  split
  · decide
  split
  · decide
  rename_i hne _ _
  split
  · simpa using Ne.symm hne
  · exact newline_not_mem_escapeByCode c

theorem oneLine_quoted (s : String) : OneLine (quoted s) := by
  have hquote : quoteFor s.toList ≠ '\n' := by
    unfold quoteFor
    split
    · decide
    · decide
  refine .ofList ?_
  simp only [List.cons_append, List.mem_cons, List.mem_append, List.mem_flatMap, List.not_mem_nil,
    or_false, not_or, not_exists, not_and]
  exact ⟨hquote.symm, fun c _ => newline_not_mem_quotedChar hquote c, hquote.symm⟩

end Text

namespace Document

theorem newline_not_mem_escapeUnit (n : Nat) : '\n' ∉ escapeUnit n := by
  rw [escapeUnit, List.mem_cons, List.mem_cons, not_or, not_or]
  exact ⟨by decide, by decide, Text.newline_not_mem_hexPadded 4 n⟩

theorem newline_not_mem_jsonChar (c : Char) : '\n' ∉ jsonChar c := by
  unfold jsonChar
  split
  · decide
  split
  · decide
  split
  · decide
  rename_i hne
  split
  · decide
  split
  · decide
  split
  · decide
  split
  · decide
  split
  · simpa using Ne.symm hne
  split
  · exact newline_not_mem_escapeUnit _
  · rw [List.mem_append, not_or]
    exact ⟨newline_not_mem_escapeUnit _, newline_not_mem_escapeUnit _⟩

theorem oneLine_jsonString (s : String) : OneLine (jsonString s) := by
  refine .ofList ?_
  simp only [List.cons_append, List.mem_cons, List.mem_append, List.mem_flatMap, List.not_mem_nil,
    or_false, not_or, not_exists, not_and]
  exact ⟨by decide, fun c _ => newline_not_mem_jsonChar c, by decide⟩

/-! ## Documents -/

mutual

/-- **Messages show a document on one line.** -/
theorem oneLine_inspect : ∀ d : Document, OneLine d.inspect
  | .null => by decide
  | .truth true => by decide
  | .truth false => by decide
  | .integer n => oneLine_toString_int n
  | .number x => Number.Style.shown.oneLine_write (by decide) (by decide) x
  | .text s => Text.oneLine_quoted s
  | .list items => by
    rw [inspect]
    exact .append (.append (by decide) (.intercalate (by decide) (oneLine_inspectItems items)))
      (by decide)
  | .record fields => by
    rw [inspect]
    exact .append (.append (by decide) (.intercalate (by decide) (oneLine_inspectFields fields)))
      (by decide)

theorem oneLine_inspectItems : ∀ (items : List Document), ∀ s ∈ inspectItems items, OneLine s
  | [] => by simp [inspectItems]
  | d :: ds => by
    rw [inspectItems]
    exact List.forall_mem_cons.mpr ⟨oneLine_inspect d, oneLine_inspectItems ds⟩

theorem oneLine_inspectFields : ∀ (fields : List (String × Document)),
    ∀ s ∈ inspectFields fields, OneLine s
  | [] => by simp [inspectFields]
  | (name, d) :: fields => by
    rw [inspectFields]
    exact List.forall_mem_cons.mpr ⟨.append (.append (Text.oneLine_quoted name) (by decide))
      (oneLine_inspect d), oneLine_inspectFields fields⟩

end

mutual

theorem oneLine_appendJson : ∀ (d : Document) {acc : String}, OneLine acc →
    OneLine (appendJson acc d)
  | .null, _, h => by
    rw [appendJson]
    exact h.append (by decide)
  | .truth b, _, h => by
    rw [appendJson]
    exact h.append (by cases b <;> decide)
  | .integer n, _, h => by
    rw [appendJson]
    exact h.append (oneLine_toString_int n)
  | .number x, _, h => by
    rw [appendJson]
    exact h.append (jsonNumberStyle.oneLine_write (by decide) (by decide) x)
  | .text s, _, h => by
    rw [appendJson]
    exact h.append (oneLine_jsonString s)
  | .list items, _, h => by
    rw [appendJson]
    exact (oneLine_appendItems items (h.append (by decide))).append (by decide)
  | .record fields, _, h => by
    rw [appendJson]
    exact (oneLine_appendFields fields (h.append (by decide))).append (by decide)

theorem oneLine_appendItems : ∀ (items : List Document) {acc : String}, OneLine acc →
    OneLine (appendItems acc items)
  | [], _, h => by
    rw [appendItems]
    exact h
  | [d], _, h => by
    rw [appendItems]
    exact oneLine_appendJson d h
  | d :: e :: more, _, h => by
    rw [appendItems]
    exact oneLine_appendItems (e :: more) ((oneLine_appendJson d h).append (by decide))

theorem oneLine_appendFields : ∀ (fields : List (String × Document)) {acc : String}, OneLine acc →
    OneLine (appendFields acc fields)
  | [], _, h => by
    rw [appendFields]
    exact h
  | [(name, d)], _, h => by
    rw [appendFields]
    exact oneLine_appendJson d ((h.append (oneLine_jsonString name)).append (by decide))
  | (name, d) :: field :: more, _, h => by
    rw [appendFields]
    exact oneLine_appendFields (field :: more) ((oneLine_appendJson d
      ((h.append (oneLine_jsonString name)).append (by decide))).append (by decide))

end

/-- **JSON shows a document on one line.** -/
theorem oneLine_json (d : Document) : OneLine d.json := oneLine_appendJson d (by decide)

end Document

/-! ## Tokens -/

theorem Kind.oneLine_name (k : Kind) : OneLine k.name := by
  have hall : ∀ k ∈ Kind.all, OneLine k.name := by decide +kernel
  exact hall k k.mem_all

theorem Token.oneLine_inspect (t : Token) : OneLine t.inspect := by
  unfold Token.inspect
  split
  · exact t.kind.oneLine_name
  · exact .append (.append (.append t.kind.oneLine_name (by decide)) (Document.oneLine_inspect _))
      (by decide)

end Scriptlet
