import Scriptlet.Scan.Source
import Mathlib.Data.List.TakeWhile

/-!
# The lexicon

* `Lexeme`: the texts of each kind of token, with the payload that goes with a text.
* `Maximal`: what must not follow a lexeme.
* `Item`, `Reads`: what a text can begin with, tokens, comments, line ends and flaws, and where
  that ends.

The scanning functions on plain text are related to these: `numberSpan_spec` for numbers,
`splitPieces_spec` for strings.
-/

namespace Scriptlet

/-! ## Classes of texts -/

/-- Kinds of symbols. -/
def Kind.symbols : List Kind :=
  [leftParen, rightParen, leftBracket, rightBracket, comma, period, colon,
   plus, plusEqual, minus, minusEqual, star, starEqual, slash, slashEqual,
   percent, percentEqual, caret, caretEqual, bang, bangEqual, equal, equalEqual,
   greater, greaterEqual, less, lessEqual]

/-- Kinds of parentheses and brackets. -/
def Kind.brackets : List Kind := [leftParen, rightParen, leftBracket, rightBracket]

/-- Operators of one character that a following `=` makes another operator of. -/
def Kind.extensible : List Kind :=
  [plus, minus, star, slash, percent, caret, bang, equal, greater, less]

/-- Kinds whose lexemes are words. -/
def Kind.isWord (k : Kind) : Bool := k == .identifier || k == .bool || k.isKeyword

/-- Kinds of tokens that lines and blocks are marked with. No text stands for them. -/
def Kind.isLayout (k : Kind) : Bool := k == .newline || k == .indent || k == .dedent

/-- A word: a character that can start one, and characters that can go on one. -/
def IsWord (w : List Char) : Prop :=
  ∃ c cs, w = c :: cs ∧ isWordStart c = true ∧ ∀ d ∈ cs, isWordChar d = true

/-- The form of a number: a digit, then digits, underscores and at most one period. -/
def IsNumber (w : List Char) : Prop :=
  (∃ c cs, w = c :: cs ∧ c.isDigit = true) ∧
    (∀ d ∈ w, d.isDigit = true ∨ d = '_' ∨ d = '.') ∧ w.count '.' ≤ 1

/-- A piece of a string that neither ends the string nor starts an escape by itself. -/
def Piece.Proper : Piece → Prop
  | plain c => isQuote c = false ∧ c ≠ '\\'
  | escape _ => True

/-- The texts of a kind, each with the payload that goes with it. -/
inductive Lexeme : Kind → List Char → Document → Prop
  | keyword {k : Kind} : k ∈ Kind.keywords → Lexeme k k.spelling.toList .null
  | truth (b : Bool) : Lexeme .bool (if b then "true" else "false").toList (.truth b)
  | name {w : List Char} : IsWord w → Kind.keyword? (String.ofList w) = none →
      truthWord? (String.ofList w) = none → Lexeme .identifier w (.text (String.ofList w))
  | number {w : List Char} {x : Float} : IsNumber w → Number.readChars? w = some x →
      Lexeme .number w (.number x)
  | string {opening closing : Char} {pieces : List Piece} : isQuote opening = true →
      isQuote closing = true → (∀ p ∈ pieces, p.Proper) →
      Lexeme .string (opening :: pieces.flatMap Piece.raw ++ [closing])
        (.text (String.ofList (pieces.flatMap Piece.value)))
  | symbol {k : Kind} : k ∈ Kind.symbols → Lexeme k k.spelling.toList .null

/-- No longer lexeme starts where this one does: what follows does not go on a word or number, nor
does it make another operator of this one. -/
structure Maximal (k : Kind) (text rest : List Char) : Prop where
  word : k.isWord = true → ∀ c ∈ rest.head?, isWordChar c = false
  number : k = .number →
    ∀ c ∈ rest.head?, c.isDigit = false ∧ c ≠ '_' ∧ ('.' ∉ text → c ≠ '.')
  operator : k ∈ Kind.extensible → rest.head? ≠ some '='

/-- Characters that open or close strings, comments and groups, or end a line. -/
def special : List Char := ['\x22', '\x27', '#', '\n', '(', ')', '[', ']']

/-- What a text can begin with. -/
inductive Item where
  | token (kind : Kind) (payload : Document)
  | comment
  | newline
  | flaw (f : ScanFault)

/-- `Reads text item rest`: the text `text ++ rest` begins with the item, which ends where `rest`
starts. -/
inductive Reads : List Char → Item → List Char → Prop
  | token {k : Kind} {text rest : List Char} {p : Document} : Lexeme k text p →
      Maximal k text rest → Reads text (.token k p) rest
  | comment {body rest : List Char} : '\n' ∉ body → (∀ c ∈ rest.head?, c = '\n') →
      Reads ('#' :: body) .comment rest
  | newline {rest : List Char} : Reads ['\n'] .newline rest
  | numeral {text rest : List Char} : IsNumber text → Number.readChars? text = none →
      Reads text (.flaw (.numeral (String.ofList text))) rest
  | openString {opening : Char} {pieces : List Piece} {tail : List Char} :
      isQuote opening = true → (∀ p ∈ pieces, p.Proper) → tail = [] ∨ tail = ['\\'] →
      Reads (opening :: pieces.flatMap Piece.raw ++ tail) (.flaw .openString) []
  | unknown {c : Char} {rest : List Char} : c ∉ special →
      Reads [c] (.flaw (.unknown (some c))) rest

theorem Maximal.of_isWord {k : Kind} {text rest : List Char} (hk : k.isWord = true)
    (h : ∀ c ∈ rest.head?, isWordChar c = false) : Maximal k text rest := by
  refine ⟨fun _ => h, ?_, fun he => ?_⟩
  · rintro rfl
    exact absurd hk (by decide)
  · have : ∀ k ∈ Kind.extensible, k.isWord = false := by decide
    rw [this k he] at hk
    cases hk

theorem Maximal.of_mem_symbols {k : Kind} {text rest : List Char} (hk : k ∈ Kind.symbols)
    (h : k ∈ Kind.extensible → rest.head? ≠ some '=') : Maximal k text rest := by
  have hword : ∀ k ∈ Kind.symbols, k.isWord = false ∧ k ≠ .number := by decide
  obtain ⟨h1, h2⟩ := hword k hk
  refine ⟨fun h' => ?_, fun h' => absurd h' h2, h⟩
  rw [h1] at h'
  cases h'

theorem Kind.keyword?_eq_some {word : String} {k : Kind} (h : Kind.keyword? word = some k) :
    k ∈ Kind.keywords ∧ k.spelling = word :=
  ⟨List.mem_of_find?_eq_some h, by simpa using List.find?_some h⟩

theorem truthWord?_eq_some {word : String} {b : Bool} (h : truthWord? word = some b) :
    word = if b then "true" else "false" := by
  unfold truthWord? at h
  split at h
  · cases h; assumption
  · split at h
    · cases h; assumption
    · cases h

theorem separator?_eq_some {c : Char} {k : Kind} (h : separator? c = some k) :
    k ∈ Kind.symbols ∧ k ∉ Kind.extensible ∧ k ∉ Kind.brackets ∧ k.spelling.toList = [c] := by
  have hmem : c ∈ [',', '.', ':'] := by
    by_contra hc
    simp only [List.mem_cons, List.not_mem_nil, or_false, not_or] at hc
    simp [separator?, hc] at h
  simp only [List.mem_cons, List.not_mem_nil, or_false] at hmem
  rcases hmem with rfl | rfl | rfl
  all_goals cases h; decide

theorem operator?_eq_some {c : Char} {alone withEqual : Kind}
    (h : operator? c = some (alone, withEqual)) :
    (alone ∈ Kind.symbols ∧ alone ∉ Kind.brackets ∧ alone.spelling.toList = [c]) ∧
      withEqual ∈ Kind.symbols ∧ withEqual ∉ Kind.extensible ∧ withEqual ∉ Kind.brackets ∧
      withEqual.spelling.toList = [c, '='] := by
  have hmem : c ∈ ['+', '-', '*', '/', '%', '^', '!', '=', '>', '<'] := by
    by_contra hc
    simp only [List.mem_cons, List.not_mem_nil, or_false, not_or] at hc
    simp [operator?, hc] at h
  simp only [List.mem_cons, List.not_mem_nil, or_false] at hmem
  rcases hmem with rfl | rfl | rfl | rfl | rfl | rfl | rfl | rfl | rfl | rfl
  all_goals cases h; decide

theorem Lexeme.not_isLayout {k : Kind} {text : List Char} {p : Document} (h : Lexeme k text p) :
    k.isLayout = false := by
  cases h with
  | keyword hk =>
    have : ∀ k ∈ Kind.keywords, k.isLayout = false := by decide
    exact this k hk
  | truth b => rfl
  | name => rfl
  | number => rfl
  | string => rfl
  | symbol hk =>
    have : ∀ k ∈ Kind.symbols, k.isLayout = false := by decide
    exact this k hk

/-- The text and payload of a symbol. -/
theorem Lexeme.of_mem_symbols {k : Kind} {text : List Char} {p : Document} (h : Lexeme k text p)
    (hk : k ∈ Kind.symbols) : text = k.spelling.toList ∧ p = .null := by
  cases h with
  | keyword => exact ⟨rfl, rfl⟩
  | symbol => exact ⟨rfl, rfl⟩
  | truth => exact absurd hk (by decide)
  | name => exact absurd hk (by decide)
  | number => exact absurd hk (by decide)
  | string => exact absurd hk (by decide)

/-- A class of characters that some characters are not in. -/
theorem not_mem_of_class {q : Char → Bool} {c : Char} {cs : List Char} (hc : q c = true)
    (hcs : cs.all (!q ·) = true) : c ∉ cs := by
  intro hmem
  have := List.all_eq_true.mp hcs c hmem
  rw [hc] at this
  cases this

/-- What is passed while a condition holds ends where it fails, whatever stands behind. -/
theorem takeWhile_append_of_dropWhile_ne {α : Type} {q : α → Bool} {xs : List α}
    (h : xs.dropWhile q ≠ []) (ys : List α) :
    (xs ++ ys).takeWhile q = xs.takeWhile q ∧ (xs ++ ys).dropWhile q = xs.dropWhile q ++ ys := by
  have hdrop : (xs ++ ys).dropWhile q = xs.dropWhile q ++ ys := by
    rw [List.dropWhile_append, if_neg (by simpa using h)]
  refine ⟨?_, hdrop⟩
  have hsplit : (xs ++ ys).takeWhile q ++ (xs.dropWhile q ++ ys) =
      xs.takeWhile q ++ (xs.dropWhile q ++ ys) := by
    rw [← hdrop, List.takeWhile_append_dropWhile, hdrop, ← List.append_assoc,
      List.takeWhile_append_dropWhile]
  exact List.append_cancel_right hsplit

/-- Characters that start a comment or end a line. -/
def breaks : List Char := ['#', '\n']

theorem IsNumber.head_not_mem {text : List Char} (h : IsNumber text) :
    ∀ c ∈ text.head?, c ∉ breaks := by
  obtain ⟨c, cs, rfl, hdigit⟩ := h.1
  rintro d ⟨⟩
  exact not_mem_of_class hdigit (by decide)

/-- No lexeme starts as a comment or a line end does. -/
theorem Lexeme.head_not_mem {k : Kind} {text : List Char} {p : Document} (h : Lexeme k text p) :
    ∀ c ∈ text.head?, c ∉ breaks := by
  have hspelling : ∀ k : Kind, k ∈ Kind.keywords ∨ k ∈ Kind.symbols →
      k.spelling.toList.head?.all (!breaks.contains ·) = true := by
    intro k
    cases k <;> decide
  have hfixed : ∀ text : List Char, text.head?.all (!breaks.contains ·) = true →
      ∀ c ∈ text.head?, c ∉ breaks := by
    intro text h c hc hmem
    rw [Option.mem_def.mp hc, Option.all_some] at h
    simp [hmem] at h
  cases h with
  | keyword hk => exact hfixed _ (hspelling k (.inl hk))
  | symbol hk => exact hfixed _ (hspelling k (.inr hk))
  | truth b => cases b <;> exact hfixed _ rfl
  | name hword =>
    obtain ⟨c, cs, rfl, hstart, -⟩ := hword
    rintro d ⟨⟩
    exact not_mem_of_class hstart (by decide)
  | number hnumber => exact hnumber.head_not_mem
  | string hopening =>
    rintro d ⟨⟩
    exact not_mem_of_class hopening (by decide)

theorem Lexeme.text_ne_nil {k : Kind} {text : List Char} {p : Document} (h : Lexeme k text p) :
    text ≠ [] := by
  have hspelling : ∀ k : Kind, k.spelling.toList ≠ [] := by
    intro k
    cases k <;> decide
  cases h with
  | keyword _ => exact hspelling k
  | truth b => cases b <;> decide
  | name hw => obtain ⟨c, cs, rfl, _⟩ := hw; simp
  | number hw => obtain ⟨⟨c, cs, rfl, _⟩, _⟩ := hw; simp
  | string _ _ _ => simp
  | symbol _ => exact hspelling k

theorem Reads.text_ne_nil {text rest : List Char} {item : Item} (h : Reads text item rest) :
    text ≠ [] := by
  cases h with
  | token hl _ => exact hl.text_ne_nil
  | numeral hw _ => obtain ⟨⟨c, cs, rfl, _⟩, _⟩ := hw; simp
  | comment _ _ => simp
  | newline => simp
  | openString _ _ _ => simp
  | unknown _ => simp

/-! ## Numbers -/

/-- The span of a number is the longest one of its form. -/
theorem numberSpan_spec (metPeriod : Bool) (cs : List Char) :
    cs = numberSpan metPeriod cs ++ cs.drop (numberSpan metPeriod cs).length ∧
    (∀ d ∈ numberSpan metPeriod cs, d.isDigit = true ∨ d = '_' ∨ d = '.') ∧
    (numberSpan metPeriod cs).count '.' ≤ (if metPeriod then 0 else 1) ∧
    ∀ c ∈ (cs.drop (numberSpan metPeriod cs).length).head?, c.isDigit = false ∧ c ≠ '_' ∧
      (metPeriod = false → '.' ∉ numberSpan metPeriod cs → c ≠ '.') := by
  fun_induction numberSpan metPeriod cs with
  | case1 metPeriod => simp
  | case2 metPeriod c cs hc ih =>
    -- the one period: from here on none is taken
    obtain ⟨h1, h2, h3, h4⟩ := ih
    simp only [Bool.and_eq_true, decide_eq_true_eq, Bool.not_eq_true'] at hc
    obtain ⟨rfl, rfl⟩ := hc
    refine ⟨congrArg _ h1, ?_, ?_, ?_⟩
    · intro d hd
      rcases List.mem_cons.mp hd with rfl | hd
      · exact .inr (.inr rfl)
      · exact h2 d hd
    · simpa using h3
    · intro d hd
      have := h4 d hd
      exact ⟨this.1, this.2.1, fun _ h => absurd (List.mem_cons_self ..) h⟩
  | case3 metPeriod c cs hc hd ih =>
    obtain ⟨h1, h2, h3, h4⟩ := ih
    have hdot : c ≠ '.' := by
      rintro rfl
      exact absurd hd (by decide)
    refine ⟨congrArg _ h1, ?_, ?_, ?_⟩
    · intro d hmem
      rcases List.mem_cons.mp hmem with rfl | hmem
      · rcases (Bool.or_eq_true _ _).mp hd with h | h
        · exact .inl h
        · exact .inr (.inl (by simpa using h))
      · exact h2 d hmem
    · rw [List.count_cons_of_ne hdot]; exact h3
    · intro d hmem
      have := h4 d hmem
      exact ⟨this.1, this.2.1, fun h hnot =>
        this.2.2 h fun hin => hnot (List.mem_cons_of_mem _ hin)⟩
  | case4 metPeriod c cs hc hd =>
    simp only [Bool.or_eq_true, beq_iff_eq, not_or, Bool.not_eq_true] at hd
    simp only [Bool.and_eq_true, decide_eq_true_eq, Bool.not_eq_true', not_and] at hc
    refine ⟨rfl, by simp, by simp, ?_⟩
    intro d hmem
    simp only [List.length_nil, List.drop_zero, List.head?_cons, Option.mem_some] at hmem
    subst hmem
    exact ⟨hd.1, hd.2, fun hmet _ hdot => hc hdot hmet⟩

/-! ## Strings -/

/-- The pieces of a string's body and what is left: a quote, a lone backslash or nothing. -/
theorem splitPieces_spec (cs : List Char) :
    cs = (splitPieces cs).1.flatMap Piece.raw ++ (splitPieces cs).2 ∧
    (∀ p ∈ (splitPieces cs).1, p.Proper) ∧
    ((splitPieces cs).2 = [] ∨ (splitPieces cs).2 = ['\\'] ∨
      ∃ c rest, (splitPieces cs).2 = c :: rest ∧ isQuote c = true) := by
  fun_induction splitPieces cs with
  | case1 => simp
  | case2 c hc =>
    refine ⟨rfl, by simp, .inr ?_⟩
    rcases (Bool.or_eq_true _ _).mp hc with h | h
    · exact .inr ⟨c, [], rfl, h⟩
    · simp only [beq_iff_eq] at h
      exact .inl (by rw [h])
  | case3 c hc =>
    simp only [Bool.or_eq_true, beq_iff_eq, not_or, Bool.not_eq_true] at hc
    refine ⟨rfl, ?_, .inl rfl⟩
    intro p hp
    rw [List.mem_singleton.mp hp]
    exact hc
  | case4 c d cs hc => exact ⟨rfl, by simp, .inr (.inr ⟨c, d :: cs, rfl, hc⟩)⟩
  | case5 d cs ps rest heq hc ih =>
    rw [heq] at ih
    obtain ⟨h1, h2, h3⟩ := ih
    refine ⟨congrArg (fun r => '\\' :: d :: r) h1, ?_, h3⟩
    intro p hp
    rcases List.mem_cons.mp hp with rfl | hp
    · trivial
    · exact h2 p hp
  | case6 c d cs hc hb ps rest heq ih =>
    rw [heq] at ih
    obtain ⟨h1, h2, h3⟩ := ih
    refine ⟨congrArg (c :: ·) h1, ?_, h3⟩
    intro p hp
    rcases List.mem_cons.mp hp with rfl | hp
    · exact ⟨by simpa using hc, hb⟩
    · exact h2 p hp

end Scriptlet
