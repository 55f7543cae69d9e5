import Scriptlet.Scan.Layout
import Scriptlet.Scan.Literal
import Scriptlet.Scan.Symbol

/-!
# Scanning a whole source

`Scanner.tokenize` reads a source from its start: line by line the layout, then token after token.
At the end the last line is ended and all blocks are closed. Every round of the loop passes at
least one character (`length_rest_scanToken_lt`), which is why the loop ends.
-/

namespace Scriptlet.Scanner

/-! ## What remains after each step -/

@[simp] theorem rest_advanceBy (s : Scanner) (n : Nat) : (s.advanceBy n).rest = s.rest.drop n := rfl

@[simp] theorem rest_advance (s : Scanner) : s.advance.rest = s.rest.drop 1 := rfl

@[simp] theorem rest_add (s : Scanner) (k : Kind) (l : String) (p : Document) :
    (s.add k l p).rest = s.rest := rfl

@[simp] theorem rest_mark (s : Scanner) (k : Kind) : (s.mark k).rest = s.rest := rfl

@[simp] theorem rest_fault (s : Scanner) (f : ScanFault) : (s.fault f).rest = s.rest := rfl

@[simp] theorem rest_markLine (s : Scanner) : s.markLine.rest = s.rest := rfl

@[simp] theorem rest_breakLine (s : Scanner) : s.breakLine.rest = s.rest := rfl

theorem drop_length_takeWhile (p : Char → Bool) (cs : List Char) :
    cs.drop (cs.takeWhile p).length = cs.dropWhile p := by
  induction cs with
  | nil => rfl
  | cons c cs ih => by_cases h : p c <;> simp [h, ih]

@[simp] theorem rest_skipWhile (s : Scanner) (p : Char → Bool) :
    (s.skipWhile p).rest = s.rest.dropWhile p :=
  drop_length_takeWhile p s.rest

theorem length_dropWhile_le (p : Char → Bool) (cs : List Char) :
    (cs.dropWhile p).length ≤ cs.length :=
  (List.dropWhile_sublist p).length_le

@[simp] theorem rest_closeBlocks (n : Nat) (s : Scanner) : (closeBlocks n s).rest = s.rest := by
  induction n generalizing s with
  | zero => rfl
  | succ n ih => rw [closeBlocks, ih]; rfl

@[simp] theorem rest_layOut (s : Scanner) (width : Nat) : (s.layOut width).rest = s.rest := by
  unfold layOut
  split
  · rfl
  · by_cases h : s.widths.headD 0 < width <;> simp only [h, if_true, if_false] <;> split <;>
      simp [rememberWidth, openBlock]

@[simp] theorem rest_resolveIndentation (s : Scanner) :
    s.resolveIndentation.rest = s.rest.dropWhile isIndentChar := by
  simp [resolveIndentation]

@[simp] theorem rest_passPiece (s : Scanner) (p : Piece) :
    (s.passPiece p).rest = s.rest.drop p.raw.length := by
  cases p with
  | plain c => by_cases h : c = '\n' <;> simp [passPiece, Piece.raw, h]
  | escape c => rfl

theorem length_rest_foldl_passPiece_le (ps : List Piece) (s : Scanner) :
    (ps.foldl passPiece s).rest.length ≤ s.rest.length := by
  induction ps generalizing s with
  | nil => exact Nat.le_refl _
  | cons p ps ih =>
    rw [List.foldl_cons]
    have := ih (s.passPiece p)
    simp only [rest_passPiece, List.length_drop] at this
    omega

@[simp] theorem rest_scanWord (s : Scanner) : s.scanWord.rest = s.rest.dropWhile isWordChar := by
  unfold scanWord
  dsimp only
  split
  · simp
  · split <;> simp

@[simp] theorem rest_scanNumber (s : Scanner) :
    s.scanNumber.rest = s.rest.drop (numberSpan false s.rest).length := by
  unfold scanNumber
  dsimp only
  split <;> simp

theorem length_rest_scanString_le (s : Scanner) :
    s.scanString.rest.length ≤ s.rest.length - 1 := by
  unfold scanString
  have h := length_rest_foldl_passPiece_le (splitPieces (s.rest.drop 1)).1 s.advance
  rw [rest_advance, List.length_drop] at h
  generalize splitPieces (s.rest.drop 1) = body at h ⊢
  obtain ⟨pieces, rest⟩ := body
  cases rest with
  | nil => simpa using h
  | cons c rest =>
    dsimp only at h ⊢
    split <;> simp only [rest_add, rest_fault, rest_advance, List.length_drop] <;> omega

@[simp] theorem rest_close (s : Scanner) (e : Enclosure) : (s.close e).rest = s.rest := by
  rcases s.close_cases e with ⟨n, -, h⟩ | ⟨-, h⟩
  · rw [h]; rfl
  · rw [h]; rfl

@[simp] theorem rest_endLine (s : Scanner) : s.endLine.rest = s.rest := by
  unfold endLine
  dsimp only
  split <;> rfl

theorem length_rest_accept_le (s : Scanner) (expected : String) :
    (s.accept expected).2.rest.length ≤ s.rest.length := by
  unfold accept
  split <;> simp

theorem length_rest_addOperator_le (s : Scanner) (c : Char) (alone withEqual : Kind) :
    (s.addOperator c alone withEqual).rest.length ≤ s.rest.length := by
  have h := length_rest_accept_le s "="
  unfold addOperator
  split <;> rename_i heq <;> rw [heq] at h <;> exact h

theorem length_rest_scanSymbol_le (s : Scanner) :
    s.scanSymbol.rest.length ≤ s.rest.length - 1 := by
  have h : s.advance.rest.length = s.rest.length - 1 := by simp
  unfold scanSymbol
  dsimp only
  rw [← h]
  split
  · simp
  · rename_i c _
    split
    · simp
    split
    · simp
    split
    · simp
    split
    · simp
    split
    · simp
    split
    · exact length_rest_addOperator_le ..
    · split <;> simp

/-! ## The loop -/

/-- Takes the current line for what comes next, lays the line out if it is a new one, and passes
white space. Lines that hold nothing and lines inside a group have no layout. -/
def beginToken (s : Scanner) : Scanner :=
  let s := s.markLine
  let s := if s.atLineStart && !s.atEmptyLine && !s.nested then s.resolveIndentation else s
  s.skipBlanks

/-- Reads what starts with the character `c` at the cursor: a token, a comment or a line end. -/
def scanToken (s : Scanner) (c : Char) : Scanner :=
  if isWordStart c then s.scanWord
  else if c.isDigit then s.scanNumber
  else if isQuote c then s.scanString
  else if c = '#' then s.skipLine
  else s.scanSymbol

theorem length_rest_beginToken_le (s : Scanner) : s.beginToken.rest.length ≤ s.rest.length := by
  have h : ∀ t : Scanner, t.skipBlanks.rest.length ≤ t.rest.length := fun t => by
    rw [skipBlanks, rest_skipWhile]
    exact length_dropWhile_le ..
  unfold beginToken
  dsimp only
  refine Nat.le_trans (h _) ?_
  split
  · rw [rest_resolveIndentation]
    exact length_dropWhile_le ..
  · exact Nat.le_refl _

theorem isWordChar_of_isWordStart {c : Char} (h : isWordStart c = true) : isWordChar c = true := by
  simp only [isWordStart, isWordChar, Bool.or_eq_true] at h ⊢
  exact h.imp_left Text.isAlphanumeric_of_isAlphabetic

theorem length_numberSpan_pos {c : Char} (h : c.isDigit = true) (b : Bool) (cs : List Char) :
    0 < (numberSpan b (c :: cs)).length := by
  unfold numberSpan
  split
  · simp
  · simp [h]

/-- Reading from a character passes at least that character. -/
theorem length_rest_scanToken_lt {s : Scanner} {c : Char} {cs : List Char} (h : s.rest = c :: cs) :
    (s.scanToken c).rest.length < s.rest.length := by
  have hpos : 0 < s.rest.length := by simp [h]
  unfold scanToken
  split
  · rename_i hc
    rw [rest_scanWord, h, List.dropWhile_cons_of_pos (isWordChar_of_isWordStart hc)]
    exact Nat.lt_succ_of_le (length_dropWhile_le ..)
  split
  · rename_i hc
    have := length_numberSpan_pos hc false cs
    rw [rest_scanNumber, List.length_drop, h]
    rw [h] at hpos
    omega
  split
  · have := length_rest_scanString_le s
    omega
  split
  · rename_i hc
    rw [skipLine, rest_skipWhile, h, List.dropWhile_cons_of_pos (by simp [hc])]
    exact Nat.lt_succ_of_le (length_dropWhile_le ..)
  · have := length_rest_scanSymbol_le s
    omega

/-- Reads until nothing remains. -/
def scanAll (s : Scanner) : Scanner :=
  if s.rest.isEmpty then s
  else
    let t := s.beginToken
    match _h : t.rest with
    | [] => t
    | c :: _ => scanAll (t.markLine.scanToken c)
termination_by s.rest.length
decreasing_by
  have hle := length_rest_beginToken_le s
  have hlt : (s.beginToken.markLine.scanToken c).rest.length < s.beginToken.rest.length :=
    length_rest_scanToken_lt (s := s.beginToken.markLine) _h
  omega

/-- Ends the last line and closes the blocks that are open. -/
def finish (s : Scanner) : Scanner :=
  let s := if s.emitted.isEmpty || s.endsWith .newline then s else s.mark .newline
  closeBlocks s.openBlocks s

/-- Reads the whole source from its start. -/
def tokenize (s : Scanner) : Scanner := s.reset.scanAll.finish

end Scriptlet.Scanner
