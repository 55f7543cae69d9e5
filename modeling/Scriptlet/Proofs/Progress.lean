import Mathlib.Data.List.Chain
import Scriptlet.Proofs.Round

/-!
# The cursor goes through the source once

The scanner takes whole stretches of text off what remains, and its loop is known to end. Here the
same scanner is a set of methods that look at one place of the source and move the cursor by one
character, with no word on why that ends. A method may go on for ever, and nothing keeps the cursor
from stepping off the source.

* `Traversal`: such methods, as partial functions on a scanner and the places where its cursor has
  been. `Traversal.iteration` is a round of the loop, `Traversal.tokenize` the whole.
* `Scanner.OnSource`: the cursor stands in the source, and what remains is the text from there.
* `Traversal.Passes`: a method ends, and the cursor has been at every place up to the one that it
  reaches, one after the other. `Passes.bind` composes this.
* `passes_passing`, `passes_measuring`, `passes_digits`, `passes_body`: the loops pass what the
  scanner takes. `passes_iteration`: a round of the loop is a round of the scanner.

`tokenize_passes_source_once` puts these together for every source.
-/

namespace Scriptlet

/-- A scanner, and where its cursor has been. -/
structure Tracked where
  scanner : Scanner
  /-- The places of the cursor, earliest first. -/
  places : List Nat

/-- A method that moves a cursor. It has no outcome if it goes on for ever. -/
abbrev Traversal := StateT Tracked Option

/-! ## The methods -/

namespace Traversal

/-- The scanner as it is. -/
def look : Traversal Scanner := fun t => some (t.scanner, t)

/-- Changes the scanner. If that moves the cursor, its new place is recorded. -/
def change (f : Scanner → Scanner) : Traversal Unit := fun t =>
  let s := f t.scanner
  some ((), ⟨s, if s.pos = t.scanner.pos then t.places else t.places ++ [s.pos]⟩)

/-- The character at the cursor, if the cursor stands in front of one. -/
def peek : Traversal (Option Char) := do
  let s ← look
  pure s.source[s.pos]?

/-- Moves the cursor past a character, or past the end. -/
def advance : Traversal (Option Char) := do
  let c ← peek
  change Scanner.advance
  pure c

/-- Passes an expected character. -/
def accept (expected : Char) : Traversal Bool := do
  if (← peek) = some expected then
    let _ ← advance
    pure true
  else pure false

/-- The text between a place and the cursor. -/
def textFrom (start : Nat) : Traversal (List Char) := do
  let s ← look
  pure ((s.source.drop start).take (s.pos - start))

/-- The loop that passes characters while a condition holds. -/
structure Passing where
  condition : Char → Bool

/-- What the loop does. -/
def Passing.call (loop : Passing) : Traversal Unit := do
  if (← peek).any loop.condition then
    let _ ← advance
    loop |>.call
  else pure ()
partial_fixpoint

/-- The loop that measures an indentation, where it has come to some width. -/
structure Measuring where
  width : Nat

/-- What the loop does from there. -/
def Measuring.call (loop : Measuring) : Traversal Nat := do
  if (← peek).any isIndentChar then
    let c ← advance
    Measuring.mk (loop.width + if c = some ' ' then 1 else 4) |>.call
  else pure loop.width
partial_fixpoint

/-- Passes the indentation of a line and lays the line out. -/
def resolveIndentation : Traversal Unit := do
  let width ← Measuring.mk 0 |>.call
  change fun s => s.layOut width

/-- Reads a word. -/
def scanWord : Traversal Unit := do
  let start ← look
  Passing.mk isWordChar |>.call
  let word := String.ofList (← textFrom start.pos)
  match Kind.keyword? word with
  | some k => change fun s => s.add k word .null
  | none =>
    match truthWord? word with
    | some b => change fun s => s.add .bool word (.truth b)
    | none => change fun s => s.add .identifier word (.text word)

/-- The loop that passes a number, where it may have met a period. -/
structure Digits where
  metPeriod : Bool

/-- What the loop does from there. -/
def Digits.call (loop : Digits) : Traversal Unit := do
  match ← peek with
  | none => pure ()
  | some c =>
    if c = '.' && !loop.metPeriod then
      let _ ← advance
      Digits.mk true |>.call
    else if c.isDigit || c == '_' then
      let _ ← advance
      loop |>.call
    else pure ()
partial_fixpoint

/-- Reads a number. -/
def scanNumber : Traversal Unit := do
  let start ← look
  Digits.mk false |>.call
  let text ← textFrom start.pos
  match Number.readChars? text with
  | some x => change fun s => s.add .number (String.ofList text) (.number x)
  | none => change fun s => s.fault (.numeral (String.ofList text))

/-- Passes a piece of a string and gives what it stands for. There is none at a quote and at the end
of the source, also if that stands behind a backslash. -/
def piece : Traversal (Option (List Char)) := do
  match ← peek with
  | none => pure none
  | some c =>
    if isQuote c then pure none
    else
      let _ ← advance
      if c = '\\' then
        match ← peek with
        | none => pure none
        | some d =>
          let _ ← advance
          pure (some (Piece.escape d).value)
      else
        if c = '\n' then change Scanner.breakLine else pure ()
        pure (some [c])

/-- The loop that passes the body of a string, where it stands for some text so far. -/
structure Body where
  chars : List Char

/-- What the loop does from there. -/
def Body.call (loop : Body) : Traversal (List Char) := do
  match ← piece with
  | none => pure loop.chars
  | some chars => Body.mk (loop.chars ++ chars) |>.call
partial_fixpoint

/-- Reads a string. -/
def scanString : Traversal Unit := do
  let start ← look
  let _ ← advance
  let chars ← Body.mk [] |>.call
  match ← peek with
  | none => change fun s => s.fault .openString
  | some _ =>
    let _ ← advance
    let text ← textFrom start.pos
    change fun s => s.add .string (String.ofList text) (.text (String.ofList chars))

/-- Emits the operator of a character that has been passed, together with a following `=`. -/
def addOperator (c : Char) (alone withEqual : Kind) : Traversal Unit := do
  if ← accept '=' then change fun s => s.add withEqual (String.ofList [c, '=']) .null
  else change fun s => s.add alone (String.ofList [c]) .null

/-- Reads a symbol or a line end. -/
def scanSymbol : Traversal Unit := do
  match ← advance with
  | none => change fun s => s.fault (.unknown none)
  | some c =>
    if c = '(' then
      change fun s => { s.add .leftParen "(" .null with openParens := s.openParens + 1 }
    else if c = ')' then change Scanner.closeParen
    else if c = '[' then
      change fun s => { s.add .leftBracket "[" .null with openBrackets := s.openBrackets + 1 }
    else if c = ']' then change Scanner.closeBracket
    else
      match separator? c with
      | some k => change fun s => s.add k (String.ofList [c]) .null
      | none =>
        match operator? c with
        | some (alone, withEqual) => addOperator c alone withEqual
        | none =>
          if c = '\n' then change Scanner.endLine
          else change fun s => s.fault (.unknown (some c))

/-- Reads what starts with the character at the cursor. -/
def scanToken (c : Char) : Traversal Unit :=
  if isWordStart c then scanWord
  else if c.isDigit then scanNumber
  else if isQuote c then scanString
  else if c = '#' then Passing.mk (· != '\n') |>.call
  else scanSymbol

/-- Lays a new line out and passes white space. -/
def beginToken : Traversal Unit := do
  change Scanner.markLine
  if (← look).startsLine then
    resolveIndentation
    Passing.mk Scanner.isInlineBlank |>.call
  else Passing.mk Scanner.isInlineBlank |>.call

/-- One round of the main loop. It tells whether the loop goes on: at the end of the source, the
round is broken off. -/
def iteration : Traversal Bool := do
  beginToken
  match ← peek with
  | none => pure false
  | some c =>
    change Scanner.markLine
    scanToken c
    pure true

/-- The main loop, where some rounds have been started. -/
structure MainLoop where
  starts : List Nat

/-- What the main loop does from there. It gives the places where its rounds started. -/
def MainLoop.call (loop : MainLoop) : Traversal (List Nat) := do
  let s ← look
  if s.pos < s.source.length then
    if ← iteration then MainLoop.mk (loop.starts ++ [s.pos]) |>.call
    else pure (loop.starts ++ [s.pos])
  else pure loop.starts
partial_fixpoint

/-- Reads the rest of the source, and gives the places where the rounds started. -/
def readAll : Traversal (List Nat) := do
  let starts ← MainLoop.mk [] |>.call
  change Scanner.finish
  pure starts

/-- Goes back to the start of the source, where a new record starts. -/
def restart : Traversal Unit := fun t => some ((), ⟨t.scanner.reset, [t.scanner.reset.pos]⟩)

/-- Reads the whole source from its start, and gives the places where the rounds started. -/
def tokenize : Traversal (List Nat) := do
  restart
  readAll

end Traversal

/-! ## Places of a source -/

namespace Scanner

/-- The cursor stands in the source, and what remains is the text from there. -/
structure OnSource (s : Scanner) : Prop where
  rest : s.rest = s.source.drop s.pos
  within : s.pos ≤ s.source.length

/-- The scanner `t` stands where `s` stands. -/
structure Stays (s t : Scanner) : Prop where
  source : t.source = s.source
  rest : t.rest = s.rest
  pos : t.pos = s.pos

variable {s t : Scanner} {c : Char} {cs : List Char}

theorem onSource_reset (s : Scanner) : s.reset.OnSource := ⟨rfl, Nat.zero_le _⟩

theorem OnSource.stays (hs : s.OnSource) (h : s.Stays t) : t.OnSource := by
  constructor
  · rw [h.rest, h.source, h.pos, hs.rest]
  · rw [h.source, h.pos]
    exact hs.within

theorem OnSource.length_rest (hs : s.OnSource) : s.rest.length = s.source.length - s.pos := by
  rw [hs.rest, List.length_drop]

theorem OnSource.pos_eq_length (hs : s.OnSource) (h : s.rest = []) : s.pos = s.source.length := by
  have hlength := hs.length_rest
  have hwithin := hs.within
  rw [h, List.length_nil] at hlength
  omega

theorem OnSource.getElem? (hs : s.OnSource) : s.source[s.pos]? = s.rest.head? := by
  rw [hs.rest, List.head?_drop]

theorem OnSource.advance (hs : s.OnSource) (h : s.rest = c :: cs) : s.advance.OnSource := by
  have hlength := hs.length_rest
  rw [h, List.length_cons] at hlength
  constructor
  · show s.rest.drop 1 = s.source.drop (s.pos + 1)
    rw [hs.rest, List.drop_drop]
  · show s.pos + 1 ≤ s.source.length
    omega

/-! ## What leaves the cursor where it is -/

theorem stays_layOut (s : Scanner) (width : Nat) : s.Stays (s.layOut width) := by
  rw [layOut_eq, laidOut]
  split
  · exact ⟨rfl, rfl, rfl⟩
  · exact ⟨rfl, rfl, rfl⟩

theorem stays_close (s : Scanner) (e : Enclosure) : s.Stays (s.close e) := by
  rcases s.close_cases e with ⟨n, -, h⟩ | ⟨-, h⟩
  · rw [h]
    exact ⟨rfl, rfl, rfl⟩
  · rw [h]
    exact ⟨rfl, rfl, rfl⟩

theorem stays_endLine (s : Scanner) : s.Stays s.endLine := by
  unfold endLine
  dsimp only
  split
  · exact ⟨rfl, rfl, rfl⟩
  · exact ⟨rfl, rfl, rfl⟩

theorem stays_finish (s : Scanner) : s.Stays s.finish := by
  unfold finish
  dsimp only
  rw [closeBlocks_eq]
  split
  · exact ⟨rfl, rfl, rfl⟩
  · exact ⟨rfl, rfl, rfl⟩

/-! ## One character at a time -/

theorem advanceBy_zero (s : Scanner) : s.advanceBy 0 = s := by
  simp [advanceBy]

theorem advanceBy_succ (s : Scanner) (n : Nat) : s.advanceBy (n + 1) = s.advance.advanceBy n := by
  simp [advance, advanceBy, Nat.add_comm, Nat.add_left_comm]

theorem rest_advance_cons (h : s.rest = c :: cs) : s.advance.rest = cs := by
  rw [rest_advance, h]
  rfl

theorem skipWhile_of_head {p : Char → Bool} (h : s.rest.head?.any p = false) :
    s.skipWhile p = s := by
  have hnone : s.rest.takeWhile p = [] := by
    cases hrest : s.rest with
    | nil => rfl
    | cons c cs =>
      rw [hrest] at h
      exact List.takeWhile_cons_of_neg (Bool.eq_false_iff.mp h)
  rw [skipWhile, hnone]
  exact advanceBy_zero s

theorem skipWhile_cons {p : Char → Bool} (h : s.rest = c :: cs) (hc : p c = true) :
    s.skipWhile p = s.advance.skipWhile p := by
  rw [skipWhile, skipWhile, rest_advance_cons h, h, List.takeWhile_cons_of_pos hc,
    List.length_cons, advanceBy_succ]

end Scanner

/-! ## Methods that end on the source -/

namespace Traversal

variable {α β : Type} {s s' s'' : Scanner} {c : Char} {cs : List Char}

/-- `m.Passes s a s'`: from `s`, the method ends, gives `a` and leaves the scanner `s'`. Its cursor
stands in the source, and it has been at the places up to there, one after the other. -/
structure Passes (m : Traversal α) (s : Scanner) (a : α) (s' : Scanner) : Prop where
  run : ∀ places, m.run ⟨s, places⟩ =
    some (a, ⟨s', places ++ List.range' (s.pos + 1) (s'.pos - s.pos)⟩)
  source : s'.source = s.source
  onSource : s'.OnSource
  forward : s.pos ≤ s'.pos

/-- A method that leaves the cursor where it is passes nothing. -/
theorem passes_of_stays {m : Traversal α} {a : α} (hs : s.OnSource) (h : s.Stays s')
    (hrun : ∀ places, m.run ⟨s, places⟩ = some (a, ⟨s', places⟩)) : m.Passes s a s' := by
  refine ⟨fun places => ?_, h.source, hs.stays h, Nat.le_of_eq h.pos.symm⟩
  rw [hrun, h.pos, Nat.sub_self, List.range'_zero, List.append_nil]

theorem passes_pure (hs : s.OnSource) (a : α) : (pure a : Traversal α).Passes s a s :=
  passes_of_stays hs ⟨rfl, rfl, rfl⟩ fun _ => rfl

theorem passes_look (hs : s.OnSource) : look.Passes s s s :=
  passes_of_stays hs ⟨rfl, rfl, rfl⟩ fun _ => rfl

theorem passes_change {f : Scanner → Scanner} (hs : s.OnSource) (h : s.Stays (f s)) :
    (change f).Passes s () (f s) :=
  passes_of_stays hs h fun places => by
    show some ((), (⟨f s, if (f s).pos = s.pos then places else _⟩ : Tracked)) = _
    rw [if_pos h.pos]

/-- **One method after the other passes one stretch after the other.** -/
theorem Passes.bind {m : Traversal α} {f : α → Traversal β} {a : α} {b : β} (h : m.Passes s a s')
    (h' : (f a).Passes s' b s'') : (m >>= f).Passes s b s'' := by
  have hfirst := h.forward
  have hsecond := h'.forward
  refine ⟨fun places => ?_, h'.source.trans h.source, h'.onSource, Nat.le_trans hfirst hsecond⟩
  -- the first method is at `s'` last, so the second one goes on with the place after
  have hstretch : List.range' (s.pos + 1) (s'.pos - s.pos) ++
      List.range' (s'.pos + 1) (s''.pos - s'.pos) = List.range' (s.pos + 1) (s''.pos - s.pos) := by
    have hjoin := List.range'_append_1 (s := s.pos + 1) (m := s'.pos - s.pos)
      (n := s''.pos - s'.pos)
    rwa [show s.pos + 1 + (s'.pos - s.pos) = s'.pos + 1 by omega,
      show s'.pos - s.pos + (s''.pos - s'.pos) = s''.pos - s.pos by omega] at hjoin
  rw [StateT.run_bind, h.run]
  show (f a).run _ = _
  rw [h'.run, List.append_assoc, hstretch]

/-! ## Steps of the cursor -/

theorem passes_peek (hs : s.OnSource) : peek.Passes s s.rest.head? s := by
  rw [← hs.getElem?]
  exact (passes_look hs).bind (passes_pure hs _)

/-- A character is passed where there is one. -/
theorem passes_advance (hs : s.OnSource) (h : s.rest = c :: cs) :
    advance.Passes s (some c) s.advance := by
  have hpeek := passes_peek hs
  rw [h] at hpeek
  have hstep : (change Scanner.advance).Passes s () s.advance := by
    refine ⟨fun places => ?_, rfl, hs.advance h, Nat.le_succ _⟩
    have hmoved : s.pos + 1 ≠ s.pos := Nat.succ_ne_self _
    have hone : s.advance.pos - s.pos = 1 := Nat.add_sub_cancel_left ..
    rw [hone]
    show some ((), (⟨s.advance, if s.pos + 1 = s.pos then _ else _⟩ : Tracked)) = _
    rw [if_neg hmoved]
    rfl
  exact hpeek.bind (hstep.bind (passes_pure hstep.onSource _))

/-- What has been passed is the text between two places. -/
theorem passes_textFrom {text : List Char} (hs : s.OnSource) (hs' : s'.OnSource)
    (hsource : s'.source = s.source) (h : s.rest = text ++ s'.rest) :
    (textFrom s.pos).Passes s' text s' := by
  have hpos : s'.pos = s.pos + text.length := by
    have hlength := congrArg List.length h
    have hwithin := hs.within
    have hwithin' := hs'.within
    rw [List.length_append, hs.length_rest, hs'.length_rest, hsource] at hlength
    rw [hsource] at hwithin'
    omega
  have htext : (s'.source.drop s.pos).take (s'.pos - s.pos) = text := by
    rw [hsource, ← hs.rest, h, hpos, Nat.add_sub_cancel_left, List.take_left]
  have hslice : (textFrom s.pos).Passes s' ((s'.source.drop s.pos).take (s'.pos - s.pos)) s' :=
    (passes_look hs').bind (passes_pure hs' _)
  rwa [htext] at hslice

/-! ## The loops -/

/-- The characters that satisfy a condition are passed one by one. -/
theorem passes_passing (hs : s.OnSource) (p : Char → Bool) :
    (Passing.mk p).call.Passes s () (s.skipWhile p) := by
  induction hrest : s.rest generalizing s with
  | nil =>
    rw [Passing.call, Scanner.skipWhile_of_head (by rw [hrest]; rfl)]
    refine (passes_peek hs).bind ?_
    rw [hrest]
    exact passes_pure hs ()
  | cons c cs ih =>
    rw [Passing.call]
    refine (passes_peek hs).bind ?_
    rw [hrest]
    show Passes (if p c = true then _ else _) s () _
    by_cases hc : p c = true
    · rw [if_pos hc, Scanner.skipWhile_cons hrest hc]
      have hadvance := passes_advance hs hrest
      exact hadvance.bind (ih hadvance.onSource (Scanner.rest_advance_cons hrest))
    · rw [if_neg hc, Scanner.skipWhile_of_head (by rw [hrest]; exact Bool.eq_false_iff.mpr hc)]
      exact passes_pure hs ()

theorem passes_measuring (hs : s.OnSource) (width : Nat) :
    (Measuring.mk width).call.Passes s (width + indentation s.rest)
      (s.skipWhile isIndentChar) := by
  -- the width so far stays in front of what the rest of the loop adds
  induction hrest : s.rest generalizing s width with
  | nil =>
    rw [Measuring.call, Scanner.skipWhile_of_head (by rw [hrest]; rfl)]
    refine (passes_peek hs).bind ?_
    rw [hrest]
    exact passes_pure hs width
  | cons c cs ih =>
    rw [Measuring.call]
    refine (passes_peek hs).bind ?_
    rw [hrest]
    show Passes (if isIndentChar c = true then _ else _) s _ _
    by_cases hc : isIndentChar c = true
    · have hadvance := passes_advance hs hrest
      have hwidth : indentation (c :: cs) = indentWidth c + indentation cs := by
        unfold indentation
        rw [List.takeWhile_cons_of_pos hc]
        rfl
      have hmore := ih hadvance.onSource (width + indentWidth c) (Scanner.rest_advance_cons hrest)
      rw [if_pos hc, Scanner.skipWhile_cons hrest hc, hwidth, ← Nat.add_assoc]
      refine hadvance.bind ?_
      simp only [Option.some.injEq]
      exact hmore
    · have hwidth : indentation (c :: cs) = 0 := by
        unfold indentation
        rw [List.takeWhile_cons_of_neg hc]
        rfl
      rw [if_neg hc, Scanner.skipWhile_of_head (by rw [hrest]; exact Bool.eq_false_iff.mpr hc),
        hwidth]
      exact passes_pure hs width

theorem passes_digits (hs : s.OnSource) (metPeriod : Bool) :
    (Digits.mk metPeriod).call.Passes s ()
      (s.advanceBy (numberSpan metPeriod s.rest).length) := by
  induction hrest : s.rest generalizing s metPeriod with
  | nil =>
    rw [Digits.call]
    refine (passes_peek hs).bind ?_
    rw [hrest, numberSpan]
    show Passes _ s () (s.advanceBy 0)
    rw [Scanner.advanceBy_zero]
    exact passes_pure hs ()
  | cons c cs ih =>
    have hadvance := passes_advance hs hrest
    have hmore := fun b => ih hadvance.onSource b (Scanner.rest_advance_cons hrest)
    rw [Digits.call]
    refine (passes_peek hs).bind ?_
    rw [hrest, numberSpan]
    dsimp only [List.head?_cons]
    split
    · rw [List.length_cons, Scanner.advanceBy_succ]
      exact hadvance.bind (hmore true)
    split
    · rw [List.length_cons, Scanner.advanceBy_succ]
      exact hadvance.bind (hmore metPeriod)
    · show Passes _ s () (s.advanceBy 0)
      rw [Scanner.advanceBy_zero]
      exact passes_pure hs ()

/-! ## Words, numbers and strings -/

theorem passes_scanWord (hs : s.OnSource) : scanWord.Passes s () s.scanWord := by
  have hloop := passes_passing hs isWordChar
  have hsplit : s.rest = s.rest.takeWhile isWordChar ++ (s.skipWhile isWordChar).rest := by
    rw [Scanner.rest_skipWhile, List.takeWhile_append_dropWhile]
  have htext := passes_textFrom hs hloop.onSource hloop.source hsplit
  unfold scanWord Scanner.scanWord
  refine (passes_look hs).bind (hloop.bind (htext.bind ?_))
  dsimp only
  cases Kind.keyword? (String.ofList (s.rest.takeWhile isWordChar)) with
  | some k => exact passes_change hloop.onSource ⟨rfl, rfl, rfl⟩
  | none =>
    cases truthWord? (String.ofList (s.rest.takeWhile isWordChar)) with
    | some b => exact passes_change hloop.onSource ⟨rfl, rfl, rfl⟩
    | none => exact passes_change hloop.onSource ⟨rfl, rfl, rfl⟩

theorem passes_scanNumber (hs : s.OnSource) : scanNumber.Passes s () s.scanNumber := by
  have hloop := passes_digits hs false
  have htext := passes_textFrom hs hloop.onSource hloop.source (numberSpan_spec false s.rest).1
  unfold scanNumber Scanner.scanNumber
  refine (passes_look hs).bind (hloop.bind (htext.bind ?_))
  dsimp only
  cases Number.readChars? (numberSpan false s.rest) with
  | some x => exact passes_change hloop.onSource ⟨rfl, rfl, rfl⟩
  | none => exact passes_change hloop.onSource ⟨rfl, rfl, rfl⟩

theorem passes_piece {p : Piece} {more : List Char} (hs : s.OnSource) (hp : p.Proper)
    (h : s.rest = p.raw ++ more) : piece.Passes s (some p.value) (s.passPiece p) := by
  unfold piece
  refine (passes_peek hs).bind ?_
  cases p with
  | plain c =>
    obtain ⟨hquote, hslash⟩ := hp
    have hadvance := passes_advance hs h
    rw [h]
    show Passes (if isQuote c = true then _ else _) s _ _
    rw [if_neg (Bool.eq_false_iff.mp hquote)]
    refine hadvance.bind ?_
    rw [if_neg hslash]
    by_cases hc : c = '\n'
    · rw [if_pos hc, Scanner.passPiece, if_pos hc]
      have hbreak := passes_change (f := Scanner.breakLine) hadvance.onSource ⟨rfl, rfl, rfl⟩
      exact hbreak.bind (passes_pure hbreak.onSource _)
    · rw [if_neg hc, Scanner.passPiece, if_neg hc]
      exact passes_pure hadvance.onSource _
  | escape d =>
    have hslash := passes_advance hs h
    have hrest : s.advance.rest = d :: more := Scanner.rest_advance_cons h
    have hescaped := passes_advance hslash.onSource hrest
    have hpass : s.passPiece (.escape d) = s.advance.advance := Scanner.advanceBy_succ s 1
    rw [h, hpass]
    refine hslash.bind ((passes_peek hslash.onSource).bind ?_)
    rw [hrest]
    exact hescaped.bind (passes_pure hescaped.onSource _)

/-- The body of a string is passed piece by piece, up to where there is no piece. -/
theorem passes_body {pieces : List Piece} {rest : List Char} (hs : s.OnSource)
    (hproper : ∀ p ∈ pieces, p.Proper) (h : s.rest = pieces.flatMap Piece.raw ++ rest)
    (hend : (pieces.foldl Scanner.passPiece s).OnSource →
      piece.Passes (pieces.foldl Scanner.passPiece s) none s') (chars : List Char) :
    (Body.mk chars).call.Passes s (chars ++ pieces.flatMap Piece.value) s' := by
  induction pieces generalizing s chars with
  | nil =>
    have hstop := hend hs
    rw [Body.call, List.flatMap_nil, List.append_nil]
    exact hstop.bind (passes_pure hstop.onSource chars)
  | cons p ps ih =>
    rw [List.flatMap_cons, List.append_assoc] at h
    have hpiece := passes_piece hs (hproper p List.mem_cons_self) h
    have hrest : (s.passPiece p).rest = ps.flatMap Piece.raw ++ rest := by
      rw [Scanner.rest_passPiece, h, List.drop_left]
    have hmore := ih hpiece.onSource (fun q hq => hproper q (List.mem_cons_of_mem p hq)) hrest hend
      (chars ++ p.value)
    rw [Body.call, List.flatMap_cons, ← List.append_assoc]
    exact hpiece.bind hmore

theorem passes_no_piece (hs : s.OnSource) (h : s.rest.head?.all isQuote = true) :
    piece.Passes s none s := by
  unfold piece
  refine (passes_peek hs).bind ?_
  cases hrest : s.rest with
  | nil => exact passes_pure hs none
  | cons c cs =>
    have hquote : isQuote c = true := by rwa [hrest] at h
    show Passes (if isQuote c = true then _ else _) s _ _
    rw [if_pos hquote]
    exact passes_pure hs none

theorem passes_lone_backslash (hs : s.OnSource) (h : s.rest = ['\\']) :
    piece.Passes s none s.advance := by
  have hadvance := passes_advance hs h
  unfold piece
  refine (passes_peek hs).bind ?_
  rw [h]
  refine hadvance.bind ((passes_peek hadvance.onSource).bind ?_)
  rw [Scanner.rest_advance_cons h]
  exact passes_pure hadvance.onSource none

theorem passes_scanString (hs : s.OnSource) (h : s.rest = c :: cs) :
    scanString.Passes s () s.scanString := by
  obtain ⟨hsplit, hproper, hrest⟩ := splitPieces_spec cs
  have hopen := passes_advance hs h
  have hcs : s.advance.rest = cs := Scanner.rest_advance_cons h
  unfold scanString Scanner.scanString
  rw [h]
  simp only [List.take_succ_cons, List.take_zero, List.drop_succ_cons, List.drop_zero]
  generalize splitPieces cs = body at *
  obtain ⟨pieces, rest⟩ := body
  dsimp only at hsplit hproper hrest ⊢
  have hleft : (pieces.foldl Scanner.passPiece s.advance).rest = rest := by
    rw [Scanner.rest_foldl_passPiece, hcs, hsplit, List.drop_left]
  refine (passes_look hs).bind (hopen.bind ?_)
  have hbody : ∀ t, ((pieces.foldl Scanner.passPiece s.advance).OnSource →
      piece.Passes (pieces.foldl Scanner.passPiece s.advance) none t) →
      (Body.mk []).call.Passes s.advance (pieces.flatMap Piece.value) t :=
    fun t hend => passes_body hopen.onSource hproper (hcs.trans hsplit) hend []
  -- The source ends in the string, ends behind a backslash in it, or the string is closed.
  rcases hrest with rfl | rfl | ⟨d, more, rfl, hd⟩
  · have hend := hbody _ (fun hu => passes_no_piece hu (by rw [hleft]; rfl))
    refine hend.bind ((passes_peek hend.onSource).bind ?_)
    rw [hleft]
    exact passes_change hend.onSource ⟨rfl, rfl, rfl⟩
  · have hend := hbody _ (fun hu => passes_lone_backslash hu hleft)
    refine hend.bind ((passes_peek hend.onSource).bind ?_)
    rw [Scanner.rest_advance_cons hleft]
    exact passes_change hend.onSource ⟨rfl, rfl, rfl⟩
  · have hend := hbody _ (fun hu => passes_no_piece hu (by rw [hleft]; exact hd))
    have hclose := passes_advance hend.onSource hleft
    have hwhole : s.rest = [c] ++ pieces.flatMap Piece.raw ++ [d] ++
        (pieces.foldl Scanner.passPiece s.advance).advance.rest := by
      rw [Scanner.rest_advance_cons hleft, h, hsplit]
      simp
    have htext := passes_textFrom hs hclose.onSource
      (hclose.source.trans (hend.source.trans hopen.source)) hwhole
    refine hend.bind ((passes_peek hend.onSource).bind ?_)
    rw [hleft]
    dsimp only [List.head?_cons]
    rw [if_pos hd]
    exact hclose.bind (htext.bind (passes_change hclose.onSource ⟨rfl, rfl, rfl⟩))

/-! ## Symbols -/

theorem passes_accept (hs : s.OnSource) :
    (accept '=').Passes s (s.accept "=").1 (s.accept "=").2 := by
  unfold accept
  refine (passes_peek hs).bind ?_
  rw [Scanner.accept_equal]
  by_cases hequal : s.rest.head? = some '='
  · obtain ⟨more, hrest⟩ := List.head?_eq_some_iff.mp hequal
    have hadvance := passes_advance hs hrest
    rw [if_pos hequal, if_pos hequal]
    exact hadvance.bind (passes_pure hadvance.onSource true)
  · rw [if_neg hequal, if_neg hequal]
    exact passes_pure hs false

theorem passes_addOperator (hs : s.OnSource) (c : Char) (alone withEqual : Kind) :
    (addOperator c alone withEqual).Passes s () (s.addOperator c alone withEqual) := by
  have haccept := passes_accept hs
  unfold addOperator Scanner.addOperator
  generalize s.accept "=" = accepted at haccept ⊢
  obtain ⟨seen, s'⟩ := accepted
  have hs' : s'.OnSource := haccept.onSource
  refine haccept.bind ?_
  dsimp only
  cases seen with
  | true =>
    rw [if_pos rfl]
    exact passes_change hs' ⟨rfl, rfl, rfl⟩
  | false =>
    rw [if_neg Bool.false_ne_true]
    exact passes_change hs' ⟨rfl, rfl, rfl⟩

theorem passes_scanSymbol (hs : s.OnSource) (h : s.rest = c :: cs) :
    scanSymbol.Passes s () s.scanSymbol := by
  have hadvance := passes_advance hs h
  have hs' := hadvance.onSource
  unfold scanSymbol Scanner.scanSymbol
  rw [show s.peek = some c by rw [Scanner.peek, h]; rfl]
  refine hadvance.bind ?_
  dsimp only
  split
  · exact passes_change hs' ⟨rfl, rfl, rfl⟩
  split
  · exact passes_change hs' (Scanner.stays_close _ .paren)
  split
  · exact passes_change hs' ⟨rfl, rfl, rfl⟩
  split
  · exact passes_change hs' (Scanner.stays_close _ .bracket)
  cases separator? c with
  | some k => exact passes_change hs' ⟨rfl, rfl, rfl⟩
  | none =>
    cases operator? c with
    | some kinds => exact passes_addOperator hs' c kinds.1 kinds.2
    | none =>
      dsimp only
      split
      · exact passes_change hs' (Scanner.stays_endLine _)
      · exact passes_change hs' ⟨rfl, rfl, rfl⟩

theorem passes_scanToken (hs : s.OnSource) (h : s.rest = c :: cs) :
    (scanToken c).Passes s () (s.scanToken c) := by
  unfold scanToken Scanner.scanToken
  split
  · exact passes_scanWord hs
  split
  · exact passes_scanNumber hs
  split
  · exact passes_scanString hs h
  split
  · exact passes_passing hs (· != '\n')
  · exact passes_scanSymbol hs h

/-! ## Rounds -/

theorem passes_resolveIndentation (hs : s.OnSource) :
    resolveIndentation.Passes s () s.resolveIndentation := by
  have hloop := passes_measuring hs 0
  rw [Nat.zero_add] at hloop
  exact hloop.bind (passes_change hloop.onSource (Scanner.stays_layOut _ _))

theorem passes_beginToken (hs : s.OnSource) : beginToken.Passes s () s.beginToken := by
  have hmark := passes_change (f := Scanner.markLine) hs ⟨rfl, rfl, rfl⟩
  have hbegin : s.beginToken = (if s.markLine.startsLine then s.markLine.resolveIndentation
      else s.markLine).skipBlanks := rfl
  unfold beginToken
  rw [hbegin]
  refine hmark.bind ((passes_look hmark.onSource).bind ?_)
  cases s.markLine.startsLine with
  | true =>
    have hindent := passes_resolveIndentation hmark.onSource
    exact hindent.bind (passes_passing hindent.onSource Scanner.isInlineBlank)
  | false => exact passes_passing hmark.onSource Scanner.isInlineBlank

/-- **A round of the loop is a round of the scanner.** It is broken off where only white space was
left. -/
theorem passes_iteration (hs : s.OnSource) :
    iteration.Passes s (!s.beginToken.rest.isEmpty) s.round := by
  have hbegin := passes_beginToken hs
  unfold iteration
  refine hbegin.bind ((passes_peek hbegin.onSource).bind ?_)
  cases hrest : s.beginToken.rest with
  | nil =>
    rw [Scanner.round_of_nil hrest]
    exact passes_pure hbegin.onSource false
  | cons c cs =>
    have hmark := passes_change (f := Scanner.markLine) hbegin.onSource ⟨rfl, rfl, rfl⟩
    have htoken := passes_scanToken (s := s.beginToken.markLine) hmark.onSource hrest
    have hround : s.round = s.beginToken.markLine.scanToken c := by
      rw [Scanner.round, hrest]
    rw [hround]
    exact hmark.bind (htoken.bind (passes_pure htoken.onSource true))

end Traversal

namespace Scanner

variable {s : Scanner}

/-- The places where the rounds of the loop start. -/
def roundStarts (s : Scanner) : List Nat :=
  if _h : s.rest = [] then [] else s.pos :: s.round.roundStarts
termination_by s.rest.length
decreasing_by exact length_rest_round_lt _h

theorem roundStarts_of_nil (h : s.rest = []) : s.roundStarts = [] := by
  rw [roundStarts, dif_pos h]

theorem roundStarts_of_ne_nil (h : s.rest ≠ []) :
    s.roundStarts = s.pos :: s.round.roundStarts := by
  rw [roundStarts, dif_neg h]

theorem OnSource.round (hs : s.OnSource) : s.round.OnSource :=
  (Traversal.passes_iteration hs).onSource

/-- **A round passes a character at least.** -/
theorem OnSource.pos_lt_pos_round (hs : s.OnSource) (h : s.rest ≠ []) : s.pos < s.round.pos := by
  have hshort := length_rest_round_lt h
  have hsource := (Traversal.passes_iteration hs).source
  have hwithin := hs.round.within
  rw [hs.length_rest, hs.round.length_rest, hsource] at hshort
  omega

theorem OnSource.head?_roundStarts (hs : s.OnSource) :
    (s.roundStarts ++ [s.source.length]).head? = some s.pos := by
  by_cases h : s.rest = []
  · rw [roundStarts_of_nil h, hs.pos_eq_length h]
    rfl
  · rw [roundStarts_of_ne_nil h]
    rfl

/-- Each round starts behind the one before, and the last one reaches the end of the source. -/
theorem OnSource.isChain_roundStarts (hs : s.OnSource) :
    List.IsChain (· < ·) (s.roundStarts ++ [s.source.length]) := by
  induction s using rounds_induction with
  | ended s h =>
    rw [roundStarts_of_nil h]
    exact .singleton _
  | next s h ih =>
    have hmore := ih hs.round
    have hhead := hs.round.head?_roundStarts
    rw [(Traversal.passes_iteration hs).source] at hmore hhead
    rw [roundStarts_of_ne_nil h, List.cons_append, List.isChain_cons, hhead]
    refine ⟨fun place hplace => ?_, hmore⟩
    cases hplace
    exact hs.pos_lt_pos_round h

end Scanner

namespace Traversal

variable {s : Scanner}

theorem passes_mainLoop (hs : s.OnSource) (starts : List Nat) :
    (MainLoop.mk starts).call.Passes s (starts ++ s.roundStarts) s.scanAll := by
  induction s using Scanner.rounds_induction generalizing starts with
  | ended s h =>
    rw [MainLoop.call, Scanner.scanAll_of_nil h, Scanner.roundStarts_of_nil h, List.append_nil]
    refine (passes_look hs).bind ?_
    rw [if_neg (by rw [hs.pos_eq_length h]; exact Nat.lt_irrefl _)]
    exact passes_pure hs starts
  | next s h ih =>
    have hround := passes_iteration hs
    have hbefore : s.pos < s.source.length :=
      Nat.lt_of_lt_of_le (hs.pos_lt_pos_round h) (hround.source ▸ hs.round.within)
    rw [MainLoop.call, Scanner.scanAll_of_ne_nil h, Scanner.roundStarts_of_ne_nil h]
    refine (passes_look hs).bind ?_
    rw [if_pos hbefore]
    refine hround.bind ?_
    -- a round that is broken off has reached the end, where the scanner's loop ends as well
    cases hleft : s.beginToken.rest with
    | nil =>
      have hended : s.round.rest = [] := by rw [Scanner.round_of_nil hleft, hleft]
      rw [Scanner.scanAll_of_nil hended, Scanner.roundStarts_of_nil hended]
      exact passes_pure hs.round _
    | cons c cs =>
      have hmore := ih hs.round (starts ++ [s.pos])
      rw [List.append_assoc] at hmore
      exact hmore

theorem passes_readAll (hs : s.OnSource) : readAll.Passes s s.roundStarts s.scanAll.finish := by
  have hloop := passes_mainLoop hs []
  have hfinish := passes_change hloop.onSource (Scanner.stays_finish s.scanAll)
  exact hloop.bind (hfinish.bind (passes_pure hfinish.onSource _))

end Traversal

/-- **The cursor goes through every source once.** Wherever it was, reading the source ends and does
what the scanner does. The cursor stands at every place of the source, one after the other and none
behind the end, each round of the loop starts behind the one before, and the loop ends at the end of
the source. -/
theorem tokenize_passes_source_once (t : Tracked) :
    let source := t.scanner.source
    let starts := t.scanner.reset.roundStarts
    Traversal.tokenize.run t =
        some (starts, ⟨t.scanner.tokenize, List.range (source.length + 1)⟩) ∧
      (starts ++ [source.length]).head? = some 0 ∧
      List.IsChain (· < ·) (starts ++ [source.length]) ∧
      t.scanner.reset.scanAll.pos = source.length ∧ t.scanner.tokenize.pos = source.length := by
  intro source starts
  have hs := t.scanner.onSource_reset
  have hloop := Traversal.passes_mainLoop hs []
  have hend : t.scanner.reset.scanAll.pos = source.length := by
    have hpos := hloop.onSource.pos_eq_length (Scanner.rest_scanAll _)
    rwa [hloop.source] at hpos
  have hfinish : t.scanner.tokenize.pos = source.length :=
    (Scanner.stays_finish _).pos.trans hend
  refine ⟨?_, hs.head?_roundStarts, hs.isChain_roundStarts, hend, hfinish⟩
  have hrun := (Traversal.passes_readAll hs).run [0]
  show _ = some (starts, (⟨t.scanner.tokenize, List.range (source.length + 1)⟩ : Tracked))
  rw [List.range_eq_range', List.range'_succ, ← hfinish]
  exact hrun

/-- A name with a letter beyond the plain ones, a text that is no numeral, and a string that ends
behind a backslash are passed in one round each. -/
example :
    let s := Scanner.ofSource " é1 2__.3 'a\\" {}
    s.roundStarts = [0, 3, 9] ∧ s.tokenize.pos = 13 := by decide +kernel

end Scriptlet
