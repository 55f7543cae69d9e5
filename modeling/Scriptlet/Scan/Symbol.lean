import Scriptlet.Scan.Cursor

/-!
# Symbols and line ends
-/

namespace Scriptlet

/-- Symbols of one character that nothing extends. -/
def separator? (c : Char) : Option Kind :=
  if c = ',' then some .comma
  else if c = '.' then some .period
  else if c = ':' then some .colon
  else none

/-- Operators of one character, with the operator that a following `=` makes of them. -/
def operator? (c : Char) : Option (Kind × Kind) :=
  if c = '+' then some (.plus, .plusEqual)
  else if c = '-' then some (.minus, .minusEqual)
  else if c = '*' then some (.star, .starEqual)
  else if c = '/' then some (.slash, .slashEqual)
  else if c = '%' then some (.percent, .percentEqual)
  else if c = '^' then some (.caret, .caretEqual)
  else if c = '!' then some (.bang, .bangEqual)
  else if c = '=' then some (.equal, .equalEqual)
  else if c = '>' then some (.greater, .greaterEqual)
  else if c = '<' then some (.less, .lessEqual)
  else none

/-- What a group is enclosed in. -/
inductive Enclosure where
  | paren
  | bracket
  deriving DecidableEq, Repr

namespace Enclosure

/-- The symbol that closes a group. -/
def closer : Enclosure → Kind
  | paren => .rightParen
  | bracket => .rightBracket

/-- The fault of such a symbol where no group is open. -/
def unopened : Enclosure → ScanFault
  | paren => .closingParen
  | bracket => .closingBracket

end Enclosure

namespace Scanner

/-- The number of groups that are open. -/
def openCount (s : Scanner) : Enclosure → Nat
  | .paren => s.openParens
  | .bracket => s.openBrackets

/-- The scanner with another number of open groups. -/
def withOpen (s : Scanner) (e : Enclosure) (n : Nat) : Scanner :=
  { s with
    openParens := if e = .paren then n else s.openParens
    openBrackets := if e = .bracket then n else s.openBrackets }

/-- Emits what closes a group, which is a fault if none is open. -/
def close (s : Scanner) (e : Enclosure) : Scanner :=
  let s :=
    match s.openCount e with
    | 0 => s.fault e.unopened
    | n + 1 => s.withOpen e n
  s.add e.closer e.closer.spelling .null

/-- What closes a group closes an open one or is a fault. -/
theorem close_cases (s : Scanner) (e : Enclosure) :
    (∃ n, s.openCount e = n + 1 ∧
        s.close e = (s.withOpen e n).add e.closer e.closer.spelling .null) ∨
      s.openCount e = 0 ∧
        s.close e = (s.fault e.unopened).add e.closer e.closer.spelling .null := by
  unfold close
  cases s.openCount e with
  | zero => exact .inr ⟨rfl, rfl⟩
  | succ n => exact .inl ⟨n, rfl, rfl⟩

/-- Emits a closing parenthesis. -/
abbrev closeParen (s : Scanner) : Scanner := s.close .paren

/-- Emits a closing bracket. -/
abbrev closeBracket (s : Scanner) : Scanner := s.close .bracket

/-- Whether the latest token is of the given kind. -/
def endsWith (s : Scanner) (k : Kind) : Bool := s.emitted.head?.any fun t => t.kind == k

/-- Ends a line. A line end is a token outside groups and after a line that has tokens. -/
def endLine (s : Scanner) : Scanner :=
  let s := if s.emitted.isEmpty || s.endsWith .newline || s.nested then s else s.mark .newline
  { s.breakLine with atLineStart := true }

/-- Emits the operator of a character that has been passed, together with a following `=`. -/
def addOperator (s : Scanner) (c : Char) (alone withEqual : Kind) : Scanner :=
  match s.accept "=" with
  | (true, s) => s.add withEqual (String.ofList [c, '=']) .null
  | (false, s) => s.add alone (String.ofList [c]) .null

/-- Reads a symbol or a line end. -/
def scanSymbol (s : Scanner) : Scanner :=
  let here := s.peek
  let s := s.advance
  match here with
  | none => s.fault (.unknown none)
  | some c =>
    if c = '(' then { s.add .leftParen "(" .null with openParens := s.openParens + 1 }
    else if c = ')' then s.closeParen
    else if c = '[' then { s.add .leftBracket "[" .null with openBrackets := s.openBrackets + 1 }
    else if c = ']' then s.closeBracket
    else
      match separator? c with
      | some k => s.add k (String.ofList [c]) .null
      | none =>
        match operator? c with
        | some (alone, withEqual) => s.addOperator c alone withEqual
        | none => if c = '\n' then s.endLine else s.fault (.unknown (some c))

end Scanner

end Scriptlet
