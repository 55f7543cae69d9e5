import Scriptlet.Diagnostic
import Scriptlet.Tree.Grammar

/-!
# Parsing programs

A program is a list of statements. Parsing always gives one: a token at which no statement starts
is reported and passed. `Parser` is a token list with a place in it, for parsing piece by piece.
-/

namespace Scriptlet

/-- Passes a line end if it comes next. -/
def skipNewline : List Token → List Token
  | [] => []
  | t :: ts => if t.kind = .newline then ts else t :: ts

/-- Reads a statement and the line end after it. A printing statement asks for a line end
somewhere ahead. -/
def parseStatement (ts : List Token) : Parsed Node :=
  match ts with
  | [] =>
    let e := parseExpression []
    ⟨.expression e.value, skipNewline e.rest, e.issues⟩
  | t :: more =>
    if t.kind = .kwPrint then
      let e := parseExpression more
      ⟨.print e.value, skipNewline e.rest, e.issues ++ expect .newline e.rest⟩
    else
      let e := parseExpression (t :: more)
      ⟨.expression e.value, skipNewline e.rest, e.issues⟩

theorem length_skipNewline_le (ts : List Token) : (skipNewline ts).length ≤ ts.length := by
  unfold skipNewline
  split
  · exact Nat.le_refl _
  · split <;> simp

/-- Reads statements until at most one token is left. A statement that takes no token is dropped,
and the token at which it stands is passed. -/
def parseProgram (ts : List Token) : Parsed (List Node) :=
  match ts with
  | t :: next :: more =>
    let statement := parseStatement (t :: next :: more)
    if _h : statement.rest.length < (t :: next :: more).length then
      let program := parseProgram statement.rest
      { program with
        value := statement.value :: program.value
        issues := statement.issues ++ program.issues }
    else
      let program := parseProgram (next :: more)
      { program with
        issues := statement.issues ++ ⟨.unexpected t.kind, some t.line⟩ :: program.issues }
  | _ => ⟨[], ts, []⟩
termination_by ts.length
decreasing_by
  · exact _h
  · exact Nat.lt_succ_self _

/-- The report of an issue. -/
def Issue.diagnostic (i : Issue) : Diagnostic :=
  ⟨Diagnostic.parsing, i.complaint.message, i.line⟩

/-- A token list with a place in it. -/
structure Parser where
  tokens : List Token
  rest : List Token
  failed : Bool := false
  /-- The reports of all stages. They outlive a restart. -/
  reports : Diagnostics := {}

namespace Parser

/-- A parser at the start of a token list, after reports made earlier. -/
def ofTokens (ts : List Token) (reports : Diagnostics) : Parser :=
  { tokens := ts, rest := ts, reports := reports }

/-- Back to the start, with the reports kept. -/
def reset (p : Parser) : Parser := ofTokens p.tokens p.reports

/-- The number of tokens passed. -/
def pos (p : Parser) : Nat := p.tokens.length - p.rest.length

/-- Reports issues. -/
def note (p : Parser) (issues : List Issue) : Parser :=
  { p with
    failed := p.failed || !issues.isEmpty
    reports := p.reports ++ issues.map Issue.diagnostic }

/-- Takes over what has been read. -/
def take {α : Type} (p : Parser) (parsed : Parsed α) : α × Parser :=
  (parsed.value, { p.note parsed.issues with rest := parsed.rest })

/-- What a place off the list raises. -/
def outOfRange : Raised := ⟨"IndexError", "list index out of range"⟩

/-- The token `offset` places after the cursor, if there is one. A place before the first token
counts from the end of the list, and one before all tokens is out of range. -/
def peek? (p : Parser) (offset : Int) : Except Raised (Option Token) :=
  let index := (p.pos : Int) + offset
  if 0 ≤ index then .ok p.tokens[index.toNat]?
  else if 0 ≤ index + p.tokens.length then .ok p.tokens[(index + p.tokens.length).toNat]?
  else .error outOfRange

/-- Passes a token, which there must be. -/
def advance? (p : Parser) : Except Raised (Token × Parser) :=
  match p.rest with
  | [] => .error outOfRange
  | t :: ts => .ok (t, { p with rest := ts })

/-- Whether the next token is of one of the given kinds. -/
def startsWith (p : Parser) (kinds : List Kind) : Bool := Scriptlet.startsWith kinds p.rest

/-- Reports a kind that is missing from the tokens ahead. -/
def expect (p : Parser) (kind : Kind) : Parser := p.note (Scriptlet.expect kind p.rest)

/-- Reads the token that closes a group at the cursor. -/
def closeGroup (p : Parser) (closer : Kind) : Token × Parser :=
  p.take (Scriptlet.closeGroup closer p.rest)

/-- Reads a piece of the program at the cursor. -/
def read {α : Type} (p : Parser) (piece : List Token → Parsed α) : α × Parser :=
  p.take (piece p.rest)

/-- Reads the whole program from its start. -/
def parse (p : Parser) : List Node × Parser := p.reset.read parseProgram

end Parser

end Scriptlet
