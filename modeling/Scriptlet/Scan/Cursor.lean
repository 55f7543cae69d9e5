import Scriptlet.Diagnostic
import Scriptlet.Text.Classes
import Scriptlet.Token.Basic

/-!
# The scanner's state

A scanner holds the text that remains, its place in the source, the layout seen so far, and the
tokens and reports it has made. Cursor moves may run past the end of the text: the place goes on
counting while nothing remains.
-/

namespace Scriptlet

/-- A scanner at some place of its source. -/
structure Scanner where
  source : List Char
  /-- The text from the cursor on. -/
  rest : List Char
  /-- Characters passed, those past the end included. -/
  pos : Nat := 0
  line : Nat := 1
  column : Nat := 1
  /-- The line that new tokens and reports carry. -/
  tokenLine : Nat := 1
  /-- No character of the current line has been passed. -/
  atLineStart : Bool := true
  /-- A report was made since the start. -/
  failed : Bool := false
  /-- Widths of the lines resolved so far, latest first. -/
  widths : List Nat := [0]
  openBlocks : Nat := 0
  openParens : Nat := 0
  openBrackets : Nat := 0
  /-- Tokens, latest first. -/
  emitted : List Token := []
  /-- The reports of all stages. They outlive a restart. -/
  reports : Diagnostics := {}

namespace Scanner

/-- A scanner at the start of a source, after reports made earlier. -/
def ofChars (source : List Char) (reports : Diagnostics) : Scanner :=
  { source := source, rest := source, reports := reports }

/-- A scanner at the start of a source, after reports made earlier. -/
def ofSource (source : String) (reports : Diagnostics) : Scanner :=
  ofChars source.toList reports

/-- Back to the start of the source, with the reports kept. -/
def reset (s : Scanner) : Scanner := ofChars s.source s.reports

/-- The tokens, earliest first. -/
def tokens (s : Scanner) : List Token := s.emitted.reverse

/-- Whether nothing remains. -/
def atEnd (s : Scanner) : Bool := s.rest.isEmpty

/-- The character at the cursor. -/
def peek (s : Scanner) : Option Char := s.rest.head?

/-- The character at the cursor as a text, which is empty at the end. -/
def peekText (s : Scanner) : String := String.ofList s.peek.toList

/-- Moves the cursor by `n` characters. -/
def advanceBy (s : Scanner) (n : Nat) : Scanner :=
  { s with
    rest := s.rest.drop n
    pos := s.pos + n
    column := s.column + n
    atLineStart := s.atLineStart && n == 0 }

/-- Moves the cursor past one character, or past the end. -/
def advance (s : Scanner) : Scanner := s.advanceBy 1

/-- Moves the cursor past the characters that satisfy `p`. -/
def skipWhile (s : Scanner) (p : Char → Bool) : Scanner :=
  s.advanceBy (s.rest.takeWhile p).length

/-- Passes the expected text if the cursor stands at it; the empty text is expected at the end. -/
def accept (s : Scanner) (expected : String) : Bool × Scanner :=
  if s.peekText = expected then (true, s.advance) else (false, s)

/-- Emits a token at the token line. -/
def add (s : Scanner) (kind : Kind) (lexeme : String) (payload : Document) : Scanner :=
  { s with emitted := ⟨kind, lexeme, payload, s.tokenLine⟩ :: s.emitted }

/-- Emits a token that no text stands for. -/
def mark (s : Scanner) (kind : Kind) : Scanner := s.add kind "" .null

/-- Makes a report at the token line. -/
def report (s : Scanner) (message : String) : Scanner :=
  { s with
    reports := s.reports.report ⟨Diagnostic.lexing, message, some s.tokenLine⟩
    failed := true }

/-- From here on, tokens and reports carry the current line. -/
def markLine (s : Scanner) : Scanner := { s with tokenLine := s.line }

/-- Starts the next line. -/
def breakLine (s : Scanner) : Scanner := { s with line := s.line + 1, column := 1 }

/-- Whether a parenthesis or bracket is open. -/
def nested (s : Scanner) : Bool := decide (0 < s.openParens) || decide (0 < s.openBrackets)

/-- White space within a line. -/
def isInlineBlank (c : Char) : Bool := Text.isBlank c && c != '\n'

/-- Whether the rest of the line is blank or a comment. -/
def atEmptyLine (s : Scanner) : Bool :=
  match s.rest.dropWhile isInlineBlank with
  | [] => true
  | c :: _ => c == '\n' || c == '#'

/-- Passes white space within the line. -/
def skipBlanks (s : Scanner) : Scanner := s.skipWhile isInlineBlank

/-- Passes the rest of the line. -/
def skipLine (s : Scanner) : Scanner := s.skipWhile (· != '\n')

end Scanner

/-- What can be wrong with a source text. -/
inductive ScanFault where
  | indentation
  | numeral (lexeme : String)
  | openString
  | closingParen
  | closingBracket
  /-- A character that starts no token, or the end of the text. -/
  | unknown (c : Option Char)
  deriving DecidableEq

/-- The wording of a fault. -/
def ScanFault.message : ScanFault → String
  | indentation => "could not find line with matching indentation level"
  | numeral lexeme => "invalid number literal '" ++ lexeme ++ "'"
  | openString => "found end of input while looking for end of string"
  | closingParen => "found closing parenthesis without matching opening parenthesis"
  | closingBracket => "found closing bracket without matching opening bracket"
  | unknown c => "found unknown symbol " ++ Text.quoted (String.ofList c.toList)

/-- Reports a fault. -/
def Scanner.fault (s : Scanner) (f : ScanFault) : Scanner := s.report f.message

end Scriptlet
