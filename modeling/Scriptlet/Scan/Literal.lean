import Scriptlet.Number.Numeral
import Scriptlet.Scan.Cursor

/-!
# Words, numbers and strings

Each scanner reads from the cursor whatever stands there, and emits one token or makes one report.
-/

namespace Scriptlet

/-- A character that can go on a word. -/
def isWordChar (c : Char) : Bool := Text.isAlphanumeric c || c == '_'

/-- A character that can start a word. -/
def isWordStart (c : Char) : Bool := Text.isAlphabetic c || c == '_'

/-- The words that are truth values. -/
def truthWord? (word : String) : Option Bool :=
  if word = "true" then some true else if word = "false" then some false else none

/-- Whether a text consists of plain digits, at least one. -/
def isDigits (s : String) : Bool := s != "" && s.toList.all Char.isDigit

/-- The longest beginning that holds plain digits, underscores and at most one period. The flag
tells whether a period was met before. -/
def numberSpan (metPeriod : Bool) : List Char → List Char
  | [] => []
  | c :: cs =>
    if c = '.' && !metPeriod then c :: numberSpan true cs
    else if c.isDigit || c == '_' then c :: numberSpan metPeriod cs
    else []

/-- Both quotes open a string, and both close it. -/
def isQuote (c : Char) : Bool := c == '\x22' || c == '\x27'

/-- The character that a backslash and another character stand for. -/
def escaped? (c : Char) : Option Char :=
  if c = '\x22' then some '\x22'
  else if c = '\x27' then some '\x27'
  else if c = '\\' then some '\\'
  else if c = '\x7b' then some '\x7b'
  else if c = 'n' then some '\n'
  else if c = 'r' then some '\r'
  else if c = 't' then some '\t'
  else none

/-- A unit of a string's body: a character by itself, or a backslash with the next character. -/
inductive Piece where
  | plain (c : Char)
  | escape (c : Char)
  deriving DecidableEq, Repr

namespace Piece

/-- The source text of a piece. -/
def raw : Piece → List Char
  | plain c => [c]
  | escape c => ['\\', c]

/-- The text that a piece stands for; an unknown escape stands for itself. -/
def value : Piece → List Char
  | plain c => [c]
  | escape c =>
    match escaped? c with
    | some d => [d]
    | none => ['\\', c]

end Piece

/-- The pieces up to the first quote outside an escape, and the text from there on. Without such
a quote, nothing or a lone backslash is left. -/
def splitPieces : List Char → List Piece × List Char
  | [] => ([], [])
  | [c] => if isQuote c || c == '\\' then ([], [c]) else ([.plain c], [])
  | c :: d :: cs =>
    if isQuote c then ([], c :: d :: cs)
    else if c = '\\' then
      let (ps, rest) := splitPieces cs
      (.escape d :: ps, rest)
    else
      let (ps, rest) := splitPieces (d :: cs)
      (.plain c :: ps, rest)

namespace Scanner

/-- Reads a word: a keyword, a truth value or a name. -/
def scanWord (s : Scanner) : Scanner :=
  let word := String.ofList (s.rest.takeWhile isWordChar)
  let s := s.skipWhile isWordChar
  match Kind.keyword? word with
  | some k => s.add k word .null
  | none =>
    match truthWord? word with
    | some b => s.add .bool word (.truth b)
    | none => s.add .identifier word (.text word)

/-- Reads a number. A text that is no numeral is passed and reported. -/
def scanNumber (s : Scanner) : Scanner :=
  let span := numberSpan false s.rest
  let lexeme := String.ofList span
  let s := s.advanceBy span.length
  match Number.readChars? span with
  | some x => s.add .number lexeme (.number x)
  | none => s.fault (.numeral lexeme)

/-- Passes a piece of a string. A newline by itself starts a line, an escaped one does not. -/
def passPiece (s : Scanner) : Piece → Scanner
  | .plain c => if c = '\n' then s.advance.breakLine else s.advance
  | .escape _ => s.advanceBy 2

/-- Reads a string from its opening quote to the next quote outside an escape. -/
def scanString (s : Scanner) : Scanner :=
  let opening := s.rest.take 1
  let (pieces, rest) := splitPieces (s.rest.drop 1)
  let s := pieces.foldl passPiece s.advance
  match rest with
  | [] => s.fault .openString
  | c :: _ =>
    let s := s.advance
    if isQuote c then
      s.add .string (String.ofList (opening ++ pieces.flatMap Piece.raw ++ [c]))
        (.text (String.ofList (pieces.flatMap Piece.value)))
    else s.fault .openString

end Scanner

end Scriptlet
