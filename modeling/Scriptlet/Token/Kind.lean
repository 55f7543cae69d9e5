/-!
# Kinds of tokens

Every kind has a name, under which documents and messages refer to it, and a spelling: the text
of a symbol or keyword, or a word for the kinds that have no fixed text.
-/

namespace Scriptlet

/-- The kinds of tokens. -/
inductive Kind where
  | leftParen | rightParen | leftBracket | rightBracket | comma | period | colon
  | plus | plusEqual | minus | minusEqual | star | starEqual | slash | slashEqual
  | percent | percentEqual | caret | caretEqual | bang | bangEqual | equal | equalEqual
  | greater | greaterEqual | less | lessEqual
  | identifier | string | number | bool
  | kwFunc | kwDefine | kwReturn | kwContinue | kwBreak | kwPrint | kwAnd | kwOr | kwNot
  | kwIf | kwElse | kwFor | kwWhile | kwLoop | kwNone
  | newline | indent | dedent | endOfInput
  deriving DecidableEq, Repr

namespace Kind

/-- All kinds, each once. -/
def all : List Kind :=
  [leftParen, rightParen, leftBracket, rightBracket, comma, period, colon,
   plus, plusEqual, minus, minusEqual, star, starEqual, slash, slashEqual,
   percent, percentEqual, caret, caretEqual, bang, bangEqual, equal, equalEqual,
   greater, greaterEqual, less, lessEqual,
   identifier, string, number, bool,
   kwFunc, kwDefine, kwReturn, kwContinue, kwBreak, kwPrint, kwAnd, kwOr, kwNot,
   kwIf, kwElse, kwFor, kwWhile, kwLoop, kwNone,
   newline, indent, dedent, endOfInput]

/-- The name of a kind. -/
def name : Kind → String
  | leftParen => "LEFT_PAREN" | rightParen => "RIGHT_PAREN"
  | leftBracket => "LEFT_BRACKET" | rightBracket => "RIGHT_BRACKET"
  | comma => "COMMA" | period => "PERIOD" | colon => "COLON"
  | plus => "PLUS" | plusEqual => "PLUS_EQUAL"
  | minus => "MINUS" | minusEqual => "MINUS_EQUAL"
  | star => "STAR" | starEqual => "STAR_EQUAL"
  | slash => "SLASH" | slashEqual => "SLASH_EQUAL"
  | percent => "PERCENT" | percentEqual => "PERCENT_EQUAL"
  | caret => "CARET" | caretEqual => "CARET_EQUAL"
  | bang => "BANG" | bangEqual => "BANG_EQUAL"
  | equal => "EQUAL" | equalEqual => "EQUAL_EQUAL"
  | greater => "GREATER" | greaterEqual => "GREATER_EQUAL"
  | less => "LESS" | lessEqual => "LESS_EQUAL"
  | identifier => "IDENTIFIER" | string => "STRING" | number => "NUMBER" | bool => "BOOL"
  | kwFunc => "FUNC" | kwDefine => "DEFINE" | kwReturn => "RETURN"
  | kwContinue => "CONTINUE" | kwBreak => "BREAK" | kwPrint => "PRINT"
  | kwAnd => "AND" | kwOr => "OR" | kwNot => "NOT"
  | kwIf => "IF" | kwElse => "ELSE" | kwFor => "FOR"
  | kwWhile => "WHILE" | kwLoop => "LOOP" | kwNone => "NONE"
  | newline => "NEWLINE" | indent => "INDENT" | dedent => "DEDENT" | endOfInput => "EOF"

/-- The text of a symbol or keyword, or a word for a kind without a fixed text. -/
def spelling : Kind → String
  | leftParen => "(" | rightParen => ")" | leftBracket => "[" | rightBracket => "]"
  | comma => "," | period => "." | colon => ":"
  | plus => "+" | plusEqual => "+=" | minus => "-" | minusEqual => "-="
  | star => "*" | starEqual => "*=" | slash => "/" | slashEqual => "/="
  | percent => "%" | percentEqual => "%=" | caret => "^" | caretEqual => "^="
  | bang => "!" | bangEqual => "!=" | equal => "=" | equalEqual => "=="
  | greater => ">" | greaterEqual => ">=" | less => "<" | lessEqual => "<="
  | identifier => "identifier" | string => "string" | number => "number" | bool => "bool"
  | kwFunc => "func" | kwDefine => "define" | kwReturn => "return"
  | kwContinue => "continue" | kwBreak => "break" | kwPrint => "print"
  | kwAnd => "and" | kwOr => "or" | kwNot => "not"
  | kwIf => "if" | kwElse => "else" | kwFor => "for"
  | kwWhile => "while" | kwLoop => "loop" | kwNone => "none"
  | newline => "newline" | indent => "indent" | dedent => "dedent" | endOfInput => "eof"

/-- The name of a kind in lower case, as messages about values show it. -/
def label (k : Kind) : String := String.ofList (k.name.toList.map Char.toLower)

/-- The kind of a given name. -/
def ofName? (s : String) : Option Kind := all.find? fun k => k.name == s

/-- The kinds of keywords. -/
def keywords : List Kind :=
  [kwFunc, kwDefine, kwReturn, kwContinue, kwBreak, kwPrint, kwAnd, kwOr, kwNot,
   kwIf, kwElse, kwFor, kwWhile, kwLoop, kwNone]

/-- Whether a kind is a keyword. -/
def isKeyword (k : Kind) : Bool := keywords.contains k

/-- The keyword that a word spells. -/
def keyword? (word : String) : Option Kind := keywords.find? fun k => k.spelling == word

/-- The kinds that stand for a value and can be a leaf of an expression. -/
def literals : List Kind := [kwNone, bool, number, string, identifier]

/-- Whether a kind stands for a value. -/
def isLiteral (k : Kind) : Bool := literals.contains k

theorem mem_all (k : Kind) : k ∈ all := by cases k <;> decide

end Kind

end Scriptlet
