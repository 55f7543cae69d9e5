import Scriptlet.Scan.Cursor

/-!
# Indentation

The width of a line's indentation is compared with the widths of the lines before it. A wider line
than the last opens a block. Then the earlier widths are walked, latest first, down to one equal
to the new width: each that is greater than the new width and lower than all walked before closes
a block.
-/

namespace Scriptlet

/-- The width of an indentation character: a tab counts for four. -/
def indentWidth (c : Char) : Nat := if c = ' ' then 1 else 4

/-- A character that counts for indentation. -/
def isIndentChar (c : Char) : Bool := c == ' ' || c == '\t'

/-- The result of walking down the earlier widths. -/
structure Unwound where
  /-- Blocks that the line closes. -/
  closed : Nat
  /-- No block was left open where one had to be closed. -/
  matched : Bool
  deriving DecidableEq, Repr

/-- Walks down earlier widths, latest first. `lowest` is the lowest width closed so far and
`blocks` the number of blocks that are still open. -/
def unwind (width : Nat) : List Nat → Option Nat → Nat → Unwound
  | [], _, _ => ⟨0, true⟩
  | w :: ws, lowest, blocks =>
    if width = w then ⟨0, true⟩
    else if decide (width < w) && lowest.all (fun l => decide (w < l)) then
      match blocks with
      | 0 => ⟨0, false⟩
      | left + 1 =>
        let below := unwind width ws (some w) left
        { below with closed := below.closed + 1 }
    else unwind width ws lowest blocks

namespace Scanner

/-- Opens a block. -/
def openBlock (s : Scanner) : Scanner := { s.mark .indent with openBlocks := s.openBlocks + 1 }

/-- Closes the innermost block. -/
def closeBlock (s : Scanner) : Scanner := { s.mark .dedent with openBlocks := s.openBlocks - 1 }

/-- Closes `n` blocks. -/
def closeBlocks : Nat → Scanner → Scanner
  | 0, s => s
  | n + 1, s => closeBlocks n s.closeBlock

/-- Remembers the width of a line. -/
def rememberWidth (s : Scanner) (width : Nat) : Scanner := { s with widths := width :: s.widths }

/-- Opens and closes blocks for a line of the given width, with the widths before it. A line for
which no block is left to close is a fault, and its width is not remembered. -/
def layOut (s : Scanner) (width : Nat) : Scanner :=
  if s.widths.head? = some width then s.rememberWidth width
  else
    let s := if s.widths.headD 0 < width then s.openBlock else s
    let unwound := unwind width s.widths none s.openBlocks
    let s := closeBlocks unwound.closed s
    if unwound.matched then s.rememberWidth width else s.fault .indentation

/-- Passes the indentation of a line and lays the line out. -/
def resolveIndentation (s : Scanner) : Scanner :=
  let indentation := s.rest.takeWhile isIndentChar
  (s.skipWhile isIndentChar).layOut ((indentation.map indentWidth).foldr (· + ·) 0)

end Scanner

end Scriptlet
