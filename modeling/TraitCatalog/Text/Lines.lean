/-
  Lines of a text.

  Three notions of a line are in use, and they differ:

  * `Text.lines` ends a line at a line feed only, so that a carriage return or
    U+2028 may stand inside one;
  * `Text.splitLines` ends a line at every mandatory break, takes CR LF as one
    break, and makes no empty last line after a final break;
  * `Text.unifyBreaks` turns CR LF and CR into LF, as reading a file in text mode
    does.
-/
import TraitCatalog.Text.Basic

namespace TraitCatalog

/-- Ends a line in `Text.splitLines`. -/
def CodePoint.isLineEnd (c : CodePoint) : Bool :=
  let n := c.toNat
  (0x0A ≤ n && n ≤ 0x0D) || (0x1C ≤ n && n ≤ 0x1E) || n == 0x85 || n == 0x2028 || n == 0x2029

namespace Text

/-- A line feed. -/
def newline : CodePoint := .scalar '\n'

/-- The lines of a text, ended by line feeds only. -/
def lines (t : Text) : List Text :=
  splitOn newline t

/-- The lines of a text, ended by any break; a break at the very end starts no
    further line. -/
def splitLines : Text → List Text
  | [] => []
  | [c] => if c.isLineEnd then [[]] else [[c]]
  | c :: d :: t =>
    if c = .scalar '\r' ∧ d = .scalar '\n' then [] :: splitLines t
    else if c.isLineEnd then [] :: splitLines (d :: t)
    else consHead c (splitLines (d :: t))

/-- CR LF and CR become LF. -/
def unifyBreaks : Text → Text
  | [] => []
  | [c] => if c = .scalar '\r' then [newline] else [c]
  | c :: d :: t =>
    if c = .scalar '\r' then
      if d = .scalar '\n' then newline :: unifyBreaks t else newline :: unifyBreaks (d :: t)
    else c :: unifyBreaks (d :: t)

end Text

end TraitCatalog
