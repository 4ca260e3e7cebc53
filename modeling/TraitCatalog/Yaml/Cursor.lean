/-
  A place in a YAML text.

  A cursor holds what is left of the text, and the line, column and index of the place.
  The breaks of YAML 1.1 are LF, CR, CR LF, U+0085, U+2028 and U+2029; a byte order mark
  has no width.
-/
import TraitCatalog.Text.Basic

namespace TraitCatalog.Yaml

open Text (lit)

/-! ## Classes of code points -/

/-- A break. -/
def isBreak (c : CodePoint) : Bool :=
  let n := c.toNat
  n == 0x0A || n == 0x0D || n == 0x85 || n == 0x2028 || n == 0x2029

/-- A space, a tab or a break. -/
def isSeparator (c : CodePoint) : Bool :=
  c.isOneOf " \t" || isBreak c

/-- A letter, a digit, a hyphen or an underscore. -/
def isNamePoint (c : CodePoint) : Bool :=
  c.isWord || c == .scalar '-'

/-- A code point that may stand in a YAML text. -/
def isPrintable (c : CodePoint) : Bool :=
  let n := c.toNat
  n == 0x09 || n == 0x0A || n == 0x0D || (0x20 ≤ n && n ≤ 0x7E) || n == 0x85 ||
    (0xA0 ≤ n && n ≤ 0xD7FF) || (0xE000 ≤ n && n ≤ 0xFFFD) || 0x10000 ≤ n

/-- The byte order mark. -/
def byteOrderMark : CodePoint := .scalar '\uFEFF'

/-! ## Cursors -/

/-- A place in a text. -/
structure Cursor where
  rest : Text
  line : Nat
  column : Nat
  index : Nat
  /-- More than the length of the whole text, so that no loop over it has more rounds. -/
  bound : Nat

namespace Cursor

/-- The start of a text. -/
def start (t : Text) : Cursor :=
  ⟨t, 0, 0, 0, t.length + 1⟩

/-- The code point `k` places ahead, if the text goes that far. -/
def peek (c : Cursor) (k : Nat) : Option CodePoint :=
  c.rest[k]?

/-- `p` holds of the code point `k` places ahead, if there is one. -/
def sees (c : Cursor) (k : Nat) (p : CodePoint → Bool) : Bool :=
  (c.peek k).any p

/-- The code point `k` places ahead is `ch`. -/
def seesChar (c : Cursor) (k : Nat) (ch : Char) : Bool :=
  c.peek k == some (.scalar ch)

/-- The text ends `k` places ahead, or a separator is there. -/
def seesGap (c : Cursor) (k : Nat) : Bool :=
  (c.peek k).all isSeparator

/-- The text ends `k` places ahead, or a break is there. -/
def seesLineEnd (c : Cursor) (k : Nat) : Bool :=
  (c.peek k).all isBreak

/-- The text ends here. -/
def atEnd (c : Cursor) : Bool :=
  c.rest.isEmpty

/-- One place ahead.  The line feed of CR LF ends the line, its carriage return does not. -/
def next (c : Cursor) : Cursor :=
  match c.rest with
  | [] => c
  | ch :: rest =>
    if isBreak ch && !(ch == .scalar '\r' && rest.head? == some (.scalar '\n')) then
      { c with rest := rest, line := c.line + 1, column := 0, index := c.index + 1 }
    else
      { c with
        rest := rest
        column := if ch == byteOrderMark then c.column else c.column + 1
        index := c.index + 1 }

/-- `n` places ahead. -/
def skip : (n : Nat) → Cursor → Cursor
  | 0, c => c
  | n + 1, c => skip n c.next

/-- The code points from here on which `p` holds, and the place after them. -/
def takeWhile (c : Cursor) (p : CodePoint → Bool) : Text × Cursor :=
  let t := c.rest.takeWhile p
  (t, c.skip t.length)

/-- The place after the spaces that stand here. -/
def skipSpaces (c : Cursor) : Cursor :=
  (c.takeWhile (· == .scalar ' ')).2

/-- The break that stands here, as a line feed unless it is U+2028 or U+2029, and the place
    after it. -/
def takeBreak (c : Cursor) : Text × Cursor :=
  match c.peek 0 with
  | none => ([], c)
  | some ch =>
    if ch == .scalar '\r' && c.seesChar 1 '\n' then (lit "\n", c.skip 2)
    else if ch.isOneOf "\r\n\x85" then (lit "\n", c.next)
    else if isBreak ch then ([ch], c.next)
    else ([], c)

/-- Three characters `ch` stand here with a gap after them. -/
def seesMarker (c : Cursor) (ch : Char) : Bool :=
  c.seesChar 0 ch && c.seesChar 1 ch && c.seesChar 2 ch && c.seesGap 3

/-- A document marker stands here. -/
def seesDocumentMarker (c : Cursor) : Bool :=
  c.seesMarker '-' || c.seesMarker '.'

end Cursor

end TraitCatalog.Yaml
