/-
  Blank code points and trimming.

  Blanks are the code points with the Unicode property White_Space together with
  the separators U+001C to U+001F.  `Text.trim` removes them at both ends,
  `Text.trimRight` at the end, and `Text.skipBlanks` at the front.  `Text.trimSpaces` removes
  only spaces.
-/
import TraitCatalog.Text.Basic

namespace TraitCatalog

/-- A blank: White_Space, or one of the separators U+001C to U+001F. -/
def CodePoint.isBlank (c : CodePoint) : Bool :=
  let n := c.toNat
  (0x09 ≤ n && n ≤ 0x0D) || (0x1C ≤ n && n ≤ 0x20) || n == 0x85 || n == 0xA0 || n == 0x1680 ||
    (0x2000 ≤ n && n ≤ 0x200A) || n == 0x2028 || n == 0x2029 || n == 0x202F || n == 0x205F ||
    n == 0x3000

/-- A space: a blank of ASCII other than the separators. -/
def CodePoint.isSpace (c : CodePoint) : Bool :=
  let n := c.toNat
  (0x09 ≤ n && n ≤ 0x0D) || n == 0x20

namespace Text

/-- A text without the blanks at its front. -/
def skipBlanks (t : Text) : Text :=
  t.dropWhile CodePoint.isBlank

/-- A text without the blanks at its end. -/
def trimRight (t : Text) : Text :=
  (t.reverse.dropWhile CodePoint.isBlank).reverse

/-- A text without the blanks at its ends. -/
def trim (t : Text) : Text :=
  trimRight (skipBlanks t)

/-- A text without the spaces at its ends. -/
def trimSpaces (t : Text) : Text :=
  ((t.dropWhile CodePoint.isSpace).reverse.dropWhile CodePoint.isSpace).reverse

end Text

end TraitCatalog
