/-
  Decimal digits.

  Every script with decimal digits has them in a run of ten, from zero to nine.
  `CodePoint.decimal?` gives the value of a digit of any script, and `Text.plainDigits`
  writes the digits of a text as ASCII digits.
-/
import TraitCatalog.Text.Blank

namespace TraitCatalog

/-- The zeros of all scripts, in ascending order. -/
def digitZeros : List Nat :=
  [0x30, 0x660, 0x6F0, 0x7C0, 0x966, 0x9E6, 0xA66, 0xAE6, 0xB66, 0xBE6, 0xC66, 0xCE6, 0xD66, 0xDE6,
    0xE50, 0xED0, 0xF20, 0x1040, 0x1090, 0x17E0, 0x1810, 0x1946, 0x19D0, 0x1A80, 0x1A90, 0x1B50,
    0x1BB0, 0x1C40, 0x1C50, 0xA620, 0xA8D0, 0xA900, 0xA9D0, 0xA9F0, 0xAA50, 0xABF0, 0xFF10, 0x104A0,
    0x10D30, 0x11066, 0x110F0, 0x11136, 0x111D0, 0x112F0, 0x11450, 0x114D0, 0x11650, 0x116C0,
    0x11730, 0x118E0, 0x11950, 0x11C50, 0x11D50, 0x11DA0, 0x16A60, 0x16AC0, 0x16B50, 0x1D7CE,
    0x1D7D8, 0x1D7E2, 0x1D7EC, 0x1D7F6, 0x1E140, 0x1E2F0, 0x1E950, 0x1FBF0]

example : digitZeros.length = 66 := by decide

namespace CodePoint

/-- The value of a decimal digit of any script. -/
def decimal? (c : CodePoint) : Option Nat :=
  let n := c.toNat
  (digitZeros.find? fun first => first ≤ n && n ≤ first + 9).map (n - ·)

/-- A decimal digit of any script. -/
def isDecimal (c : CodePoint) : Bool :=
  c.decimal?.isSome

/-- The ASCII form of a digit or a blank beyond ASCII; any other code point as it is. -/
def plain (c : CodePoint) : CodePoint :=
  if c.toNat < 0x80 then c
  else if c.isBlank then scalar ' '
  else
    match c.decimal? with
    | some d => scalar (Nat.digitChar d)
    | none => c

end CodePoint

namespace Text

/-- A text with its digits and blanks in ASCII. -/
def plainDigits (t : Text) : Text :=
  t.map CodePoint.plain

end Text

end TraitCatalog
