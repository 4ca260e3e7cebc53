/-
  Texts in quotes, as they are shown in messages.

  Single quotes are used unless the text holds one and no double quote.  What does not show
  as itself is escaped.  `Bytes.shown` does the same for bytes, and the faults of encodings
  are shown with all their values.
-/
import TraitCatalog.Text.Codec
import TraitCatalog.Text.Hidden

namespace TraitCatalog

open Text (lit)

namespace Text

/-- A code point inside quotes of the kind `q`. -/
def showPoint (q c : CodePoint) : Text :=
  if c = q ∨ c = .scalar '\\' then [.scalar '\\', c]
  else if c = .scalar '\n' then lit "\\n"
  else if c = .scalar '\r' then lit "\\r"
  else if c = .scalar '\t' then lit "\\t"
  else if c.isVisible then [c]
  else c.escaped

/-- The quote for a text. -/
def quoteFor (t : Text) : CodePoint :=
  if t.contains (.scalar '\x27') && !t.contains (.scalar '"') then .scalar '"' else .scalar '\x27'

/-- A text in quotes. -/
def shown (t : Text) : Text :=
  let q := quoteFor t
  q :: t.flatMap (showPoint q) ++ [q]

end Text

namespace Bytes

/-- A byte inside quotes of the kind `q`; only ASCII shows as itself. -/
def showByte (q : CodePoint) (b : UInt8) : Text :=
  let c := Utf8.point b.toNat
  if b.toNat < 0x80 then Text.showPoint q c else c.escaped

/-- Bytes in quotes. -/
def shown (bs : List UInt8) : Text :=
  let q := Text.quoteFor (bs.map fun b => Utf8.point b.toNat)
  lit "b" ++ q :: bs.flatMap (showByte q) ++ [q]

end Bytes

/-! ## Faults -/

/-- Values in parentheses; a single value has a comma after it. -/
def shownTuple (ts : List Text) : Text :=
  lit "(" ++ Text.join (lit ", ") ts ++ (if ts.length = 1 then lit ",)" else lit ")")

/-- The values of a decoding fault that was met in some bytes. -/
def DecodeFault.shown (f : DecodeFault) (bytes : List UInt8) : Text :=
  lit "UnicodeDecodeError" ++
    shownTuple [f.codec.shown, Bytes.shown bytes, Text.ofNat f.start, Text.ofNat f.stop, f.reason.shown]

/-- The values of an encoding fault that was met in a text. -/
def EncodeFault.shown (f : EncodeFault) (t : Text) : Text :=
  lit "UnicodeEncodeError" ++
    shownTuple [f.codec.shown, t.shown, Text.ofNat f.start, Text.ofNat f.stop, f.reason.shown]

end TraitCatalog
