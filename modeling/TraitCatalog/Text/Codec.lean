/-
  Text encodings.

  An `Encoding` turns bytes into a text and back, strictly: the first place that does
  not fit ends the work with a fault that gives the place.

  * UTF-8 is read byte by byte (`Utf8.decodeFrom`): a sequence under way knows the range
    that its next byte must lie in, so surrogates, overlong forms and values beyond
    U+10FFFF are refused at the byte that betrays them; the fault covers the bytes taken
    before it;
  * a faulty place in writing covers the whole run of code points that do not fit;
  * `Encoding.ofName?` knows the names of the encodings, in any case and with any
    punctuation between their parts, though not with any dots.
-/
import TraitCatalog.Text.Basic

namespace TraitCatalog

open Text (lit)

/-- The encodings of data files. -/
inductive Encoding where
  | utf8
  /-- UTF-8 with a byte order mark at the front. -/
  | utf8Signed
  | latin1
  | ascii
  | utf16le
  deriving DecidableEq, Repr

/-! ## Faults -/

/-- Bytes `start` to `stop - 1` are not text; the first of them is `byte`. -/
structure DecodeFault where
  codec : Text
  byte : UInt8
  start : Nat
  stop : Nat
  reason : Text
  deriving DecidableEq, Repr

/-- Code points `start` to `stop - 1` cannot be written; the first of them is `point`. -/
structure EncodeFault where
  codec : Text
  point : CodePoint
  start : Nat
  stop : Nat
  reason : Text
  deriving DecidableEq, Repr

/-- The wording of a decoding fault. -/
def DecodeFault.message (f : DecodeFault) : Text :=
  lit "'" ++ f.codec ++ lit "' codec can't decode " ++
    (if f.stop = f.start + 1 then
      lit "byte 0x" ++ Text.hex 2 f.byte.toNat ++ lit " in position " ++ Text.ofNat f.start
    else
      lit "bytes in position " ++ Text.ofNat f.start ++ lit "-" ++ Text.ofNat (f.stop - 1)) ++
    lit ": " ++ f.reason

/-- A code point as an escape with two, four or eight digits. -/
def CodePoint.escaped (c : CodePoint) : Text :=
  let n := c.toNat
  if n < 0x100 then lit "\\x" ++ Text.hex 2 n
  else if n < 0x10000 then lit "\\u" ++ Text.hex 4 n
  else lit "\\U" ++ Text.hex 8 n

/-- The wording of an encoding fault. -/
def EncodeFault.message (f : EncodeFault) : Text :=
  lit "'" ++ f.codec ++ lit "' codec can't encode " ++
    (if f.stop = f.start + 1 then
      lit "character '" ++ f.point.escaped ++ lit "' in position " ++ Text.ofNat f.start
    else
      lit "characters in position " ++ Text.ofNat f.start ++ lit "-" ++ Text.ofNat (f.stop - 1)) ++
    lit ": " ++ f.reason

/-! ## UTF-8 -/

namespace Utf8

/-- A sequence under way: it began with `lead` at `start`, `taken` bytes of it have been
    read with the bits `bits`, and `missing` more are to come, the next between `lo` and
    `hi`. -/
structure Pending where
  lead : UInt8
  start : Nat
  taken : Nat
  bits : Nat
  missing : Nat
  lo : Nat
  hi : Nat

/-- The sequence that a lead byte of more than one byte begins. -/
def begin? (start : Nat) (b : UInt8) : Option Pending :=
  let n := b.toNat
  if 0xC2 ≤ n && n ≤ 0xDF then some ⟨b, start, 1, n - 0xC0, 1, 0x80, 0xBF⟩
  else if 0xE0 ≤ n && n ≤ 0xEF then
    some ⟨b, start, 1, n - 0xE0, 2, if n = 0xE0 then 0xA0 else 0x80, if n = 0xED then 0x9F else 0xBF⟩
  else if 0xF0 ≤ n && n ≤ 0xF4 then
    some ⟨b, start, 1, n - 0xF0, 3, if n = 0xF0 then 0x90 else 0x80, if n = 0xF4 then 0x8F else 0xBF⟩
  else none

/-- The code point with number `n`; the decoder asks only for numbers that have one. -/
def point (n : Nat) : CodePoint :=
  (CodePoint.ofNat? n).getD (.scalar '\uFFFD')

/-- A fault at the sequence `p`. -/
def Pending.fault (p : Pending) (stop : Nat) (reason : String) : DecodeFault :=
  ⟨lit "utf-8", p.lead, p.start, stop, lit reason⟩

/-- Reads bytes, the first of which is at `pos`, with a sequence that may be under way. -/
def decodeFrom (pos : Nat) : Option Pending → List UInt8 → Except DecodeFault Text
  | none, [] => .ok []
  | some p, [] => .error (p.fault pos "unexpected end of data")
  | none, b :: bs =>
    if b.toNat < 0x80 then (decodeFrom (pos + 1) none bs).map (point b.toNat :: ·)
    else
      match begin? pos b with
      | some p => decodeFrom (pos + 1) (some p) bs
      | none => .error ⟨lit "utf-8", b, pos, pos + 1, lit "invalid start byte"⟩
  | some p, b :: bs =>
    if p.lo ≤ b.toNat ∧ b.toNat ≤ p.hi then
      let bits := p.bits * 64 + (b.toNat - 0x80)
      if p.missing = 1 then (decodeFrom (pos + 1) none bs).map (point bits :: ·)
      else
        decodeFrom (pos + 1)
          (some { p with taken := p.taken + 1, bits := bits, missing := p.missing - 1, lo := 0x80, hi := 0xBF })
          bs
    else .error (p.fault (p.start + p.taken) "invalid continuation byte")

/-- The text of some bytes. -/
def decode (bs : List UInt8) : Except DecodeFault Text :=
  decodeFrom 0 none bs

/-- The bytes of a code point. -/
def bytes (c : CodePoint) : List UInt8 :=
  let n := c.toNat
  let tail (unit : Nat) : UInt8 := .ofNat (0x80 + n / unit % 64)
  if n < 0x80 then [.ofNat n]
  else if n < 0x800 then [.ofNat (0xC0 + n / 0x40), tail 1]
  else if n < 0x10000 then [.ofNat (0xE0 + n / 0x1000), tail 0x40, tail 1]
  else [.ofNat (0xF0 + n / 0x40000), tail 0x1000, tail 0x40, tail 1]

/-- The byte order mark. -/
def mark : List UInt8 := [0xEF, 0xBB, 0xBF]

/-- The text of some bytes after a byte order mark, if there is one.  The beginning of a
    mark, with nothing after it, is no text. -/
def decodeSigned (bs : List UInt8) : Except DecodeFault Text :=
  if bs.length < 3 && bs.isPrefixOf mark then .ok []
  else if mark.isPrefixOf bs then decode (bs.drop 3)
  else decode bs

end Utf8

/-! ## UTF-16 -/

namespace Utf16

/-- The fault of the unit at `start`. -/
def fault (b : UInt8) (start stop : Nat) (reason : String) : DecodeFault :=
  ⟨lit "utf-16-le", b, start, stop, lit reason⟩

/-- Reads little-endian units, the first of which is at `pos`. -/
def decodeFrom (pos : Nat) : List UInt8 → Except DecodeFault Text
  | [] => .ok []
  | [b] => .error (fault b pos (pos + 1) "truncated data")
  | b :: c :: bs =>
    let u := b.toNat + 256 * c.toNat
    if CodePoint.isHighSurrogate u then
      match bs with
      | d :: e :: rest =>
        let v := d.toNat + 256 * e.toNat
        if CodePoint.isLowSurrogate v then
          (decodeFrom (pos + 4) rest).map (Utf8.point (CodePoint.joinSurrogates u v) :: ·)
        else .error (fault b pos (pos + 2) "illegal UTF-16 surrogate")
      | rest => .error (fault b pos (pos + 2 + rest.length) "unexpected end of data")
    else if CodePoint.isLowSurrogate u then .error (fault b pos (pos + 2) "illegal encoding")
    else (decodeFrom (pos + 2) bs).map (Utf8.point u :: ·)

/-- The two bytes of a unit. -/
def unit (n : Nat) : List UInt8 :=
  [.ofNat n, .ofNat (n / 256)]

/-- The bytes of a code point. -/
def bytes (c : CodePoint) : List UInt8 :=
  let n := c.toNat
  if n < 0x10000 then unit n
  else unit (0xD800 + (n - 0x10000) / 0x400) ++ unit (0xDC00 + (n - 0x10000) % 0x400)

end Utf16

/-! ## Encodings -/

/-- Reads bytes that are code points below `0x80`. -/
def decodeAscii (pos : Nat) : List UInt8 → Except DecodeFault Text
  | [] => .ok []
  | b :: bs =>
    if b.toNat < 0x80 then (decodeAscii (pos + 1) bs).map (Utf8.point b.toNat :: ·)
    else .error ⟨lit "ascii", b, pos, pos + 1, lit "ordinal not in range(128)"⟩

namespace Encoding

/-- The text of some bytes. -/
def decode (bs : List UInt8) : Encoding → Except DecodeFault Text
  | utf8 => Utf8.decode bs
  | utf8Signed => Utf8.decodeSigned bs
  | latin1 => .ok (bs.map fun b => Utf8.point b.toNat)
  | ascii => decodeAscii 0 bs
  | utf16le => Utf16.decodeFrom 0 bs

/-- The name of an encoding in the wording of faults. -/
def codec : Encoding → Text
  | utf8 | utf8Signed => lit "utf-8"
  | latin1 => lit "latin-1"
  | ascii => lit "ascii"
  | utf16le => lit "utf-16-le"

/-- The code points that can be written. -/
def fits (c : CodePoint) : Encoding → Bool
  | latin1 => c.toNat < 0x100
  | ascii => c.toNat < 0x80
  | utf8 | utf8Signed | utf16le => match c with
    | .scalar _ => true
    | .surrogate _ => false

/-- Why the others cannot. -/
def refusal : Encoding → Text
  | latin1 => lit "ordinal not in range(256)"
  | ascii => lit "ordinal not in range(128)"
  | utf8 | utf8Signed | utf16le => lit "surrogates not allowed"

/-- The bytes of a code point that can be written. -/
def pointBytes (c : CodePoint) : Encoding → List UInt8
  | utf8 | utf8Signed => Utf8.bytes c
  | latin1 | ascii => [.ofNat c.toNat]
  | utf16le => Utf16.bytes c

/-- How many code points from the front of `t`, which do not fit, a fault covers. -/
def faultLength (t : Text) (e : Encoding) : Nat :=
  match e with
  | utf16le => 1
  | _ => (t.takeWhile fun c => !e.fits c).length

/-- The bytes of a text. -/
def encode (t : Text) (e : Encoding) : Except EncodeFault (List UInt8) :=
  let good := t.takeWhile fun c => e.fits c
  match t.drop good.length with
  | [] =>
    .ok ((match e with
      | utf8Signed => Utf8.mark
      | _ => []) ++ t.flatMap fun c => e.pointBytes c)
  | c :: rest =>
    .error ⟨e.codec, c, good.length, good.length + e.faultLength (c :: rest), e.refusal⟩

/-- A name in lower case, with one underscore for each run of punctuation inside it.  A dot
    counts as a letter. -/
def normalName (name : Text) : Text :=
  let parts := name.asciiLower.map fun c =>
    if c.isLetter || c.isDigit || c == .scalar '.' then c else .scalar '_'
  Text.join (lit "_") ((Text.splitOn (.scalar '_') parts).filter (!·.isEmpty))

/-- The proper name of each encoding, in the form of `normalName`. -/
def properName : Encoding → String
  | utf8 => "utf_8"
  | utf8Signed => "utf_8_sig"
  | latin1 => "latin_1"
  | ascii => "ascii"
  | utf16le => "utf_16_le"

/-- The other names of each encoding, in the form of `normalName`. -/
def otherNames : Encoding → List String
  | utf8 => ["u8", "utf", "utf8", "utf8_ucs2", "utf8_ucs4", "cp65001"]
  | utf8Signed => []
  | latin1 =>
    ["8859", "cp819", "csisolatin1", "ibm819", "iso8859", "iso8859_1", "iso_8859_1",
      "iso_8859_1_1987", "iso_ir_100", "l1", "latin", "latin1"]
  | ascii =>
    ["646", "ansi_x3.4_1968", "ansi_x3_4_1968", "ansi_x3.4_1986", "cp367", "csascii", "ibm367",
      "iso646_us", "iso_646.irv_1991", "iso_ir_6", "us", "us_ascii"]
  | utf16le => ["unicodelittleunmarked", "utf_16le"]

/-- A name stands for an encoding: its proper name, or one of its others, for which dots may
    also be read as punctuation. -/
def isNamed (name : Text) (e : Encoding) : Bool :=
  let others := e.otherNames.map lit
  let undotted := name.map fun c => if c == .scalar '.' then .scalar '_' else c
  name == lit e.properName || others.contains name || others.contains undotted

/-- The name for the encoding of the surroundings, which is UTF-8. -/
def ambientName : Text := lit "locale"

/-- The encoding of a name. -/
def ofName? (name : Text) : Option Encoding :=
  if name = ambientName then some utf8
  else [utf8, utf8Signed, latin1, ascii, utf16le].find? (isNamed (normalName name))

/-- The bytes that are read as text: those after the mark, where there may be one. -/
def body (bs : List UInt8) : Encoding → List UInt8
  | utf8Signed => if Utf8.mark.isPrefixOf bs then bs.drop 3 else bs
  | _ => bs

end Encoding

end TraitCatalog
