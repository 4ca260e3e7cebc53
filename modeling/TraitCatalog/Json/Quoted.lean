/-
  JSON string literals.

  * `quote` writes a literal: the quote, the backslash and the controls below
    U+0020 are escaped, everything else stands for itself; `quoteAscii` also escapes
    whatever is not ASCII;
  * `scan` reads the inside of a literal up to its closing quote as *pieces*, each
    one a code point or the number of a `\u` escape, and `joinPieces` makes a text
    of them: two neighbouring escapes that spell a surrogate pair are one code point,
    any other half stands alone;
  * `unquote?` reads a whole literal.
-/
import TraitCatalog.Text.Basic

namespace TraitCatalog.Json

/-! ## Writing -/

/-- The letter that follows the backslash in the short escape of a control. -/
def shortEscape? (n : Nat) : Option Char :=
  match n with
  | 0x08 => some 'b'
  | 0x09 => some 't'
  | 0x0A => some 'n'
  | 0x0C => some 'f'
  | 0x0D => some 'r'
  | _ => none

/-- A `\u` escape. -/
def escapeNumber (n : Nat) : Text :=
  Text.lit "\\u" ++ Text.hex 4 n

/-- A code point as it stands inside a literal. -/
def escape (c : CodePoint) : Text :=
  if c = .scalar '"' ∨ c = .scalar '\\' then [.scalar '\\', c]
  else if c.toNat < 0x20 then
    match shortEscape? c.toNat with
    | some e => [.scalar '\\', .scalar e]
    | none => escapeNumber c.toNat
  else [c]

/-- A text as a literal. -/
def quote (t : Text) : Text :=
  .scalar '"' :: t.flatMap escape ++ [.scalar '"']

/-- A code point inside a literal that holds ASCII only; beyond U+FFFF it is written
    as a pair of escapes. -/
def escapeAscii (c : CodePoint) : Text :=
  let n := c.toNat
  if n < 0x7F then escape c
  else if n < 0x10000 then escapeNumber n
  else escapeNumber (0xD800 + (n - 0x10000) / 0x400) ++ escapeNumber (0xDC00 + (n - 0x10000) % 0x400)

/-- A text as a literal that holds ASCII only. -/
def quoteAscii (t : Text) : Text :=
  .scalar '"' :: t.flatMap escapeAscii ++ [.scalar '"']

/-! ## Reading -/

/-- A piece of a literal: a code point, or the number of a `\u` escape. -/
inductive Piece where
  | plain (c : CodePoint)
  | escaped (n : Nat)
  deriving DecidableEq, Repr

/-- What the letter after a backslash stands for. -/
def escapeLetter? : CodePoint → Option CodePoint
  | .scalar '"' => some (.scalar '"')
  | .scalar '\\' => some (.scalar '\\')
  | .scalar '/' => some (.scalar '/')
  | .scalar 'b' => some (.scalar '\x08')
  | .scalar 'f' => some (.scalar '\x0c')
  | .scalar 'n' => some (.scalar '\n')
  | .scalar 'r' => some (.scalar '\r')
  | .scalar 't' => some (.scalar '\t')
  | _ => none

/-- The number of four digits in base sixteen. -/
def hexNumber? (a b c d : CodePoint) : Option Nat := do
  let a ← a.hexDigit?
  let b ← b.hexDigit?
  let c ← c.hexDigit?
  let d ← d.hexDigit?
  return ((a * 16 + b) * 16 + c) * 16 + d

/-- Reads pieces up to the closing quote, and returns what follows it.  There is no
    result when the literal does not end, holds a control or a bad escape. -/
def scan : Text → Option (List Piece × Text)
  | [] => none
  | c :: t =>
    if c = .scalar '"' then some ([], t)
    else if c = .scalar '\\' then
      match t with
      | .scalar 'u' :: p :: q :: r :: s :: t => do
        let n ← hexNumber? p q r s
        let (ps, rest) ← scan t
        return (.escaped n :: ps, rest)
      | e :: t => do
        let e ← escapeLetter? e
        let (ps, rest) ← scan t
        return (.plain e :: ps, rest)
      | [] => none
    else if c.toNat < 0x20 then none
    else do
      let (ps, rest) ← scan t
      return (.plain c :: ps, rest)

/-- The code point of a single escape. -/
def escapedPoint (n : Nat) : CodePoint :=
  (CodePoint.ofNat? n).getD (.scalar '\uFFFD')

/-- The text of some pieces. -/
def joinPieces : List Piece → Text
  | [] => []
  | .plain c :: ps => c :: joinPieces ps
  | .escaped hi :: .escaped lo :: ps =>
    if CodePoint.isHighSurrogate hi ∧ CodePoint.isLowSurrogate lo then
      escapedPoint (CodePoint.joinSurrogates hi lo) :: joinPieces ps
    else escapedPoint hi :: joinPieces (.escaped lo :: ps)
  | .escaped n :: ps => escapedPoint n :: joinPieces ps

/-- Reads the inside of a literal up to its closing quote. -/
def scanText (t : Text) : Option (Text × Text) :=
  (scan t).map fun (ps, rest) => (joinPieces ps, rest)

/-- Reads a text that is one literal from its opening to its closing quote. -/
def unquote? : Text → Option Text
  | .scalar '"' :: t =>
    match scanText t with
    | some (s, []) => some s
    | _ => none
  | _ => none

end TraitCatalog.Json
