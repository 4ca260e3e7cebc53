/-
  Text as a sequence of code points.

  Descriptors and crate names arrive through escapes that may spell half of a
  surrogate pair, so a text is a list of *code points*: scalar values and
  surrogates that stand alone.  Positions, lengths and comparisons all count code
  points.

  * `CodePoint.toNat` numbers the code points; `Text.le` is the order by these
    numbers, and `Text.sort` sorts a list of texts by it;
  * `Text.splitOn` cuts at one code point and `Text.splitPath` at `::`; both give at
    least one piece, and `Text.join` puts pieces together again;
  * `Text.dropLead?` removes a text that stands at the front.
-/

namespace TraitCatalog

/-! ## Code points -/

/-- A Unicode code point: a scalar value, or the surrogate U+D800 + `n`. -/
inductive CodePoint where
  | scalar (c : Char)
  | surrogate (n : Fin 2048)
  deriving DecidableEq, Repr, Inhabited

namespace CodePoint

/-- The number of a code point. -/
def toNat : CodePoint → Nat
  | scalar c => c.toNat
  | surrogate n => 0xD800 + n.val

/-- The code point with number `n`, if there is one. -/
def ofNat? (n : Nat) : Option CodePoint :=
  if h : n.isValidChar then some (scalar (Char.ofNatAux n h))
  else if h : 0xD800 ≤ n ∧ n < 0xE000 then some (surrogate ⟨n - 0xD800, by omega⟩)
  else none

/-- A scalar value on which `p` holds. -/
def holds (p : Char → Bool) : CodePoint → Bool
  | scalar c => p c
  | surrogate _ => false

/-- One of the characters of `s`. -/
def isOneOf (s : String) (c : CodePoint) : Bool :=
  c.holds fun ch => s.toList.contains ch

/-- An ASCII digit. -/
def isDigit (c : CodePoint) : Bool :=
  c.holds Char.isDigit

/-- An ASCII letter. -/
def isLetter (c : CodePoint) : Bool :=
  c.holds Char.isAlpha

/-- An ASCII letter, a digit or an underscore. -/
def isWord (c : CodePoint) : Bool :=
  c.isLetter || c.isDigit || c == scalar '_'

/-- The value of a digit in base sixteen, either case. -/
def hexDigit? (c : CodePoint) : Option Nat :=
  let n := c.toNat
  if 0x30 ≤ n && n ≤ 0x39 then some (n - 0x30)
  else if 0x41 ≤ n && n ≤ 0x46 then some (n - 0x41 + 10)
  else if 0x61 ≤ n && n ≤ 0x66 then some (n - 0x61 + 10)
  else none

/-- The first half of a surrogate pair. -/
def isHighSurrogate (n : Nat) : Bool :=
  0xD800 ≤ n && n < 0xDC00

/-- The second half of a surrogate pair. -/
def isLowSurrogate (n : Nat) : Bool :=
  0xDC00 ≤ n && n < 0xE000

/-- The scalar value that a surrogate pair stands for. -/
def joinSurrogates (hi lo : Nat) : Nat :=
  0x10000 + (hi - 0xD800) * 0x400 + (lo - 0xDC00)

/-- An ASCII letter in lower case; anything else as it is. -/
def asciiLower : CodePoint → CodePoint
  | scalar c => scalar c.toLower
  | surrogate n => surrogate n

end CodePoint

/-! ## Texts -/

/-- A text is a list of code points. -/
abbrev Text := List CodePoint

namespace Text

/-- The text of a string literal. -/
def lit (s : String) : Text :=
  s.toList.map .scalar

/-- A number in decimal. -/
def ofNat (n : Nat) : Text :=
  (Nat.toDigits 10 n).map .scalar

/-- A number in decimal, with at least `width` digits. -/
def ofNatWide (width n : Nat) : Text :=
  let digits := ofNat n
  List.replicate (width - digits.length) (.scalar '0') ++ digits

/-- What follows `lead` in `t`, if `t` starts with it. -/
def dropLead? : (lead t : Text) → Option Text
  | [], t => some t
  | _ :: _, [] => none
  | a :: lead, b :: t => if a = b then dropLead? lead t else none

/-- `t` starts with `lead`. -/
def startsWith (t lead : Text) : Bool :=
  (dropLead? lead t).isSome

/-- What precedes `tail` in `t`, if `t` ends with it. -/
def dropTail? (tail t : Text) : Option Text :=
  (dropLead? tail.reverse t.reverse).map List.reverse

/-- Puts `c` in front of the first piece. -/
def consHead (c : CodePoint) : List Text → List Text
  | [] => [[c]]
  | p :: ps => (c :: p) :: ps

/-- The pieces of a text between occurrences of `sep`: one more than there are
    occurrences. -/
def splitOn (sep : CodePoint) : Text → List Text
  | [] => [[]]
  | c :: t => if c = sep then [] :: splitOn sep t else consHead c (splitOn sep t)

/-- The pieces of a text between occurrences of `::`, read from the left. -/
def splitPath : Text → List Text
  | [] => [[]]
  | [c] => [[c]]
  | c :: d :: t =>
    if c = .scalar ':' ∧ d = .scalar ':' then [] :: splitPath t
    else consHead c (splitPath (d :: t))

/-- Pieces with `sep` between neighbours. -/
def join (sep : Text) (pieces : List Text) : Text :=
  List.intercalate sep pieces

/-- What follows the last `::` of a text; all of it if there is none. -/
def afterLastColons (t : Text) : Text :=
  ((splitPath t.reverse).headD []).reverse

/-- ASCII letters in lower case. -/
def asciiLower (t : Text) : Text :=
  t.map CodePoint.asciiLower

/-- The numeral of `n` in base sixteen, lower case, with at least `width` digits. -/
def hex (width n : Nat) : Text :=
  let digits := Nat.toDigits 16 n
  (List.replicate (width - digits.length) '0' ++ digits).map .scalar

/-! ## Order -/

/-- The order of texts: the first code points that differ decide, and a text
    precedes its extensions. -/
def le : Text → Text → Bool
  | [], _ => true
  | _ :: _, [] => false
  | a :: s, b :: t => a.toNat < b.toNat || (a = b && le s t)

/-- The texts of a list in order. -/
def sort (ts : List Text) : List Text :=
  ts.mergeSort le

end Text

end TraitCatalog
