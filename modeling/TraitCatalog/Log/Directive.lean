/-
  Directives of log formats.

  A directive is a percent sign, the name of a field in parentheses, flags, a width, a
  precision and a letter that says how the value is written: as text, in quotes, or as a
  number in one of several notations.

  * `Directive.parse?` reads a directive;
  * `Directive.write?` writes a value; there is no writing of a value under a letter that is
    not for it.
-/
import TraitCatalog.Rounding
import TraitCatalog.Text.Display

namespace TraitCatalog

open Text (lit)

/-- The value of a field. -/
inductive FieldValue where
  | text (t : Text)
  | number (n : Nat)
  /-- A value that is always shown in one way. -/
  | shown (t : Text)
  /-- A value that differs from run to run; nothing of it is written. -/
  | varying
  deriving DecidableEq, Repr

/-- A value as it is shown in a record. -/
def FieldValue.shownText : FieldValue → Text
  | text t => t.shown
  | number n => Text.ofNat n
  | shown t => t
  | varying => []

/-- A directive. -/
structure Directive where
  field? : Option Text
  flags : Text
  width : Nat
  precision? : Option Nat
  /-- How many stars stand for a width or a precision that is a value of its own. -/
  stars : Nat
  letter : CodePoint
  deriving DecidableEq, Repr

namespace Directive

/-! ### Reading -/

/-- The greatest width. -/
def widthLimit : Nat := 9223372036854775807

/-- The greatest precision. -/
def precisionLimit : Nat := 2147483647

/-- A number at the front, up to `limit`, or a star. -/
def takeCount (limit : Nat) (t : Text) : Option (Nat × Nat × Text) :=
  match t with
  | .scalar '*' :: t => some (0, 1, t)
  | t =>
    let ds := t.takeWhile CodePoint.isDigit
    let n := ds.foldl (fun n d => n * 10 + (d.toNat - 0x30)) 0
    if n ≤ limit then some (n, 0, t.drop ds.length) else none

/-- A field name up to the parenthesis that closes it, and what follows; `depth`
    parentheses are open inside the name. -/
def takeField (depth : Nat) : Text → Option (Text × Text)
  | [] => none
  | c :: t =>
    if c = .scalar ')' then
      match depth with
      | 0 => some ([], t)
      | depth + 1 => (takeField depth t).map fun (f, r) => (c :: f, r)
    else
      (takeField (if c = .scalar '(' then depth + 1 else depth) t).map fun (f, r) => (c :: f, r)

/-- Reads a directive after its percent sign. -/
def parse? (t : Text) : Option (Directive × Text) := do
  let (field?, t) ← match t with
    | .scalar '(' :: t => (takeField 0 t).map fun (f, r) => (some f, r)
    | t => some (none, t)
  let flags := t.takeWhile (CodePoint.isOneOf "-+ #0")
  let t := t.drop flags.length
  let (width, widthStars, t) ← takeCount widthLimit t
  let (precision?, precisionStars, t) ← match t with
    | .scalar '.' :: t =>
      (takeCount precisionLimit t).map fun (n, stars, t) => (some n, stars, t)
    | t => some (none, 0, t)
  let t := match t with
    | c :: r => if c.isOneOf "hlL" then r else c :: r
    | [] => []
  match t with
  | letter :: t => some (⟨field?, flags, width, precision?, widthStars + precisionStars, letter⟩, t)
  | [] => none

/-! ### Writing -/

/-- A flag is given. -/
def has (d : Directive) (flag : Char) : Bool :=
  d.flags.contains (.scalar flag)

/-- Fills up to the width: on the right with the flag `-`, else on the left. -/
def pad (d : Directive) (t : Text) : Text :=
  let fill := List.replicate (d.width - t.length) (CodePoint.scalar ' ')
  if d.has '-' then t ++ fill else fill ++ t

/-- Writes digits with their sign and lead, zeros filling up to the width with the flag
    `0`. -/
def padNumber (d : Directive) (lead digits : Text) : Text :=
  let sign := if d.has '+' then lit "+" else if d.has ' ' then lit " " else []
  let front := sign ++ lead
  if d.has '0' && !d.has '-' then
    front ++ List.replicate (d.width - front.length - digits.length) (.scalar '0') ++ digits
  else d.pad (front ++ digits)

/-- Digits with zeros in front up to the precision. -/
def minDigits (d : Directive) (digits : Text) : Text :=
  List.replicate (d.precision?.getD 0 - digits.length) (CodePoint.scalar '0') ++ digits

/-- A text cut to the precision. -/
def cut (d : Directive) (t : Text) : Text :=
  match d.precision? with
  | some n => t.take n
  | none => t

/-- A text that is shown, in ASCII only. -/
def inAscii (t : Text) : Text :=
  t.flatMap fun c => if c.toNat < 0x80 then [c] else c.escaped

/-- A number in a base given by its letter. -/
def inBase (base n : Nat) : Text :=
  (Nat.toDigits base n).map .scalar

/-- ASCII letters in upper case. -/
def asciiUpper (t : Text) : Text :=
  t.map fun c => match c with
    | .scalar c => CodePoint.scalar c.toUpper
    | c => c

/-- A whole part and a fraction with a point between them.  Where the fraction is empty there
    is a point only with the flag `#`. -/
def pointed (d : Directive) (whole fraction : Text) : Text :=
  if fraction.isEmpty && !d.has '#' then whole else whole ++ lit "." ++ fraction

/-- A fraction without the zeros at its end, which are kept with the flag `#`. -/
def trimFraction (d : Directive) (fraction : Text) : Text :=
  if d.has '#' then fraction
  else (fraction.reverse.dropWhile (· == .scalar '0')).reverse

/-- A power of ten. -/
def exponent (n : Nat) : Text :=
  lit "e+" ++ Text.ofNatWide 2 n

/-- A number with a fraction. -/
def fixed (d : Directive) (n : Nat) : Text :=
  d.pointed (Text.ofNat n) (List.replicate (d.precision?.getD 6) (.scalar '0'))

/-- A number with one digit before the point, and a power of ten. -/
def scientific (d : Directive) (n : Nat) : Text :=
  let digits := d.precision?.getD 6 + 1
  let (m, power) := roundDigits digits n
  let ds := Text.ofNatWide digits m
  d.pointed (ds.take 1) (ds.drop 1) ++ exponent power

/-- A number with so many digits as count: with a power of ten only if it is too long. -/
def general (d : Directive) (n : Nat) : Text :=
  let digits := max 1 (d.precision?.getD 6)
  let (m, power) := roundDigits digits n
  let ds := Text.ofNatWide digits m
  if power < digits then d.pointed (ds.take (power + 1)) (d.trimFraction (ds.drop (power + 1)))
  else d.pointed (ds.take 1) (d.trimFraction (ds.drop 1)) ++ exponent power

/-- Writes a number as the letter of the directive says. -/
def writeNumber? (d : Directive) (n : Nat) : Option Text :=
  let cased := fun t : Text => if d.letter.isOneOf "XEFG" then asciiUpper t else t
  match d.letter with
  | .scalar 'd' | .scalar 'i' | .scalar 'u' => some (d.padNumber [] (d.minDigits (Text.ofNat n)))
  | .scalar 'x' | .scalar 'X' =>
    some (d.padNumber (cased (if d.has '#' then lit "0x" else [])) (cased (d.minDigits (inBase 16 n))))
  | .scalar 'o' =>
    some (d.padNumber (if d.has '#' then lit "0o" else []) (d.minDigits (inBase 8 n)))
  | .scalar 'f' | .scalar 'F' => some (d.padNumber [] (d.fixed n))
  | .scalar 'e' | .scalar 'E' => some (d.padNumber [] (cased (d.scientific n)))
  | .scalar 'g' | .scalar 'G' => some (d.padNumber [] (cased (d.general n)))
  | .scalar 'c' => (CodePoint.ofNat? n).map fun c => d.pad [c]
  | _ => none

/-- Writes a value as the letter of the directive says. -/
def write? (d : Directive) (v : FieldValue) : Option Text :=
  match d.letter, v with
  | .scalar 's', .text t => some (d.pad (d.cut t))
  | .scalar 'r', .text t => some (d.pad (d.cut t.shown))
  | .scalar 'a', .text t => some (d.pad (d.cut (inAscii t.shown)))
  | .scalar 'c', .text [c] => some (d.pad [c])
  | .scalar 's', .number n | .scalar 'r', .number n | .scalar 'a', .number n =>
    some (d.pad (d.cut (Text.ofNat n)))
  | _, .number n => d.writeNumber? n
  | .scalar 's', .shown t | .scalar 'r', .shown t => some (d.pad (d.cut t))
  | .scalar 'a', .shown t => some (d.pad (d.cut (inAscii t)))
  | .scalar 's', .varying | .scalar 'r', .varying | .scalar 'a', .varying =>
    if d.precision? = some 0 then some (d.pad []) else none
  | _, _ => none

end Directive

end TraitCatalog
