/-
  Numbers in a YAML text.

  * `readInteger`: binary, octal, decimal, base sixteen, and digits in base sixty between
    colons; underscores may stand anywhere;
  * `readReal`: decimal fractions, infinities, what is not a number, and base sixty again.

  Digits may come from any script.
-/
import TraitCatalog.Text.Digit
import TraitCatalog.Text.LowerCase
import TraitCatalog.Yaml.Moment
import TraitCatalog.Yaml.RealNumber

namespace TraitCatalog.Yaml

open Text (lit)

/-- A text without its underscores. -/
def dropUnderscores (t : Text) : Text :=
  t.filter (· != .scalar '_')

/-- A sign at the front, and the rest; a text without a first character is no number. -/
def takeSign (t : Text) : Except Fault (Bool × Text) :=
  match t with
  | [] => .error .emptyNumber
  | c :: rest =>
    if c = .scalar '-' then .ok (true, rest)
    else if c = .scalar '+' then .ok (false, rest)
    else .ok (false, t)

/-! ## Integers -/

/-- The value of a digit in a base of at most 36. -/
def digitValue? (base : Nat) (c : CodePoint) : Option Nat :=
  let n := c.asciiLower.toNat
  let v := if c.isDigit then n - 0x30 else if c.isLetter then n - 0x61 + 10 else base
  if v < base then some v else none

/-- The letter that may announce a base after a zero. -/
def baseLetter? : Nat → Option Char
  | 2 => some 'b'
  | 8 => some 'o'
  | 16 => some 'x'
  | _ => none

/-- What follows `0b`, `0o` or `0x`, if that stands at the front and fits the base. -/
def dropBaseMark (base : Nat) (t : Text) : Text :=
  match t, baseLetter? base with
  | .scalar '0' :: c :: rest, some letter => if c.asciiLower = .scalar letter then rest else t
  | _, _ => t

/-- An integer in a base: spaces around it, a sign and the mark of the base are allowed.
    Decimal digits are limited in number. -/
def integerIn (base : Nat) (t : Text) : Except Fault Int :=
  let body := t.plainDigits.trimSpaces
  let (negative, body) := match body with
    | .scalar '-' :: rest => (true, rest)
    | .scalar '+' :: rest => (false, rest)
    | _ => (false, body)
  let body := dropBaseMark base body
  let digits := body.takeWhile fun c => (digitValue? base c).isSome
  if base = 10 && digits.length > Json.digitLimit then .error (.longInteger digits.length)
  else if digits.isEmpty || digits.length < body.length then .error (.badInteger base t)
  else
    let n := digits.foldl (fun n c => n * base + (digitValue? base c).getD 0) 0
    .ok (if negative then -n else n)

/-- The value of digits in base sixty, the highest first. -/
def sexagesimal (ds : List Int) : Int :=
  ds.foldl (fun n d => n * 60 + d) 0

/-- The value of an integer scalar. -/
def readInteger (t : Text) : Except Fault Int := do
  let (negative, t) ← takeSign (dropUnderscores t)
  let n ←
    if t.isEmpty then throw .emptyNumber
    else if t = lit "0" then pure 0
    else if let some rest := Text.dropLead? (lit "0b") t then integerIn 2 rest
    else if let some rest := Text.dropLead? (lit "0x") t then integerIn 16 rest
    else if t.head? = some (.scalar '0') then integerIn 8 t
    else if t.contains (.scalar ':') then
      pure (sexagesimal (← (Text.splitOn (.scalar ':') t).mapM (integerIn 10)))
    else integerIn 10 t
  return if negative then -n else n

/-! ## Reals -/

namespace RealNumber

/-- A decimal fraction with or without a power of ten. -/
def parseFraction? (t : Text) : Option RealNumber :=
  let whole := t.takeWhile CodePoint.isDigit
  let t := t.drop whole.length
  let (part, t) := match afterChar? '.' t with
    | some t => (t.takeWhile CodePoint.isDigit, t.dropWhile CodePoint.isDigit)
    | none => ([], t)
  if whole.isEmpty && part.isEmpty then none
  else
    let n := decimalValue (whole ++ part)
    let value (power : Int) : RealNumber := ofDecimal n (power - part.length)
    if t.isEmpty then some (value 0)
    else
      match t with
      | .scalar 'e' :: t =>
        let (negative, t) := match t with
          | .scalar '-' :: t => (true, t)
          | .scalar '+' :: t => (false, t)
          | _ => (false, t)
        if t.isEmpty || !t.all CodePoint.isDigit then none
        else some (value (if negative then -decimalValue t else decimalValue t))
      | _ => none

/-- A real in lower case: spaces around it and a sign are allowed. -/
def parse (t : Text) : Except Fault RealNumber :=
  let body := t.plainDigits.trimSpaces
  let (negative, body) := match body with
    | .scalar '-' :: rest => (true, rest)
    | .scalar '+' :: rest => (false, rest)
    | _ => (false, body)
  let r? :=
    if body = lit "inf" || body = lit "infinity" then some (infinite false)
    else if body = lit "nan" then some notNumber
    else parseFraction? body
  match r? with
  | some r => .ok (if negative then r.neg else r)
  | none => .error (.badFloat t)

end RealNumber

/-- The value of a real scalar. -/
def readReal (t : Text) : Except Fault RealNumber := do
  let (negative, t) ← takeSign (dropUnderscores t).lower
  let r ←
    if t = lit ".inf" then pure (RealNumber.infinite false)
    else if t = lit ".nan" then pure RealNumber.notNumber
    else if t.contains (.scalar ':') then do
      let parts ← (Text.splitOn (.scalar ':') t).mapM RealNumber.parse
      match RealNumber.sexagesimal? 1 (.finite 0) parts.reverse with
      | some r => pure r
      | none => throw .hugePower
    else RealNumber.parse t
  return if negative then r.neg else r

end TraitCatalog.Yaml
