/-
  Why a YAML text has no value.

  Text that is not YAML, or uses it in a way that has no value, is `invalid`; it is not told
  where or why.  The other faults come from single values that cannot be converted, and from
  nesting; each has wording of its own.
-/
import TraitCatalog.Failure

namespace TraitCatalog.Yaml

open Text (lit)

/-- Why a date or time does not exist. -/
inductive MomentFault where
  | year (n : Nat)
  | month
  | day
  | hour
  | minute
  | second
  /-- The distance from UTC is a day or more: so many days, then seconds. -/
  | offset (days : Int) (seconds : Nat)
  deriving DecidableEq, Repr

/-- Why a YAML text has no value. -/
inductive Fault where
  | invalid
  /-- Collections nested too deeply. -/
  | tooDeep
  /-- An escape beyond the last code point. -/
  | pointRange
  /-- An escape beyond the range of an integer. -/
  | pointOverflow
  /-- A value tagged as a truth value that is none. -/
  | unknownTruth (t : Text)
  /-- A value tagged as a number without a first character. -/
  | emptyNumber
  | badInteger (base : Nat) (t : Text)
  | longInteger (digits : Nat)
  | badFloat (t : Text)
  /-- A real in base sixty with so many digits that the power of the first is too large. -/
  | hugePower
  /-- A value tagged as a timestamp that is none. -/
  | notMoment
  /-- A collection tagged as a timestamp. -/
  | momentOfCollection
  | moment (f : MomentFault)
  deriving DecidableEq, Repr

/-- A distance from UTC in words. -/
def offsetText (days : Int) (seconds : Nat) : Text :=
  let d := (if days < 0 then lit "-" else []) ++ Text.ofNat days.natAbs
  lit "datetime.timedelta(days=" ++ d ++
    (if seconds = 0 then [] else lit ", seconds=" ++ Text.ofNat seconds) ++ lit ")"

/-- The wording of a date or time that does not exist. -/
def MomentFault.message : MomentFault → Text
  | year n => lit "year " ++ Text.ofNat n ++ lit " is out of range"
  | month => lit "month must be in 1..12"
  | day => lit "day is out of range for month"
  | hour => lit "hour must be in 0..23"
  | minute => lit "minute must be in 0..59"
  | second => lit "second must be in 0..59"
  | offset days seconds =>
    lit "offset must be a timedelta strictly between -timedelta(hours=24) and " ++
      lit "timedelta(hours=24), not " ++ offsetText days seconds ++ lit "."

/-- How much of a bad integer is shown. -/
def shownLimit : Nat := 200

/-- The wording of a fault, if it has one. -/
def Fault.message? : Fault → Option Text
  | invalid => some (lit "Invalid YAML syntax in rules file")
  | tooDeep => none
  | pointRange => some (lit "chr() arg not in range(0x110000)")
  | pointOverflow => some (lit "Python int too large to convert to C int")
  | unknownTruth t => some t.shown
  | emptyNumber => some (lit "string index out of range")
  | badInteger base t =>
    some (lit "invalid literal for int() with base " ++ Text.ofNat base ++ lit ": " ++
      t.shown.take shownLimit)
  | longInteger n => some (longIntegerMessage n)
  | badFloat t => some (lit "could not convert string to float: " ++ t.shown)
  | hugePower => some (lit "int too large to convert to float")
  | notMoment => some (lit "'NoneType' object has no attribute 'groupdict'")
  | momentOfCollection => some (lit "expected string or bytes-like object, got 'list'")
  | moment f => some f.message

end TraitCatalog.Yaml
