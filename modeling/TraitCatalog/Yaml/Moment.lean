/-
  Dates and times in a YAML text.

  A date is a year of four digits, a month and a day; a time of day may follow, with a
  fraction of a second and a distance from UTC.  `MomentFields.parse?` takes the form apart
  and `MomentFields.check` refuses what the calendar does not have.
-/
import TraitCatalog.Yaml.Fault

namespace TraitCatalog.Yaml

open Text (lit)

/-- The distance of a clock from UTC. -/
structure ClockOffset where
  isWest : Bool
  hour : Nat
  minute : Nat
  deriving DecidableEq, Repr

/-- A time of day. -/
structure ClockTime where
  hour : Nat
  minute : Nat
  second : Nat
  offset? : Option ClockOffset
  deriving DecidableEq, Repr

/-- What is written in a date, with or without a time of day. -/
structure MomentFields where
  year : Nat
  month : Nat
  day : Nat
  time? : Option ClockTime
  deriving DecidableEq, Repr

/-- The value of decimal digits. -/
def decimalValue (ds : Text) : Nat :=
  ds.foldl (fun n d => n * 10 + (d.toNat - 0x30)) 0

/-- A number of `least` to `most` digits at the front, as many as there are. -/
def takeNumber? (least most : Nat) (t : Text) : Option (Nat × Text) :=
  let ds := (t.take most).takeWhile CodePoint.isDigit
  if least ≤ ds.length then some (decimalValue ds, t.drop ds.length) else none

/-- What follows the character `ch` at the front. -/
def afterChar? (ch : Char) : Text → Option Text
  | c :: t => if c = .scalar ch then some t else none
  | [] => none

/-- A space or a tab. -/
def isInlineBlank (c : CodePoint) : Bool :=
  c.isOneOf " \t"

/-- The end of a text, or a line feed at its end. -/
def isTail (t : Text) : Bool :=
  t.isEmpty || t = lit "\n"

/-- The distance from UTC at the end of a text, if one is given: `Z`, or a sign, an hour and
    perhaps minutes. -/
def ClockOffset.parse? (t : Text) : Option (Option ClockOffset) :=
  if isTail t then some none
  else
    match t.dropWhile isInlineBlank with
    | [] => none
    | c :: t =>
      if c = .scalar 'Z' then if isTail t then some none else none
      else if c.isOneOf "+-" then do
        let (hour, t) ← takeNumber? 1 2 t
        let (minute, t) ← match afterChar? ':' t with
          | some t => takeNumber? 2 2 t
          | none => some (0, t)
        if isTail t then some (some ⟨c = .scalar '-', hour, minute⟩) else none
      else none

/-- The time of day after a date. -/
def ClockTime.parse? (t : Text) : Option ClockTime := do
  let (hour, t) ← takeNumber? 1 2 t
  let t ← afterChar? ':' t
  let (minute, t) ← takeNumber? 2 2 t
  let t ← afterChar? ':' t
  let (second, t) ← takeNumber? 2 2 t
  let t := match afterChar? '.' t with
    | some t => t.dropWhile CodePoint.isDigit
    | none => t
  return ⟨hour, minute, second, ← ClockOffset.parse? t⟩

namespace MomentFields

/-- Takes a date apart, and the time of day after it. -/
def parse? (t : Text) : Option MomentFields := do
  let (year, t) ← takeNumber? 4 4 t
  let t ← afterChar? '-' t
  let (month, t) ← takeNumber? 1 2 t
  let t ← afterChar? '-' t
  let (day, t) ← takeNumber? 1 2 t
  if isTail t then return ⟨year, month, day, none⟩
  let t ← match t with
    | c :: rest =>
      if c.isOneOf "Tt" then some rest
      else if isInlineBlank c then some (t.dropWhile isInlineBlank)
      else none
    | [] => none
  return ⟨year, month, day, some (← ClockTime.parse? t)⟩

/-- A text that is taken for a date where nothing says what it is.  Without a time of day,
    month and day need two digits each. -/
def isEvident (t : Text) : Bool :=
  match parse? t with
  | none => false
  | some m => m.time?.isSome || (t.takeWhile fun c => c != .scalar '\n').length = 10

/-- A year whose February has 29 days. -/
def isLeap (year : Nat) : Bool :=
  year % 4 = 0 && (year % 100 ≠ 0 || year % 400 = 0)

/-- The number of days of a month. -/
def daysIn (year month : Nat) : Nat :=
  if month = 2 then if isLeap year then 29 else 28
  else if month = 4 || month = 6 || month = 9 || month = 11 then 30
  else 31

/-- A distance from UTC is less than a day. -/
def checkOffset (o : ClockOffset) : Except Fault Unit :=
  let seconds : Nat := o.hour * 3600 + o.minute * 60
  if seconds < 86400 then .ok ()
  else
    let total : Int := if o.isWest then -(seconds : Int) else seconds
    .error (.moment (.offset (total / 86400) (total % 86400).toNat))

/-- The calendar has the day and the clock the time; the distance from UTC is looked at
    first. -/
def check (m : MomentFields) : Except Fault Unit := do
  let fail (b : Bool) (f : MomentFault) : Except Fault Unit :=
    if b then .error (.moment f) else .ok ()
  if let some o := m.time?.bind (·.offset?) then checkOffset o
  fail (m.year < 1) (.year m.year)
  fail (m.month < 1 || 12 < m.month) .month
  fail (m.day < 1 || daysIn m.year m.month < m.day) .day
  if let some time := m.time? then
    fail (23 < time.hour) .hour
    fail (59 < time.minute) .minute
    fail (59 < time.second) .second

end MomentFields

end TraitCatalog.Yaml
