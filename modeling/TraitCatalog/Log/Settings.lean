/-
  What is logged, and in which form.

  A level is given by name, in any case; an unknown name means INFO.  Two names find
  something that is no level, and are refused.
-/
import TraitCatalog.Log.Format

namespace TraitCatalog

open Text (lit)

/-- Which events are written, by the least rank, and how. -/
structure LogSettings where
  threshold : Nat
  format : LogFormat
  deriving DecidableEq, Repr

/-- Why there is no log. -/
inductive LogFault where
  /-- The format names no field. -/
  | badFormat (format : LogFormat)
  /-- The name of a level finds the basic format. -/
  | formatAsLevel
  /-- The name of a level finds the table of styles. -/
  | stylesAsLevel
  deriving DecidableEq, Repr

/-- The format that is used where none is given. -/
def LogFormat.basic : LogFormat := lit "%(levelname)s:%(name)s:%(message)s"

/-- The table of styles, as it is shown. -/
def styleTable : Text :=
  lit "\x7b'%': (<class 'logging.PercentStyle'>, '" ++ LogFormat.basic ++ lit "'), " ++
    lit "'\x7b': (<class 'logging.StrFormatStyle'>, '\x7blevelname\x7d:\x7bname\x7d:\x7bmessage\x7d'), " ++
    lit "'$': (<class 'logging.StringTemplateStyle'>, " ++
    lit "'$\x7blevelname\x7d:$\x7bname\x7d:$\x7bmessage\x7d')\x7d"

/-- The wording of a fault. -/
def LogFault.message : LogFault → Text
  | badFormat format => lit "Invalid format '" ++ format ++ lit "' for '%' style"
  | formatAsLevel => lit "Unknown level: '" ++ LogFormat.basic ++ lit "'"
  | stylesAsLevel => lit "Level not an integer or a valid string: " ++ styleTable

/-- A code point in upper case, as far as that is ASCII. -/
def upperCase (c : CodePoint) : Text :=
  match c.toNat with
  | 0x131 => lit "I"
  | 0x17F => lit "S"
  | 0xFB05 | 0xFB06 => lit "ST"
  | n => if 0x61 ≤ n && n ≤ 0x7A then (CodePoint.ofNat? (n - 0x20)).toList else [c]

/-- The ranks of levels by name. -/
def levelRanks : List (String × Nat) :=
  [("NOTSET", 0), ("DEBUG", 10), ("INFO", 20), ("WARN", 30), ("WARNING", 30), ("ERROR", 40),
    ("CRITICAL", 50), ("FATAL", 50)]

/-- The rank of a level by its name. -/
def levelRank (name : Text) : Except LogFault Nat :=
  let name := name.flatMap upperCase
  if name = lit "BASIC_FORMAT" then .error .formatAsLevel
  else if name = lit "_STYLES" then .error .stylesAsLevel
  else .ok (((levelRanks.find? fun p => lit p.1 = name).map (·.2)).getD LogLevel.info.rank)

namespace LogSettings

/-- Settings from the name of a level and a format; `verbose` logs everything from DEBUG on
    and does not look at the level. -/
def make (level format : Text) (verbose : Bool) : Except LogFault LogSettings := do
  unless format.isEmpty || LogFormat.isAcceptable format do throw (.badFormat format)
  let threshold ← if verbose then pure LogLevel.debug.rank else levelRank level
  return ⟨threshold, format⟩

/-- The lines of the events that are written, at the time `stamp`. -/
def lines (s : LogSettings) (stamp : Text) (events : List LogEvent) : Text :=
  (events.filter fun e => s.threshold ≤ e.level.rank).flatMap fun e =>
    ((s.format.line stamp e).map (· ++ lit "\n")).getD []

end LogSettings

end TraitCatalog
