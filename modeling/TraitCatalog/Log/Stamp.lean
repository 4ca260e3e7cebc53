/-
  The time in a log line: date, time of day and milliseconds, in UTC.
-/
import TraitCatalog.Text.Basic

namespace TraitCatalog

open Text (lit)

/-- The year, month and day that lie `days` days after 1 March of the year 0. -/
def dateOfDays (days : Nat) : Nat × Nat × Nat :=
  let era := days / 146097
  let dayOfEra := days % 146097
  let yearOfEra := (dayOfEra - dayOfEra / 1460 + dayOfEra / 36524 - dayOfEra / 146096) / 365
  let dayOfYear := dayOfEra - (365 * yearOfEra + yearOfEra / 4 - yearOfEra / 100)
  let shifted := (5 * dayOfYear + 2) / 153
  let day := dayOfYear - (153 * shifted + 2) / 5 + 1
  let month := if shifted < 10 then shifted + 3 else shifted - 9
  (yearOfEra + 400 * era + (if month ≤ 2 then 1 else 0), month, day)

/-- The number of days from 1 March of the year 0 to 1 January 1970. -/
def daysBeforeEpoch : Nat := 719468

/-- The time that lies `ms` milliseconds after the start of 1970. -/
def timeStamp (ms : Nat) : Text :=
  let seconds := ms / 1000
  let (year, month, day) := dateOfDays (seconds / 86400 + daysBeforeEpoch)
  let second := seconds % 86400
  Text.ofNatWide 4 year ++ lit "-" ++ Text.ofNatWide 2 month ++ lit "-" ++ Text.ofNatWide 2 day ++
    lit " " ++ Text.ofNatWide 2 (second / 3600) ++ lit ":" ++ Text.ofNatWide 2 (second / 60 % 60) ++
    lit ":" ++ Text.ofNatWide 2 (second % 60) ++ lit "," ++ Text.ofNatWide 3 (ms % 1000)

example : timeStamp 0 = lit "1970-01-01 00:00:00,000" ∧
    timeStamp 951868799999 = lit "2000-02-29 23:59:59,999" := by
  decide +kernel

end TraitCatalog
