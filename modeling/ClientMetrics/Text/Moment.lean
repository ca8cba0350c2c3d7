import ClientMetrics.Text.Duration

/-!
# Moments as text

A moment is counted in microseconds from the start of the year 1970 and written as a date and a
time of day, such as `2025-10-19T12:10:32.251000Z`.
-/

namespace ClientMetrics

namespace Text

/-- The year, the month and the day that lie some days after the start of 1970. Years are counted
from March, so that a leap day is the last day of its year. -/
def dayOfCalendar (days : Nat) : Nat × Nat × Nat :=
  let fromMarch := days + 719468
  let cycle := fromMarch / 146097
  let dayOfCycle := fromMarch % 146097
  let yearOfCycle :=
    (dayOfCycle - dayOfCycle / 1460 + dayOfCycle / 36524 - dayOfCycle / 146096) / 365
  let dayOfYear := dayOfCycle - (365 * yearOfCycle + yearOfCycle / 4 - yearOfCycle / 100)
  let month := (5 * dayOfYear + 2) / 153
  let day := dayOfYear - (153 * month + 2) / 5 + 1
  let year := 400 * cycle + yearOfCycle
  if month < 10 then (year, month + 3, day) else (year + 1, month - 9, day)

/-- A moment as text. -/
def moment (micros : Nat) : String :=
  let seconds := micros / 1000000
  let (year, month, day) := dayOfCalendar (seconds / 86400)
  String.ofList (padded 4 year ++ ['-'] ++ padded 2 month ++ ['-'] ++ padded 2 day ++ ['T']
    ++ padded 2 (seconds / 3600 % 24) ++ [':'] ++ padded 2 (seconds / 60 % 60) ++ [':']
    ++ padded 2 (seconds % 60) ++ ['.'] ++ padded 6 (micros % 1000000) ++ ['Z'])

example : dayOfCalendar 0 = (1970, 1, 1) := by decide

example : dayOfCalendar 19782 = (2024, 2, 29) := by decide

end Text

end ClientMetrics
