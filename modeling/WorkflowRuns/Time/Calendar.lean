/-!
# The calendar

Days of the Gregorian calendar, reckoned back before its introduction too, and their numbers counted
from 1970-01-01. The calendar repeats after 400 years, so a day is found by its place among those; a
year is taken to start in March, which puts the leap day at its end.
-/

namespace WorkflowRuns.Time

/-- A day by year, month and day of the month. -/
structure Date where
  /-- The year; 0 is the year before 1. -/
  year : Int
  /-- The month, from 1 to 12. -/
  month : Nat
  /-- The day of the month, from 1 on. -/
  day : Nat
deriving DecidableEq

/-- Whether a year has a leap day. -/
def isLeap (year : Int) : Bool := year % 4 = 0 && (year % 100 ≠ 0 || year % 400 = 0)

/-- The number of days of a month. -/
def daysInMonth (year : Int) (month : Nat) : Nat :=
  match month with
  | 2 => if isLeap year then 29 else 28
  | 4 | 6 | 9 | 11 => 30
  | _ => 31

/-- Whether there is such a day. -/
def Date.isReal (d : Date) : Bool :=
  1 ≤ d.month && d.month ≤ 12 && 1 ≤ d.day && d.day ≤ daysInMonth d.year d.month

/-- The days of 400 years. -/
def cycle : Int := 146097

/-- The number of a day, counted from 1970-01-01. -/
def Date.toDays (d : Date) : Int :=
  let year := if d.month ≤ 2 then d.year - 1 else d.year
  let yearInCycle := year % 400
  let month : Int := if d.month ≤ 2 then d.month + 9 else d.month - 3
  let dayInYear := (153 * month + 2) / 5 + d.day - 1
  let dayInCycle := yearInCycle * 365 + yearInCycle / 4 - yearInCycle / 100 + dayInYear
  year / 400 * cycle + dayInCycle - 719468

/-- The day with a number. -/
def Date.ofDays (n : Int) : Date :=
  let n := n + 719468
  let dayInCycle := n % cycle
  let yearInCycle :=
    (dayInCycle - dayInCycle / 1460 + dayInCycle / 36524 - dayInCycle / 146096) / 365
  let dayInYear := dayInCycle - (365 * yearInCycle + yearInCycle / 4 - yearInCycle / 100)
  let month := (5 * dayInYear + 2) / 153
  let day := dayInYear - (153 * month + 2) / 5 + 1
  let year := n / cycle * 400 + yearInCycle
  if month < 10 then ⟨year, (month + 3).toNat, day.toNat⟩
  else ⟨year + 1, (month - 9).toNat, day.toNat⟩

example : Date.toDays ⟨1970, 1, 1⟩ = 0 ∧ Date.ofDays (-1) = ⟨1969, 12, 31⟩ := by decide

example : Date.ofDays (Date.toDays ⟨2000, 2, 29⟩) = ⟨2000, 2, 29⟩ := by decide

end WorkflowRuns.Time
