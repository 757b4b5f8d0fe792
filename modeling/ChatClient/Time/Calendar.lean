/-!
# The Gregorian calendar

Dates of the proleptic Gregorian calendar with years from 0 on, and the number of days between such
a date and the first of January 1970. A year is counted as 365 days and its leap day, a month by
the days of the months before it.
-/

namespace ChatClient.Time

/-- Years with a twenty-ninth of February. -/
def isLeapYear (year : Nat) : Bool :=
  year % 4 == 0 && (year % 100 != 0 || year % 400 == 0)

/-- The number of days of a month; months are counted from 1. -/
def monthLength (year month : Nat) : Nat :=
  match month with
  | 1 | 3 | 5 | 7 | 8 | 10 | 12 => 31
  | 4 | 6 | 9 | 11 => 30
  | 2 => if isLeapYear year then 29 else 28
  | _ => 0

/-- A day of the calendar. -/
structure Date where
  year : Nat
  month : Nat
  day : Nat
  deriving DecidableEq, Repr

/-- The month exists and has the day. -/
def Date.Valid (d : Date) : Prop :=
  1 ≤ d.month ∧ d.month ≤ 12 ∧ 1 ≤ d.day ∧ d.day ≤ monthLength d.year d.month

instance (d : Date) : Decidable d.Valid := by
  unfold Date.Valid; infer_instance

/-- The leap years before `year`, counted from year 0, which is one itself. -/
def leapYearsBefore (year : Nat) : Nat :=
  (year + 3) / 4 - (year + 99) / 100 + (year + 399) / 400

/-- The days of `year` before the first of `month`. -/
def daysBeforeMonth (year : Nat) : Nat → Nat
  | 0 => 0
  | month + 1 => if month = 0 then 0 else daysBeforeMonth year month + monthLength year month

/-- The days from the first of January of year 0 to the first of January 1970. -/
def epochDays : Nat := 719528

/-- The days from the first of January 1970 to the date, negative before it. -/
def Date.daysSinceEpoch (d : Date) : Int :=
  (365 * d.year + leapYearsBefore d.year + daysBeforeMonth d.year d.month + (d.day - 1) : Nat)
    - epochDays

example : (⟨1970, 1, 1⟩ : Date).daysSinceEpoch = 0 := by decide
example : (⟨2000, 3, 1⟩ : Date).daysSinceEpoch = 11017 := by decide
example : (⟨0, 1, 1⟩ : Date).daysSinceEpoch = -719528 := by decide

example : (⟨1900, 3, 1⟩ : Date).daysSinceEpoch = (⟨1900, 2, 28⟩ : Date).daysSinceEpoch + 1 := by
  decide

end ChatClient.Time
