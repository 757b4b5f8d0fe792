import ChatClient.Time.Calendar
import Mathlib.Order.Monotone.Basic
import Mathlib.Order.Lattice
import Mathlib.Tactic.Common
import Mathlib.Tactic.IntervalCases

/-!
# One day after another

The number of a day is computed from its date at once. What a calendar is about is said more simply:
each day has a next one, which is the next of its month as long as there is one, then the first of
the next month, and after December the first of the next year. Both agree. The number goes up by one
from each day to the next, and no two days have the same number.

The number of a day is that of the first day of its year and the days of the year before it. A year
begins where the one before it ends, and so does a month, which is all that the steps from day to
day need.

## Main definitions

* `yearStart`, `Date.daysBefore`: the days before a year, and before a date within its year
* `Date.next`: the day after a date

## Main results

* `yearStart_succ`: a year begins where the one before it ends
* `Date.daysSinceEpoch_next`: the next day has the next number
* `Date.eq_of_daysSinceEpoch`: a day is known by its number
-/

namespace ChatClient.Time

/-! ## Years -/

/-- The days before a year, counted from year 0 on. -/
def yearStart (year : Nat) : Nat := 365 * year + leapYearsBefore year

/-- The number of days of a year. -/
def yearLength (year : Nat) : Nat := if isLeapYear year then 366 else 365

private theorem isLeapYear_iff (year : Nat) :
    isLeapYear year = true ↔ year % 4 = 0 ∧ (year % 100 ≠ 0 ∨ year % 400 = 0) := by
  simp [isLeapYear]

/-- One more multiple of `k` comes before the next year if the year is one itself. -/
theorem multiples_succ (year : Nat) {k : Nat} (pos : 0 < k) :
    (year + 1 + (k - 1)) / k = (year + (k - 1)) / k + if year % k = 0 then 1 else 0 := by
  have reaches : k ∣ year + k ↔ year % k = 0 := by
    rw [Nat.dvd_add_self_right, Nat.dvd_iff_mod_eq_zero]
  rw [show year + 1 + (k - 1) = year + (k - 1) + 1 by omega, Nat.succ_div,
    show year + (k - 1) + 1 = year + k by omega]
  simp only [reaches]

/-- A year begins where the one before it ends. -/
theorem yearStart_succ (year : Nat) : yearStart (year + 1) = yearStart year + yearLength year := by
  have fours := multiples_succ year (by decide : 0 < 4)
  have hundreds := multiples_succ year (by decide : 0 < 100)
  have fourHundreds := multiples_succ year (by decide : 0 < 400)
  simp only [Nat.reduceSub] at fours hundreds fourHundreds
  have fewer : (year + 99) / 100 ≤ (year + 3) / 4 := by omega
  have four_of_hundred : year % 100 = 0 → year % 4 = 0 := by omega
  have hundred_of_fourHundred : year % 400 = 0 → year % 100 = 0 := by omega
  simp only [yearStart, yearLength, leapYearsBefore, isLeapYear_iff, fours, hundreds, fourHundreds]
  -- From here on it does not matter what the quotients and the remainders are.
  generalize (year + 3) / 4 = n₁, (year + 99) / 100 = n₂, (year + 399) / 400 = n₃ at *
  generalize year % 4 = r₁, year % 100 = r₂, year % 400 = r₃ at *
  split <;> split <;> split <;> split <;> omega

private theorem yearStart_mono : Monotone yearStart :=
  monotone_nat_of_le_succ fun year => by rw [yearStart_succ]; omega

/-! ## Months -/

private theorem daysBeforeMonth_succ (year : Nat) {month : Nat} (first : 1 ≤ month) :
    daysBeforeMonth year (month + 1) = daysBeforeMonth year month + monthLength year month := by
  rw [daysBeforeMonth, if_neg (by omega)]

private theorem daysBeforeMonth_mono (year : Nat) : Monotone (daysBeforeMonth year) :=
  monotone_nat_of_le_succ fun month => by
    rw [daysBeforeMonth]
    split
    · next zero => simp [zero, daysBeforeMonth]
    · omega

private theorem monthLength_pos (year : Nat) {month : Nat} (first : 1 ≤ month) (last : month ≤ 12) :
    1 ≤ monthLength year month := by
  by_cases february : month = 2
  · rw [february, monthLength]
    split <;> decide
  · interval_cases month <;> simp [monthLength] at february ⊢

/-- No month is longer than 31 days. -/
theorem monthLength_le (year month : Nat) : monthLength year month ≤ 31 := by
  unfold monthLength
  repeat' split
  all_goals decide

/-- The months make up the year. -/
theorem daysBeforeMonth_thirteen (year : Nat) : daysBeforeMonth year 13 = yearLength year := by
  cases leap : isLeapYear year <;> simp [daysBeforeMonth, monthLength, yearLength, leap]

namespace Date

variable {d d' : Date}

/-- The days of its year before the date. -/
def daysBefore (d : Date) : Nat := daysBeforeMonth d.year d.month + (d.day - 1)

private theorem daysSinceEpoch_eq (d : Date) :
    d.daysSinceEpoch = (yearStart d.year + d.daysBefore : Nat) - epochDays := by
  rw [daysSinceEpoch, yearStart, daysBefore]
  omega

/-- A month is over before the next one begins. -/
theorem Valid.daysBefore_lt (valid : d.Valid) :
    d.daysBefore < daysBeforeMonth d.year (d.month + 1) := by
  obtain ⟨first, -, first', last'⟩ := valid
  rw [daysBeforeMonth_succ d.year first, daysBefore]
  omega

/-- A year is over before the next one begins. -/
theorem Valid.daysBefore_lt_yearLength (valid : d.Valid) : d.daysBefore < yearLength d.year :=
  calc d.daysBefore < daysBeforeMonth d.year (d.month + 1) := valid.daysBefore_lt
    _ ≤ daysBeforeMonth d.year 13 := daysBeforeMonth_mono d.year (Nat.succ_le_succ valid.2.1)
    _ = yearLength d.year := daysBeforeMonth_thirteen d.year

/-! ## The next day -/

/-- The day after a date. -/
def next (d : Date) : Date :=
  if d.day < monthLength d.year d.month then { d with day := d.day + 1 }
  else if d.month < 12 then ⟨d.year, d.month + 1, 1⟩
  else ⟨d.year + 1, 1, 1⟩

/-- The day after a day of the calendar is one as well. -/
theorem Valid.next (valid : d.Valid) : d.next.Valid := by
  obtain ⟨first, last, first', last'⟩ := valid
  unfold Date.next
  split
  · next before => exact ⟨first, last, by simp, before⟩
  · split
    · next before =>
        exact ⟨Nat.succ_pos _, before, le_rfl, monthLength_pos d.year (Nat.succ_pos _) before⟩
    · have january : 1 ≤ 12 := by decide
      exact ⟨le_rfl, january, le_rfl, monthLength_pos _ le_rfl january⟩

/-- The next day has the next number. -/
theorem Valid.daysSinceEpoch_next (valid : d.Valid) :
    d.next.daysSinceEpoch = d.daysSinceEpoch + 1 := by
  obtain ⟨first, last, first', last'⟩ := valid
  have number :
      yearStart d.next.year + d.next.daysBefore = yearStart d.year + d.daysBefore + 1 := by
    unfold Date.next daysBefore
    split
    · simp only
      omega
    -- It is the last day of the month.
    · have month := daysBeforeMonth_succ d.year first
      have full : d.day = monthLength d.year d.month := by omega
      split
      · simp only [month]
        omega
      -- It is the last day of the year as well.
      · obtain december : d.month = 12 := by omega
        have year := daysBeforeMonth_thirteen d.year
        rw [december] at month full ⊢
        change daysBeforeMonth d.year 13 = _ at month
        have january : daysBeforeMonth (d.year + 1) 1 + (1 - 1) = 0 := rfl
        rw [yearStart_succ, january]
        omega
  rw [daysSinceEpoch_eq, daysSinceEpoch_eq, number]
  omega

/-! ## A day is known by its number -/

private theorem year_le_of_daysSinceEpoch (valid' : d'.Valid)
    (le : d.daysSinceEpoch ≤ d'.daysSinceEpoch) : d.year ≤ d'.year := by
  rw [daysSinceEpoch_eq, daysSinceEpoch_eq] at le
  by_contra later
  have starts : yearStart (d'.year + 1) ≤ yearStart d.year := yearStart_mono (by omega)
  have ends := valid'.daysBefore_lt_yearLength
  rw [yearStart_succ] at starts
  omega

private theorem month_le_of_daysBefore (valid' : d'.Valid) (year : d.year = d'.year)
    (le : d.daysBefore ≤ d'.daysBefore) : d.month ≤ d'.month := by
  by_contra later
  have starts : daysBeforeMonth d.year (d'.month + 1) ≤ daysBeforeMonth d.year d.month :=
    daysBeforeMonth_mono d.year (by omega)
  have ends := valid'.daysBefore_lt
  rw [← year] at ends
  have begun : daysBeforeMonth d.year d.month ≤ d.daysBefore := Nat.le_add_right _ _
  omega

/-- A day is known by its number. -/
theorem eq_of_daysSinceEpoch (valid : d.Valid) (valid' : d'.Valid)
    (same : d.daysSinceEpoch = d'.daysSinceEpoch) : d = d' := by
  have year : d.year = d'.year :=
    Nat.le_antisymm (year_le_of_daysSinceEpoch valid' same.le)
      (year_le_of_daysSinceEpoch valid same.ge)
  rw [daysSinceEpoch_eq, daysSinceEpoch_eq, year] at same
  have days : d.daysBefore = d'.daysBefore := by omega
  have month : d.month = d'.month :=
    Nat.le_antisymm (month_le_of_daysBefore valid' year days.le)
      (month_le_of_daysBefore valid year.symm days.ge)
  have first := valid.2.2.1
  have first' := valid'.2.2.1
  rw [daysBefore, daysBefore, year, month] at days
  rcases d with ⟨y, m, n⟩
  rcases d' with ⟨y', m', n'⟩
  simp only at year month days first first'
  rw [year, month, show n = n' by omega]

end Date

end ChatClient.Time
