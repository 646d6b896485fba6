/-
  Almanac.Time.Civil

  The proleptic Gregorian calendar: leap years, month lengths, and the numbering
  of days that ties a civil date (`Date`) to a day count from 1970-01-01.

  `Date.toDay` counts the days before a date; `Date.ofDay` finds the year that
  contains a day count and then the month inside that year. Both are plain
  integer arithmetic, so the two directions can be compared.
-/

namespace Almanac

/-! ## Years and months -/

/-- A year is leap when divisible by four, centuries only when divisible by 400. -/
def isLeapYear (year : Int) : Bool :=
  year % 4 == 0 && (year % 100 != 0 || year % 400 == 0)

/-- The number of days of a month, `1` being January. -/
def monthLength (year : Int) (month : Nat) : Nat :=
  if month == 2 then (if isLeapYear year then 29 else 28)
  else if month == 4 || month == 6 || month == 9 || month == 11 then 30
  else 31

/-- Days from 0001-01-01 to the first day of `year`. -/
def daysBeforeYear (year : Int) : Int :=
  365 * (year - 1) + (year - 1) / 4 - (year - 1) / 100 + (year - 1) / 400

/-- Days from the first of January to the first day of `month` in the same year. -/
def daysBeforeMonth (year : Int) : Nat → Nat
  | 0 => 0
  | 1 => 0
  | month + 1 => daysBeforeMonth year month + monthLength year month

/-- Day count of 1970-01-01 on the scale of `daysBeforeYear`. -/
def epochOffset : Int := 719162

/-! ## Dates -/

/-- A civil date; `Date.Valid` says which ones exist. -/
structure Date where
  year : Int
  month : Nat
  day : Nat
deriving DecidableEq, Repr, Inhabited

/-- A date exists when its month and its day of month do. -/
def Date.Valid (d : Date) : Prop :=
  1 ≤ d.month ∧ d.month ≤ 12 ∧ 1 ≤ d.day ∧ d.day ≤ monthLength d.year d.month

instance (d : Date) : Decidable d.Valid := by
  unfold Date.Valid; infer_instance

/-- Days from 1970-01-01 to `d`, negative before it. -/
def Date.toDay (d : Date) : Int :=
  daysBeforeYear d.year + daysBeforeMonth d.year d.month + d.day - 1 - epochOffset

/-- The year that holds the day `n` of the scale of `daysBeforeYear`: the mean length
    of a year gives a guess that is off by at most one. -/
def yearOfDay (n : Int) : Int :=
  let guess := n * 400 / 146097 + 1
  if n < daysBeforeYear guess then guess - 1
  else if daysBeforeYear (guess + 1) ≤ n then guess + 1
  else guess

/-- The month of the year, at or after `month`, that holds the day of year `n`. -/
def monthOfDay (year : Int) (n : Nat) (month : Nat) : Nat :=
  if h : month < 12 then
    if daysBeforeMonth year (month + 1) ≤ n then monthOfDay year n (month + 1) else month
  else month
termination_by 12 - month

/-- The date that lies `day` days after 1970-01-01. -/
def Date.ofDay (day : Int) : Date :=
  let n := day + epochOffset
  let year := yearOfDay n
  let rest := (n - daysBeforeYear year).toNat
  let month := monthOfDay year rest 1
  ⟨year, month, rest - daysBeforeMonth year month + 1⟩

/-- `months` calendar months later (earlier when negative); the day of month is kept, or
    cut to the length of the month reached. -/
def Date.addMonths (d : Date) (months : Int) : Date :=
  let total := d.year * 12 + (d.month : Int) - 1 + months
  let year := total / 12
  let month := (total % 12).toNat + 1
  ⟨year, month, min d.day (monthLength year month)⟩

/-! ## The supported range -/

/-- First supported year. -/
def minYear : Int := -262143
/-- Last supported year. -/
def maxYear : Int := 262142

/-- The day -262143-01-01. -/
def minDay : Int := -96465292
/-- The day +262142-12-31. -/
def maxDay : Int := 95026236

theorem minDay_eq : minDay = (Date.mk minYear 1 1).toDay := by decide
theorem maxDay_eq : maxDay = (Date.mk maxYear 12 31).toDay := by decide

end Almanac
