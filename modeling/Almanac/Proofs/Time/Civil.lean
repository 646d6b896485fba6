/-
  Almanac.Proofs.Time.Civil

  Day counts and dates. Every day count has a date, the date exists, and counting its days
  gives the day count back (`toDay_ofDay`). The year is found by a guess that is off by one
  at most, the month by a search; each gives an interval that holds the day.
-/
import Almanac.Time.Civil

namespace Almanac

/-! ## Years -/

/-- The length of a year in days. -/
def yearLength (year : Int) : Nat := if isLeapYear year then 366 else 365

theorem daysBeforeYear_succ (year : Int) :
    daysBeforeYear (year + 1) = daysBeforeYear year + yearLength year := by
  unfold daysBeforeYear yearLength isLeapYear
  -- The three counts of leap days go up at multiples of 4, 100 and 400.
  by_cases h4 : year % 4 = 0
  · by_cases h100 : year % 100 = 0
    · by_cases h400 : year % 400 = 0
      · simp only [h4, h100, h400]
        simp
        omega
      · simp only [h4, h100]
        simp [h400]
        omega
    · simp [h4, h100]
      omega
  · simp [h4]
    omega

/-- The year that is found holds the day. -/
theorem yearOfDay_spec (n : Int) :
    daysBeforeYear (yearOfDay n) ≤ n ∧ n < daysBeforeYear (yearOfDay n + 1) := by
  unfold yearOfDay
  -- The guess from the mean length of a year is never off by more than one year.
  generalize hguess : n * 400 / 146097 + 1 = guess
  dsimp only
  split
  · next hlt =>
    rw [Int.sub_add_cancel]
    unfold daysBeforeYear at hlt ⊢
    omega
  · next hge =>
    split
    · next hge' =>
      unfold daysBeforeYear at hge hge' ⊢
      omega
    · next hlt' => omega

/-! ## Months -/

theorem monthLength_pos (year : Int) (month : Nat) : 1 ≤ monthLength year month := by
  unfold monthLength
  split
  · split <;> omega
  · split <;> omega

theorem monthLength_le (year : Int) (month : Nat) : monthLength year month ≤ 31 := by
  unfold monthLength
  split
  · split <;> omega
  · split <;> omega

theorem daysBeforeMonth_succ (year : Int) {month : Nat} (h : 1 ≤ month) :
    daysBeforeMonth year (month + 1) = daysBeforeMonth year month + monthLength year month := by
  cases month with
  | zero => omega
  | succ month => rfl

/-- The months of a year make up its length. -/
theorem daysBeforeMonth_thirteen (year : Int) : daysBeforeMonth year 13 = yearLength year := by
  unfold yearLength
  cases hleap : isLeapYear year <;> simp [daysBeforeMonth, monthLength, hleap]

/-- The month that is found holds the day of the year. -/
theorem monthOfDay_spec {year : Int} {n month : Nat} (hpos : 1 ≤ month) (hle : month ≤ 12)
    (hstart : daysBeforeMonth year month ≤ n) (hend : n < yearLength year) :
    1 ≤ monthOfDay year n month ∧ monthOfDay year n month ≤ 12 ∧
      daysBeforeMonth year (monthOfDay year n month) ≤ n ∧
      n < daysBeforeMonth year (monthOfDay year n month + 1) := by
  fun_induction monthOfDay year n month with
  | case1 month hlt hnext ih => exact ih (by omega) (by omega) hnext
  | case2 month hlt hnext => exact ⟨hpos, hle, hstart, by omega⟩
  | case3 month hlast =>
      -- The search ends in December at the latest.
      obtain rfl : month = 12 := by omega
      rw [daysBeforeMonth_thirteen]
      exact ⟨hpos, hle, hstart, hend⟩

/-! ## Dates -/

/-- The parts of the date of a day: a year, and a month and a day that fit it. -/
theorem ofDay_spec (day : Int) :
    (Date.ofDay day).Valid ∧ (Date.ofDay day).toDay = day := by
  obtain ⟨hyear, hyear'⟩ := yearOfDay_spec (day + epochOffset)
  rw [daysBeforeYear_succ] at hyear'
  -- The days since the beginning of the year are a natural number below its length.
  have hrest : ((day + epochOffset - daysBeforeYear (yearOfDay (day + epochOffset))).toNat : Int) =
      day + epochOffset - daysBeforeYear (yearOfDay (day + epochOffset)) :=
    Int.toNat_of_nonneg (by omega)
  have hlt : (day + epochOffset - daysBeforeYear (yearOfDay (day + epochOffset))).toNat <
      yearLength (yearOfDay (day + epochOffset)) := by omega
  obtain ⟨hpos, hle, hmonth, hmonth'⟩ := monthOfDay_spec (Nat.le_refl 1) (by omega) (Nat.zero_le _) hlt
  rw [daysBeforeMonth_succ _ hpos] at hmonth'
  -- The day of the month is what is left of the days of the year.
  refine ⟨⟨hpos, hle, ?_, ?_⟩, ?_⟩
  · simp only [Date.ofDay]
    omega
  · simp only [Date.ofDay]
    omega
  · simp only [Date.ofDay, Date.toDay]
    omega

theorem valid_ofDay (day : Int) : (Date.ofDay day).Valid := (ofDay_spec day).1

@[simp] theorem toDay_ofDay (day : Int) : (Date.ofDay day).toDay = day := (ofDay_spec day).2

end Almanac
