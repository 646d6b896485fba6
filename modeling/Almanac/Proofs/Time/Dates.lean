/-
  Almanac.Proofs.Time.Dates

  The order of dates. Dates that exist are in the order of their days (`Date.toDay_le_iff`), since
  a year is over before the next one begins, and so is a month. Hence a date that exists is the
  date of its day (`Date.ofDay_toDay`), and instants have the order of their dates first.
-/
import Almanac.Proofs.Time.Civil
import Almanac.Time.Instant

namespace Almanac

/-! ## Years and months in order -/

theorem daysBeforeYear_mono {year later : Int} (h : year ≤ later) :
    daysBeforeYear year ≤ daysBeforeYear later := by
  unfold daysBeforeYear
  omega

theorem daysBeforeMonth_mono (year : Int) {month later : Nat} (h : month ≤ later) :
    daysBeforeMonth year month ≤ daysBeforeMonth year later := by
  induction h with
  | refl => exact Nat.le_refl _
  | @step later _ ih =>
      refine Nat.le_trans ih ?_
      cases later with
      | zero => exact Nat.le_refl _
      | succ later => exact Nat.le_add_right _ _

namespace Date

/-- Dates are compared by their years, then by their months, then by their days. -/
instance : LE Date := ⟨fun a b =>
  a.year < b.year ∨ (a.year = b.year ∧
    (a.month < b.month ∨ (a.month = b.month ∧ a.day ≤ b.day)))⟩

theorem le_iff {a b : Date} :
    a ≤ b ↔ a.year < b.year ∨ (a.year = b.year ∧
      (a.month < b.month ∨ (a.month = b.month ∧ a.day ≤ b.day))) := Iff.rfl

variable {a b d : Date}

/-- A month is over when the next one begins. -/
theorem Valid.day_le (h : d.Valid) {month : Nat} (hmonth : d.month < month) :
    daysBeforeMonth d.year d.month + d.day ≤ daysBeforeMonth d.year month := by
  obtain ⟨hpos, -, -, hday⟩ := h
  have hnext := daysBeforeMonth_mono d.year hmonth
  rw [daysBeforeMonth_succ d.year hpos] at hnext
  omega

/-- A year is over when the next one begins. -/
theorem Valid.dayOfYear_le (h : d.Valid) :
    daysBeforeMonth d.year d.month + d.day ≤ yearLength d.year := by
  have hmonth := h.2.1
  rw [← daysBeforeMonth_thirteen]
  exact h.day_le (by omega)

theorem toDay_lt_of_year_lt (ha : a.Valid) (hb : b.Valid) (h : a.year < b.year) :
    a.toDay < b.toDay := by
  have hend := ha.dayOfYear_le
  have hday := hb.2.2.1
  have hyears := daysBeforeYear_mono (Int.add_one_le_iff.mpr h)
  rw [daysBeforeYear_succ] at hyears
  unfold toDay
  omega

theorem toDay_lt_of_month_lt (ha : a.Valid) (hb : b.Valid) (hyear : a.year = b.year)
    (h : a.month < b.month) : a.toDay < b.toDay := by
  have hend := ha.day_le h
  have hday := hb.2.2.1
  unfold toDay
  rw [hyear] at hend ⊢
  omega

/-- Dates that exist are in the order of their days. -/
theorem toDay_le_iff (ha : a.Valid) (hb : b.Valid) : a.toDay ≤ b.toDay ↔ a ≤ b := by
  rw [le_iff]
  rcases Int.lt_trichotomy a.year b.year with hlt | hyear | hgt
  · have hday := toDay_lt_of_year_lt ha hb hlt
    omega
  · rcases Nat.lt_trichotomy a.month b.month with hlt | hmonth | hgt
    · have hday := toDay_lt_of_month_lt ha hb hyear hlt
      omega
    · unfold toDay
      rw [hyear, hmonth]
      omega
    · have hday := toDay_lt_of_month_lt hb ha hyear.symm hgt
      omega
  · have hday := toDay_lt_of_year_lt hb ha hgt
    omega

/-- There is one date that exists for a day. -/
theorem toDay_inj (ha : a.Valid) (hb : b.Valid) (h : a.toDay = b.toDay) : a = b := by
  have hab := (toDay_le_iff ha hb).mp (Int.le_of_eq h)
  have hba := (toDay_le_iff hb ha).mp (Int.le_of_eq h.symm)
  rw [le_iff] at hab hba
  obtain ⟨year, month, day⟩ := a
  obtain ⟨year', month', day'⟩ := b
  simp only [mk.injEq] at hab hba ⊢
  omega

theorem ofDay_toDay (h : d.Valid) : ofDay d.toDay = d :=
  toDay_inj (valid_ofDay d.toDay) h (toDay_ofDay d.toDay)

/-! ## The supported range -/

theorem minDay_le_toDay_iff (h : d.Valid) : minDay ≤ d.toDay ↔ minYear ≤ d.year := by
  have hfirst : (Date.mk minYear 1 1).Valid := by decide
  rw [minDay_eq, toDay_le_iff hfirst h, le_iff]
  obtain ⟨hmonth, -, hday, -⟩ := h
  dsimp only
  omega

theorem toDay_le_maxDay_iff (h : d.Valid) : d.toDay ≤ maxDay ↔ d.year ≤ maxYear := by
  have hlast : (Date.mk maxYear 12 31).Valid := by decide
  have hlength := monthLength_le d.year d.month
  rw [maxDay_eq, toDay_le_iff h hlast, le_iff]
  obtain ⟨-, hmonth, -, hday⟩ := h
  dsimp only
  omega

end Date

/-! ## Instants -/

namespace Instant

variable {t u : Instant}

theorem date_le_iff : t.date ≤ u.date ↔ t.day ≤ u.day := by
  rw [date, date, ← Date.toDay_le_iff (valid_ofDay t.day) (valid_ofDay u.day), toDay_ofDay,
    toDay_ofDay]

theorem date_eq_iff : t.date = u.date ↔ t.day = u.day := by
  constructor
  · intro h
    rw [← toDay_ofDay t.day, ← toDay_ofDay u.day]
    exact congrArg Date.toDay h
  · intro h
    rw [date, date, h]

theorem first_le (t : Instant) : first ≤ t := by
  have hday := t.day_ge
  simp only [le_iff_rank, rank, first]
  omega

/-- Instants with one time of day are in the order of their dates. -/
theorem le_of_date_le (h : t.date ≤ u.date) (hsecond : t.second = u.second)
    (hfrac : t.frac = u.frac) : t ≤ u := by
  have hday := date_le_iff.mp h
  simp only [le_iff_rank, rank, hsecond, hfrac]
  omega

end Instant

end Almanac
