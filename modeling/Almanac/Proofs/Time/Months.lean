/-
  Almanac.Proofs.Time.Months

  Moving by calendar months. Months are numbered one after the other (`Date.monthNumber`), so
  moving a date adds to the number of its month; the day of the month stays, or is the last one of
  a month that is too short (`Instant.MovedTo`). An instant can be moved exactly to the months of
  the supported years (`Instant.movedTo_of_addMonths?`, `Instant.addMonths?_eq_none_iff`).

  Cutting the day off keeps the order of dates, though not a strict one
  (`Instant.MovedTo.date_le`), and that is what orders the instants so many months before others.
-/
import Almanac.Proofs.Time.Dates
import Almanac.Proofs.Time.Order

namespace Almanac

namespace Date

variable {a b d : Date}

/-! ## Months in order -/

/-- The months that have gone by since the beginning of the year zero. -/
def monthNumber (d : Date) : Int := d.year * 12 + (d.month : Int) - 1

/-- Dates are in the order of their months first. -/
theorem le_iff_monthNumber (ha : a.Valid) (hb : b.Valid) :
    a ≤ b ↔ a.monthNumber < b.monthNumber ∨
      (a.monthNumber = b.monthNumber ∧ a.day ≤ b.day) := by
  obtain ⟨hmonth, hmonth', -, -⟩ := ha
  obtain ⟨hother, hother', -, -⟩ := hb
  rw [le_iff]
  unfold monthNumber
  omega

/-- The number of a month stands for its year and its place in it. -/
theorem month_eq_of_monthNumber (ha : a.Valid) (hb : b.Valid)
    (h : a.monthNumber = b.monthNumber) : a.year = b.year ∧ a.month = b.month := by
  obtain ⟨hmonth, hmonth', -, -⟩ := ha
  obtain ⟨hother, hother', -, -⟩ := hb
  unfold monthNumber at h
  omega

/-! ## Moving -/

theorem monthNumber_addMonths (d : Date) (months : Int) :
    (d.addMonths months).monthNumber = d.monthNumber + months := by
  simp only [addMonths, monthNumber]
  omega

/-- A date that exists is moved to one that does. -/
theorem valid_addMonths (h : d.Valid) (months : Int) : (d.addMonths months).Valid := by
  have hday := h.2.2.1
  have hlength := monthLength_pos (d.addMonths months).year (d.addMonths months).month
  refine ⟨?_, ?_, ?_, Nat.min_le_right _ _⟩
  · simp only [addMonths]
    omega
  · simp only [addMonths]
    omega
  · simp only [addMonths] at hlength ⊢
    omega

/-- No months later is the same day. -/
theorem addMonths_zero (h : d.Valid) : d.addMonths 0 = d := by
  obtain ⟨hmonth, hmonth', -, hday'⟩ := h
  have hyear : (d.year * 12 + (d.month : Int) - 1 + 0) / 12 = d.year := by omega
  have hsame : ((d.year * 12 + (d.month : Int) - 1 + 0) % 12).toNat + 1 = d.month := by omega
  simp only [addMonths, hyear, hsame, Nat.min_eq_left hday']

/-- A later month begins behind an earlier one. -/
theorem toDay_lt_addMonths (h : d.Valid) {months : Int} (hmonths : 0 < months) :
    d.toDay < (d.addMonths months).toDay := by
  have hmoved := valid_addMonths h months
  have hle := (toDay_le_iff hmoved h).trans (le_iff_monthNumber hmoved h)
  rw [monthNumber_addMonths] at hle
  omega

end Date

/-! ## The supported months -/

/-- A month of the supported years, by its number. -/
def SupportedMonth (month : Int) : Prop := minYear * 12 ≤ month ∧ month < (maxYear + 1) * 12

instance (month : Int) : Decidable (SupportedMonth month) :=
  inferInstanceAs (Decidable (_ ∧ _))

/-- The days of the supported range are those of the supported months. -/
theorem supportedMonth_iff {d : Date} (h : d.Valid) :
    SupportedMonth d.monthNumber ↔ minDay ≤ d.toDay ∧ d.toDay ≤ maxDay := by
  rw [Date.minDay_le_toDay_iff h, Date.toDay_le_maxDay_iff h]
  obtain ⟨hmonth, hmonth', -, -⟩ := h
  unfold SupportedMonth Date.monthNumber
  omega

/-- Between supported months there are supported months only. -/
theorem SupportedMonth.between {first month last : Int} (hfirst : SupportedMonth first)
    (hlast : SupportedMonth last) (h : first ≤ month) (h' : month ≤ last) :
    SupportedMonth month := ⟨Int.le_trans hfirst.1 h, Int.lt_of_le_of_lt h' hlast.2⟩

namespace Instant

variable {t t' u u' : Instant} {month month' : Int}

theorem valid_date (t : Instant) : t.date.Valid := valid_ofDay t.day

theorem supportedMonth_date (t : Instant) : SupportedMonth t.date.monthNumber := by
  rw [supportedMonth_iff t.valid_date, date, toDay_ofDay]
  exact ⟨t.day_ge, t.day_le⟩

/-! ## Moving instants -/

/-- The instant that another one becomes in a month: it has its time of day and its day of the
    month, or the last day of the month if that comes before. -/
structure MovedTo (t : Instant) (month : Int) (u : Instant) : Prop where
  month : u.date.monthNumber = month
  day : u.date.day = min t.date.day (monthLength u.date.year u.date.month)
  second : u.second = t.second
  frac : u.frac = t.frac

theorem of?_eq_some {day : Int} {second frac : Nat} (h : of? day second frac = some t) :
    t.day = day ∧ t.second = second ∧ t.frac = frac := by
  unfold of? at h
  split at h
  · obtain rfl := Option.some.inj h
    exact ⟨rfl, rfl, rfl⟩
  · simp at h

theorem movedTo_of_addMonths? {months : Int} (h : t.addMonths? months = some u) :
    t.MovedTo (t.date.monthNumber + months) u := by
  obtain ⟨hday, hsecond, hfrac⟩ := of?_eq_some h
  have hdate : u.date = t.date.addMonths months := by
    rw [date, hday, Date.ofDay_toDay (Date.valid_addMonths t.valid_date months)]
  refine ⟨?_, ?_, hsecond, hfrac⟩
  · rw [hdate, Date.monthNumber_addMonths]
  · rw [hdate]
    rfl

/-- An instant can be moved to the supported months, and to no others. -/
theorem addMonths?_eq_none_iff {months : Int} :
    t.addMonths? months = none ↔ ¬SupportedMonth (t.date.monthNumber + months) := by
  rw [← Date.monthNumber_addMonths, supportedMonth_iff (Date.valid_addMonths t.valid_date months),
    addMonths?, of?, dite_eq_right_iff]
  simp only [t.second_lt, t.frac_lt, reduceCtorEq, true_and, imp_false]
  exact not_congr (and_iff_right t.leap_ends_minute)

/-- Every instant has a place in every supported month. -/
theorem exists_addMonths? {months : Int} (h : SupportedMonth (t.date.monthNumber + months)) :
    ∃ u, t.addMonths? months = some u ∧ t.MovedTo (t.date.monthNumber + months) u := by
  obtain ⟨u, hu⟩ := Option.ne_none_iff_exists'.mp fun hnone => addMonths?_eq_none_iff.mp hnone h
  exact ⟨u, hu, movedTo_of_addMonths? hu⟩

/-! ## Moved instants in order -/

/-- Earlier months come first, and in one month the order of the days is kept. -/
theorem MovedTo.date_le (hu : t.MovedTo month u) (hu' : t'.MovedTo month' u')
    (h : month < month' ∨ (month = month' ∧ t.date.day ≤ t'.date.day)) : u.date ≤ u'.date := by
  rw [Date.le_iff_monthNumber u.valid_date u'.valid_date, hu.month, hu'.month]
  refine h.imp_right fun ⟨hmonth, hday⟩ => ⟨hmonth, ?_⟩
  have hsame : u.date.monthNumber = u'.date.monthNumber := by rw [hu.month, hu'.month, hmonth]
  -- Both days are cut to the length of one month.
  obtain ⟨hyear, hplace⟩ := Date.month_eq_of_monthNumber u.valid_date u'.valid_date hsame
  rw [hu.day, hu'.day, hyear, hplace]
  omega

/-- An instant is later in a later month. -/
theorem MovedTo.le (hu : t.MovedTo month u) (hu' : t.MovedTo month' u') (h : month ≤ month') :
    u ≤ u' := by
  refine le_of_date_le (hu.date_le hu' ?_) (by rw [hu.second, hu'.second])
    (by rw [hu.frac, hu'.frac])
  rcases Int.lt_or_eq_of_le h with hlt | heq
  · exact Or.inl hlt
  · exact Or.inr ⟨heq, Nat.le_refl _⟩

/-- An instant is in its own month. -/
theorem movedTo_self (t : Instant) : t.MovedTo t.date.monthNumber t where
  month := rfl
  day := (Nat.min_eq_left t.valid_date.2.2.2).symm
  second := rfl
  frac := rfl

/-! ## So many months before -/

variable {now later : Instant} {months more : Nat}

/-- Going back stays in time, or ends with the first instant. -/
theorem monthsEarlier_cases (now : Instant) (months : Nat) :
    (SupportedMonth (now.date.monthNumber - months) ∧
      now.MovedTo (now.date.monthNumber - months) (now.monthsEarlier months)) ∨
    (¬SupportedMonth (now.date.monthNumber - months) ∧ now.monthsEarlier months = first) := by
  rw [Int.sub_eq_add_neg]
  by_cases hmonth : SupportedMonth (now.date.monthNumber + -months)
  · obtain ⟨u, hu, hmoved⟩ := exists_addMonths? hmonth
    rw [monthsEarlier, hu]
    exact Or.inl ⟨hmonth, hmoved⟩
  · rw [monthsEarlier, addMonths?_eq_none_iff.mpr hmonth]
    exact Or.inr ⟨hmonth, rfl⟩

theorem monthsEarlier_le (now : Instant) (months : Nat) : now.monthsEarlier months ≤ now := by
  rcases now.monthsEarlier_cases months with ⟨-, hmoved⟩ | ⟨-, hfirst⟩
  · exact hmoved.le now.movedTo_self (by omega)
  · rw [hfirst]
    exact now.first_le

/-- More months lead further back. -/
theorem monthsEarlier_antitone (h : months ≤ more) :
    now.monthsEarlier more ≤ now.monthsEarlier months := by
  rcases now.monthsEarlier_cases more with ⟨hmore, hmoved⟩ | ⟨-, hfirst⟩
  · rcases now.monthsEarlier_cases months with ⟨-, hmoved'⟩ | ⟨hout, -⟩
    · exact hmoved.le hmoved' (by omega)
    · -- The nearer month is supported when the one further back is.
      exact absurd (hmore.between now.supportedMonth_date (by omega) (by omega)) hout
  · rw [hfirst]
    exact first_le _

/-- From a later date the same months lead to a later date, or to the same one. -/
theorem date_monthsEarlier_mono (h : now.date ≤ later.date) :
    (now.monthsEarlier months).date ≤ (later.monthsEarlier months).date := by
  have horder := (Date.le_iff_monthNumber now.valid_date later.valid_date).mp h
  rcases now.monthsEarlier_cases months with ⟨hmonth, hmoved⟩ | ⟨-, hfirst⟩
  · rcases later.monthsEarlier_cases months with ⟨-, hmoved'⟩ | ⟨hout, -⟩
    · exact hmoved.date_le hmoved' (by omega)
    · exact absurd (hmonth.between later.supportedMonth_date (by omega) (by omega)) hout
  · rw [hfirst]
    exact date_le_iff.mpr (Instant.day_ge _)

/-- The instant so many months before another one is never behind it. It has the time of day and,
    but for the length of its month, the day of the other one, in the month that comes so many
    months before; if there is no such month, it is the first instant. More months lead further
    back, and from a later date they lead to a later date, or to the same one. -/
theorem monthsEarlier_calendar_aware (now : Instant) (months : Nat) :
    now.monthsEarlier months ≤ now ∧
      (SupportedMonth (now.date.monthNumber - months) →
        now.MovedTo (now.date.monthNumber - months) (now.monthsEarlier months)) ∧
      (¬SupportedMonth (now.date.monthNumber - months) → now.monthsEarlier months = first) ∧
      (∀ more, months ≤ more → now.monthsEarlier more ≤ now.monthsEarlier months) ∧
      ∀ later : Instant, now.date ≤ later.date →
        (now.monthsEarlier months).date ≤ (later.monthsEarlier months).date := by
  refine ⟨now.monthsEarlier_le months, fun hmonth => ?_, fun hmonth => ?_,
    fun _ => monthsEarlier_antitone, fun _ => date_monthsEarlier_mono⟩
  · rcases now.monthsEarlier_cases months with ⟨-, hmoved⟩ | ⟨hout, -⟩
    · exact hmoved
    · exact absurd hmonth hout
  · rcases now.monthsEarlier_cases months with ⟨hin, -⟩ | ⟨-, hfirst⟩
    · exact absurd hin hmonth
    · exact hfirst

/-- The instant at which a leap day begins. -/
def leapDay : Instant :=
  { first with day := (Date.mk 2024 2 29).toDay, day_ge := by decide, day_le := by decide }

theorem date_leapDay : leapDay.date = ⟨2024, 2, 29⟩ := Date.ofDay_toDay (by decide)

/-- A year before a leap day is the last day of a February; the largest number of months that 32
    bits hold leads out of time. -/
theorem leapDay_year_earlier :
    SupportedMonth (leapDay.date.monthNumber - (12 : Nat)) ∧
      (leapDay.monthsEarlier 12).date = ⟨2023, 2, 28⟩ ∧
      ¬SupportedMonth (leapDay.date.monthNumber - (4294967295 : Nat)) ∧
      leapDay.monthsEarlier 4294967295 = first ∧
      leapDay.monthsEarlier 13 ≤ leapDay.monthsEarlier 12 ∧
      leapDay.date ≤ last.date ∧
      (leapDay.monthsEarlier 12).date ≤ (last.monthsEarlier 12).date := by
  have hin : SupportedMonth (leapDay.date.monthNumber - (12 : Nat)) := by
    rw [date_leapDay]
    decide
  have hout : ¬SupportedMonth (leapDay.date.monthNumber - (4294967295 : Nat)) := by
    rw [date_leapDay]
    decide
  have hlast : leapDay.date ≤ last.date := date_le_iff.mpr (by decide)
  obtain ⟨-, hmoved, -, hantitone, hmono⟩ := monthsEarlier_calendar_aware leapDay 12
  obtain ⟨-, -, hfirst, -⟩ := monthsEarlier_calendar_aware leapDay 4294967295
  refine ⟨hin, ?_, hout, hfirst hout, hantitone 13 (by decide), hlast, hmono last hlast⟩
  -- The month reached is a February of 28 days.
  have hmonth := (hmoved hin).month
  have hday := (hmoved hin).day
  rw [date_leapDay] at hmonth hday
  obtain ⟨hyear, hplace⟩ := Date.month_eq_of_monthNumber (valid_date _)
    (show (Date.mk 2023 2 28).Valid by decide) hmonth
  rw [hyear, hplace] at hday
  generalize (leapDay.monthsEarlier 12).date = d at hyear hplace hday
  obtain ⟨year, month, day⟩ := d
  obtain ⟨rfl, rfl, rfl⟩ : year = 2023 ∧ month = 2 ∧ day = 28 := ⟨hyear, hplace, hday⟩
  rfl

end Instant

end Almanac
