/-
  Almanac.Proofs.Time.Window

  Which windows there are. Moving an instant by a span that is not negative, or by a month, never
  leads back (`le_of_add?`, `le_of_addMonths?`), so a window can only fail to exist where its end is
  cut. It is cut at `Instant.last`, which is not the last instant: the leap second behind it has
  instants of its own. The windows of a week and a month exist for all instants up to
  `Instant.last` (`week?_of_le`, `month?_of_le`) and for none behind it (`week?_eq_none`,
  `month?_eq_none`); the window of a day begins at midnight, which is never behind it (`day?_eq`).
-/
import Almanac.Proofs.Time.Months
import Almanac.Time.Window

namespace Almanac

namespace Instant

variable {t u : Instant}

/-! ## Moving forward -/

/-- An instant does not lie behind the one that a span leads to. -/
theorem le_of_add? {s : Span} (hs : 0 ≤ s) (h : t.add? s = some u) : t ≤ u := by
  have hfrac := t.frac_lt
  have hsecs : 0 ≤ s.seconds := Int.tdiv_nonneg hs (by decide)
  have hnanos : 0 ≤ s.subsecond := Int.tmod_nonneg _ hs
  have hnanos' : s.subsecond < 1000000000 := Int.tmod_lt_of_pos _ (by decide)
  rw [le_iff_rank]
  unfold add? at h
  dsimp only at h
  generalize s.seconds = secs at h hsecs
  generalize s.subsecond = nanos at h hnanos hnanos'
  split at h
  · -- The sum stays in the leap second.
    obtain ⟨hday, hsecond, hfrac'⟩ := of?_eq_some h
    simp only [rank, hday, hsecond, hfrac']
    omega
  · next hleaves =>
    obtain ⟨hday, hsecond, hfrac'⟩ := of?_eq_some h
    simp only [rank, hday, hsecond, hfrac']
    by_cases hleap : 1000000000 ≤ t.frac
    · simp only [hleap, if_true, true_and] at hleaves ⊢
      omega
    · simp only [hleap, if_false, false_and] at hleaves ⊢
      omega

/-- The next month begins behind an instant. -/
theorem day_lt_of_addMonths? (h : t.addMonths? 1 = some u) : t.day < u.day := by
  obtain ⟨hday, -, -⟩ := of?_eq_some h
  rw [hday]
  have hnext := Date.toDay_lt_addMonths t.valid_date Int.one_pos
  rwa [date, toDay_ofDay] at hnext

theorem le_of_addMonths? (h : t.addMonths? 1 = some u) : t ≤ u :=
  t.movedTo_self.le (movedTo_of_addMonths? h) (by omega)

/-! ## The end of time -/

/-- What lies behind `last` is the leap second of its day. -/
theorem last_lt_iff : last < t ↔ t.day = maxDay ∧ t.second = 86399 ∧ 1000000000 ≤ t.frac := by
  have hday := t.day_le
  have hsecond := t.second_lt
  have hfrac := t.frac_lt
  simp only [lt_iff_rank, rank, last]
  unfold maxDay at hday ⊢
  omega

theorem dayStart_le_last (t : Instant) : t.dayStart ≤ last := by
  rw [← not_lt, last_lt_iff]
  rintro ⟨-, hsecond, -⟩
  simp [dayStart] at hsecond

/-- Days cannot be added to the last day. -/
theorem add?_eq_none (hday : t.day = maxDay) {days : Int} (hdays : 1 ≤ days) :
    t.add? (Span.ofDays days) = none := by
  cases h : t.add? (Span.ofDays days) with
  | none => rfl
  | some u =>
      have hseconds : (Span.ofDays days).seconds = days * 86400 :=
        Int.mul_tdiv_cancel _ (by decide)
      have hrest : (Span.ofDays days).subsecond = 0 := Int.mul_tmod_left _ _
      have hmax := u.day_le
      unfold add? at h
      dsimp only at h
      rw [hseconds, hrest] at h
      split at h
      · next hleap => omega
      · obtain ⟨hday', -, -⟩ := of?_eq_some h
        split at hday' <;> omega

theorem addMonths?_eq_none (hday : t.day = maxDay) : t.addMonths? 1 = none := by
  cases h : t.addMonths? 1 with
  | none => rfl
  | some u =>
      have hnext := day_lt_of_addMonths? h
      have hmax := u.day_le
      omega

end Instant

/-! ## Windows -/

namespace Window

variable {t u : Instant}

/-- The window between two instants begins and ends with them. -/
theorem between?_of_le (h : t ≤ u) : between? t u = some ⟨t, u⟩ := if_pos h

theorem between?_of_lt (h : u < t) : between? t u = none := by
  apply if_neg
  intro hle
  exact Instant.lt_irrefl _ (Instant.lt_of_le_of_lt hle h)

/-- A window whose end is found, or cut, but not in front of its start. -/
theorem between?_getD {finish : Option Instant} (hfinish : ∀ u, finish = some u → t ≤ u)
    (h : t ≤ Instant.last) :
    ∃ w, between? t (finish.getD Instant.last) = some w ∧ w.start = t ∧ w.start ≤ w.finish := by
  have hle : t ≤ finish.getD Instant.last := by
    cases finish with
    | none => exact h
    | some u => exact hfinish u rfl
  exact ⟨_, between?_of_le hle, rfl, hle⟩

/-- Every day has a window. -/
theorem day?_eq (t : Instant) :
    ∃ w, day? t = some w ∧ w.start = t.dayStart ∧ w.start ≤ w.finish := by
  have hspan : 0 ≤ Span.ofDays 1 := by decide
  exact between?_getD (fun _ => Instant.le_of_add? hspan) t.dayStart_le_last

theorem week?_of_le (h : t ≤ Instant.last) :
    ∃ w, week? t = some w ∧ w.start = t ∧ w.start ≤ w.finish := by
  have hspan : 0 ≤ Span.ofDays 7 := by decide
  exact between?_getD (fun _ => Instant.le_of_add? hspan) h

theorem month?_of_le (h : t ≤ Instant.last) :
    ∃ w, month? t = some w ∧ w.start = t ∧ w.start ≤ w.finish :=
  between?_getD (fun _ => Instant.le_of_addMonths?) h

/-- The end is cut in front of the start. -/
theorem week?_eq_none (h : Instant.last < t) : week? t = none := by
  obtain ⟨hday, -, -⟩ := Instant.last_lt_iff.mp h
  rw [week?, ofSpan?, Instant.add?_eq_none hday (by decide), Option.getD_none, between?_of_lt h]

theorem month?_eq_none (h : Instant.last < t) : month? t = none := by
  obtain ⟨hday, -, -⟩ := Instant.last_lt_iff.mp h
  rw [month?, Instant.addMonths?_eq_none hday, Option.getD_none, between?_of_lt h]

/-- When windows that begin with an instant exist up to `Instant.last` and not behind it. -/
theorem exists_iff_of_le {window? : Option Window}
    (hsome : t ≤ Instant.last → ∃ w, window? = some w ∧ w.start = t ∧ w.start ≤ w.finish)
    (hnone : Instant.last < t → window? = none) : (∃ w, window? = some w) ↔ t ≤ Instant.last := by
  constructor
  · rintro ⟨w, hw⟩
    rw [← Instant.not_lt]
    intro hlast
    simp [hnone hlast] at hw
  · intro h
    obtain ⟨w, hw, -⟩ := hsome h
    exact ⟨w, hw⟩

end Window

end Almanac
