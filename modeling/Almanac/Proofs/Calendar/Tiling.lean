/-
  Almanac.Proofs.Calendar.Tiling

  How the windows of a calendar cut up time. The window of a day holds the instants of its date
  (`Window.contains_day_iff`), so an event is listed under its own date only. The window of a month
  ends in the next month (`Window.exists_month?`); from a day that every month has, the windows of
  so many months, each from the end of the one before (`Window.months`), adjoin
  (`Window.Adjoin`), and windows that adjoin hold an instant once
  (`Window.Adjoin.countP_contains`).
-/
import Almanac.Proofs.Storage.Keyed
import Almanac.Proofs.Time.Window

namespace Almanac

theorem le_monthLength (year : Int) (month : Nat) : 28 ≤ monthLength year month := by
  unfold monthLength
  split
  · split <;> omega
  · split <;> omega

namespace Window

variable {r t u : Instant}

theorem contains_iff {w : Window} : w.contains t = true ↔ w.start ≤ t ∧ t < w.finish := by
  rw [contains, decide_eq_true_eq]

/-! ## Days -/

/-- A day ends with the midnight of the next one, if there is a next one. -/
theorem add?_dayStart (r : Instant) :
    r.dayStart.add? (Span.ofDays 1) = Instant.of? (r.day + 1) 0 0 := by
  have hseconds : (Span.ofDays 1).seconds = 86400 := by decide
  have hrest : (Span.ofDays 1).subsecond = 0 := by decide
  simp [Instant.add?, Instant.dayStart, hseconds, hrest]

/-- The window of a day begins at its midnight and holds the rest of the day and nothing else; that
    of the last day ends where time is cut. -/
theorem exists_day? (r : Instant) :
    ∃ w, day? r = some w ∧ w.start = r.dayStart ∧ w.start ≤ w.finish ∧
      (r.day < maxDay → w.finish.rank = (r.day + 1) * 86400 * 2000000000) ∧
      (r.day = maxDay → w.finish = Instant.last) := by
  have hfirst := r.day_ge
  rcases Int.lt_or_eq_of_le r.day_le with hlt | hmax
  · have hnext : ∃ u, Instant.of? (r.day + 1) 0 0 = some u := by
      rw [Instant.of?, dif_pos ⟨by decide, by decide, by simp, by omega, by omega⟩]
      exact ⟨_, rfl⟩
    obtain ⟨u, hu⟩ := hnext
    obtain ⟨hday, hsecond, hfrac⟩ := Instant.of?_eq_some hu
    have hrank : u.rank = (r.day + 1) * 86400 * 2000000000 := by
      rw [Instant.rank, hday, hsecond, hfrac]
      omega
    have hle : r.dayStart ≤ u :=
      Instant.le_of_add? (by decide) ((add?_dayStart r).trans hu)
    refine ⟨⟨r.dayStart, u⟩, ?_, rfl, hle, fun _ => hrank, fun hmax => by omega⟩
    rw [day?, ofSpan?, add?_dayStart, hu]
    exact between?_of_le hle
  · refine ⟨⟨r.dayStart, Instant.last⟩, ?_, rfl, r.dayStart_le_last, fun hlt => by omega,
      fun _ => rfl⟩
    rw [day?, ofSpan?, Instant.add?_eq_none (t := r.dayStart) hmax (by decide)]
    exact between?_of_le r.dayStart_le_last

/-- The window of a day holds the instants of its date, leap seconds and all, and nothing else of
    what comes before the last day. -/
theorem contains_day_iff (r : Instant) (ht : t.day < maxDay) :
    ∃ w, day? r = some w ∧ (w.contains t = true ↔ r.date = t.date) := by
  obtain ⟨w, hw, hstart, -, hfinish, hlast⟩ := exists_day? r
  refine ⟨w, hw, ?_⟩
  have hsecond := t.second_lt
  have hfrac := t.frac_lt
  have hmidnight : r.dayStart.rank = r.day * 86400 * 2000000000 := by
    simp only [Instant.rank, Instant.dayStart]
    omega
  have hrank : t.rank = (t.day * 86400 + t.second) * 2000000000 + t.frac := rfl
  rw [contains_iff, hstart, Instant.date_eq_iff, Instant.le_iff_rank, Instant.lt_iff_rank,
    hmidnight]
  rcases Int.lt_or_eq_of_le r.day_le with hlt | hmax
  · rw [hfinish hlt]
    omega
  · -- The window of the last day begins behind all other days.
    omega

/-! ## Adjoining windows -/

/-- Windows of which each begins where the one before ends, from an instant up to another. -/
def Adjoin : Instant → List Window → Instant → Prop
  | t, [], u => t = u
  | t, w :: ws, u => w.start = t ∧ w.start ≤ w.finish ∧ Adjoin w.finish ws u

theorem Adjoin.le {ws : List Window} (h : Adjoin t ws u) : t ≤ u := by
  induction ws generalizing t with
  | nil => exact Instant.le_of_eq h
  | cons w ws ih =>
      obtain ⟨rfl, hle, hrest⟩ := h
      exact Instant.le_trans hle (ih hrest)

/-- Each instant between the ends is in one of the windows, and all others are in none. -/
theorem Adjoin.countP_contains {ws : List Window} (h : Adjoin t ws u) (x : Instant) :
    ws.countP (·.contains x) = if t ≤ x ∧ x < u then 1 else 0 := by
  induction ws generalizing t with
  | nil =>
      obtain rfl : t = u := h
      rw [List.countP_nil, if_neg]
      exact fun ⟨hle, hlt⟩ => Instant.lt_irrefl x (Instant.lt_of_lt_of_le hlt hle)
  | cons w ws ih =>
      obtain ⟨rfl, hle, hrest⟩ := h
      have hend := hrest.le
      -- An instant is in the first window, or not in front of the second one.
      rw [List.countP_cons, ih hrest]
      simp only [contains_iff, Instant.le_iff_rank, Instant.lt_iff_rank] at hle hend ⊢
      split <;> split <;> split <;> omega

/-! ## Months -/

/-- An instant up to the last month but one has the window of a month, which ends in the next
    month. -/
theorem exists_month? (h : SupportedMonth (r.date.monthNumber + 1)) :
    ∃ w, month? r = some w ∧ w.start = r ∧ w.start ≤ w.finish ∧
      r.MovedTo (r.date.monthNumber + 1) w.finish := by
  obtain ⟨u, hu, hmoved⟩ := Instant.exists_addMonths? h
  have hle : r ≤ u := Instant.le_of_addMonths? hu
  refine ⟨⟨r, u⟩, ?_, rfl, hle, hmoved⟩
  rw [month?, hu]
  exact between?_of_le hle

/-- The windows of so many months, the first one from an instant on and each of the others from the
    end of the one before. -/
def months : Nat → Instant → Option (List Window)
  | 0, _ => some []
  | count + 1, t =>
    (month? t).bind fun w => (months count w.finish).map (w :: ·)

/-- From a day that every month has, the windows of months adjoin, and each ends on that day. -/
theorem exists_months (count : Nat) (hday : r.date.day ≤ 28)
    (h : SupportedMonth (r.date.monthNumber + count)) :
    ∃ ws u, months count r = some ws ∧ ws.length = count ∧ Adjoin r ws u ∧
      ∀ (i : Nat) (w : Window), ws[i]? = some w →
        r.MovedTo (r.date.monthNumber + (i + 1)) w.finish ∧
          w.finish.date.day = r.date.day := by
  induction count generalizing r with
  | zero => exact ⟨[], r, rfl, rfl, rfl, fun i w hw => by simp at hw⟩
  | succ count ih =>
      have hnext : SupportedMonth (r.date.monthNumber + 1) :=
        r.supportedMonth_date.between h (by omega) (by omega)
      obtain ⟨w, hw, hstart, hle, hmoved⟩ := exists_month? hnext
      have hlength := le_monthLength w.finish.date.year w.finish.date.month
      have hkept : w.finish.date.day = r.date.day := by rw [hmoved.day]; omega
      -- The months after the first one begin with its end.
      have hrest : SupportedMonth (w.finish.date.monthNumber + count) := by
        have hsum : r.date.monthNumber + 1 + (count : Int) =
            r.date.monthNumber + (count + 1 : Nat) := by omega
        rwa [hmoved.month, hsum]
      obtain ⟨ws, u, hws, hcount, hadjoin, hends⟩ := ih (hkept ▸ hday) hrest
      refine ⟨w :: ws, u, ?_, by rw [List.length_cons, hcount], ⟨hstart, hle, hadjoin⟩, ?_⟩
      · rw [months, hw, Option.bind_some, hws, Option.map_some]
      · intro i v hv
        cases i with
        | zero =>
            obtain rfl : w = v := by simpa using hv
            exact ⟨by simpa using hmoved, hkept⟩
        | succ i =>
            obtain ⟨hend, hendDay⟩ := hends i v (by simpa using hv)
            have hmonth : w.finish.date.monthNumber + ((i : Int) + 1) =
                r.date.monthNumber + ((i + 1 : Nat) + 1) := by
              rw [hmoved.month]
              omega
            refine ⟨⟨hend.month.trans hmonth, by rw [hend.day, hkept],
              hend.second.trans hmoved.second, hend.frac.trans hmoved.frac⟩, hendDay.trans hkept⟩

end Window

/-! ## Listings by day -/

/-- An event is listed under its own date. -/
theorem Storage.eventsOfDay_memory (m : MemoryState) (r : Instant) {id : String} {e : Event}
    (he : m.store.events.get? id = some e) (hday : e.beginning.day < maxDay) :
    ∃ events, (memory.eventsOfDay r).perform m = (.ok (.ok events), m) ∧
      (e ∈ events ↔ r.date = e.beginning.date) := by
  obtain ⟨w, hw, hiff⟩ := Window.contains_day_iff r hday
  have hstored : e ∈ m.store.events.values :=
    List.mem_map.mpr ⟨(id, e), Table.mem_of_get? he, rfl⟩
  refine ⟨m.store.eventsIn w, ?_, ?_⟩
  · rw [eventsOfDay, hw]
    rfl
  · rw [Store.eventsIn, Store.mem_listWhere, and_iff_right hstored, hiff]

/-- Windows cut up time. The window of a day holds an instant of the time before the last day
    exactly if it is of that date, so a stored event is listed on the day of its own date and on no
    other. The window of a month ends in the next month, at the same time of day and on the same
    day or the last day of that month. From a day that every month has, the windows of any number of
    supported months adjoin, so that every instant from their beginning to their end is in exactly
    one of them, and each of them ends on that day and at that time of day. -/
theorem windows_tile_time :
    (∀ r t : Instant, t.day < maxDay →
      ∃ w, Window.day? r = some w ∧ (w.contains t = true ↔ r.date = t.date)) ∧
    (∀ (m : Storage.MemoryState) (r : Instant) (id : String) (e : Event),
      m.store.events.get? id = some e → e.beginning.day < maxDay →
        ∃ events, (Storage.memory.eventsOfDay r).perform m = (.ok (.ok events), m) ∧
          (e ∈ events ↔ r.date = e.beginning.date)) ∧
    (∀ r : Instant, SupportedMonth (r.date.monthNumber + 1) →
      ∃ w, Window.month? r = some w ∧ w.start = r ∧
        r.MovedTo (r.date.monthNumber + 1) w.finish) ∧
    ∀ (r : Instant) (count : Nat), r.date.day ≤ 28 →
      SupportedMonth (r.date.monthNumber + count) →
        ∃ ws u, Window.months count r = some ws ∧ ws.length = count ∧ Window.Adjoin r ws u ∧
          (∀ x, r ≤ x → x < u → ws.countP (·.contains x) = 1) ∧
          ∀ (i : Nat) (w : Window), ws[i]? = some w →
            r.MovedTo (r.date.monthNumber + (i + 1)) w.finish ∧
              w.finish.date.day = r.date.day := by
  refine ⟨fun r t ht => Window.contains_day_iff r ht,
    fun m r id e he hday => Storage.eventsOfDay_memory m r he hday, fun r hr => ?_,
    fun r count hday hr => ?_⟩
  · obtain ⟨w, hw, hstart, -, hmoved⟩ := Window.exists_month? hr
    exact ⟨w, hw, hstart, hmoved⟩
  · obtain ⟨ws, u, hws, hlength, hadjoin, hends⟩ := Window.exists_months count hday hr
    refine ⟨ws, u, hws, hlength, hadjoin, fun x hle hlt => ?_, hends⟩
    rw [hadjoin.countP_contains x, if_pos ⟨hle, hlt⟩]

/-- Noon of the 28th of December before a leap year. -/
def lateDecember : Instant :=
  { Instant.first with
    day := (Date.mk 2023 12 28).toDay
    second := 43200
    second_lt := by decide
    leap_ends_minute := by decide
    day_ge := by decide
    day_le := by decide }

/-- The leap second at the end of that day, as some clocks have it. -/
def lateDecemberLeapSecond : Instant :=
  { Instant.last with
    day := lateDecember.day
    frac := 1500000000
    frac_lt := by decide
    leap_ends_minute := by decide
    day_ge := lateDecember.day_ge
    day_le := lateDecember.day_le }

/-- A leap second is in the window of its day, and three months from the end of December go through
    the February of a leap year. -/
theorem lateDecember_tiled :
    (lateDecemberLeapSecond.day < maxDay ∧ ∃ w, Window.day? lateDecember = some w ∧
      w.contains lateDecemberLeapSecond = true) ∧
    lateDecember.date.day ≤ 28 ∧ SupportedMonth (lateDecember.date.monthNumber + (3 : Nat)) ∧
      ∃ ws u, Window.months 3 lateDecember = some ws ∧ ws.length = 3 ∧
        Window.Adjoin lateDecember ws u ∧
          ∀ x, lateDecember ≤ x → x < u → ws.countP (·.contains x) = 1 := by
  have hdate : lateDecember.date = ⟨2023, 12, 28⟩ := Date.ofDay_toDay (by decide)
  have hday : lateDecember.date.day ≤ 28 := Nat.le_of_eq (congrArg Date.day hdate)
  have hmonths : SupportedMonth (lateDecember.date.monthNumber + (3 : Nat)) := by
    rw [hdate]
    decide
  have hin : lateDecemberLeapSecond.day < maxDay := by decide
  obtain ⟨hdays, -, -, htile⟩ := windows_tile_time
  obtain ⟨w, hw, hiff⟩ := hdays lateDecember lateDecemberLeapSecond hin
  obtain ⟨ws, u, hws, hlength, hadjoin, honce, -⟩ := htile lateDecember 3 hday hmonths
  exact ⟨⟨hin, w, hw, hiff.mpr rfl⟩, hday, hmonths, ws, u, hws, hlength, hadjoin, honce⟩

end Almanac
