/-
  Almanac.Proofs.Storage.DueWindows

  The events that are due in a window of time, for any content of the storage in memory. A window
  runs from the second after that of its lower bound up to that of its upper bound
  (`Store.mem_eventsDueBetween`), so all that counts of a bound is its second. Where one window ends
  and the next one begins, each event goes to one of the two: whether its second has come by the
  bound between them is a condition of its own, and a listing splits by any condition
  (`Store.listWhere_perm_split`).
-/
import Almanac.Proofs.Storage.Keyed
import Almanac.Proofs.Time.Order
import Mathlib.Data.List.Basic

namespace Almanac

namespace Store

variable {a b c : Instant}

/-! ## Splitting a listing -/

/-- The events of a listing are those that satisfy one more condition, and those that do not. -/
theorem listWhere_perm_split (s : Store) (p late : Event → Bool) :
    (s.listWhere p).Perm
      (s.listWhere (fun e => p e && !late e) ++ s.listWhere fun e => p e && late e) := by
  have hunsorted : ∀ q, (s.listWhere q).Perm (s.events.values.filter q) :=
    fun q => List.mergeSort_perm _ _
  have hsplit : ((s.events.values.filter p).filter late ++
      (s.events.values.filter p).filter fun e => !late e).Perm (s.events.values.filter p) :=
    List.filter_append_perm _ _
  rw [List.filter_filter, List.filter_filter] at hsplit
  simp only [Bool.and_comm (late _), Bool.and_comm (!late _)] at hsplit
  exact (hunsorted p).trans <| hsplit.symm.trans <| List.perm_append_comm.trans <|
    ((hunsorted _).append (hunsorted _)).symm

/-! ## Windows of seconds -/

theorem mem_eventsDueBetween {s : Store} {e : Event} :
    e ∈ s.eventsDueBetween a c ↔ e ∈ s.events.values ∧
      a.floorSecond < e.notification.floorSecond ∧
        e.notification.floorSecond ≤ c.floorSecond := by
  rw [eventsDueBetween, mem_listWhere, Bool.and_eq_true, decide_eq_true_eq, decide_eq_true_eq]

/-- Only the seconds of the bounds count. -/
theorem eventsDueBetween_congr (s : Store) {a' c' : Instant}
    (ha : a'.floorSecond = a.floorSecond) (hc : c'.floorSecond = c.floorSecond) :
    s.eventsDueBetween a' c' = s.eventsDueBetween a c := by
  simp only [eventsDueBetween, ha, hc]

/-- Nothing is due in a window that does not get beyond the second of its lower bound. -/
theorem eventsDueBetween_eq_nil (s : Store) (h : c.floorSecond ≤ a.floorSecond) :
    s.eventsDueBetween a c = [] := by
  rw [List.eq_nil_iff_forall_not_mem]
  intro e he
  obtain ⟨-, hafter, hin⟩ := mem_eventsDueBetween.mp he
  exact Instant.lt_irrefl _ (Instant.lt_of_lt_of_le hafter (Instant.le_trans hin h))

/-- A window is put together from the parts in front of a bound and behind it. -/
theorem eventsDueBetween_perm_append (s : Store) (hab : a ≤ b) (hbc : b ≤ c) :
    (s.eventsDueBetween a c).Perm (s.eventsDueBetween a b ++ s.eventsDueBetween b c) := by
  have hab' := Instant.floorSecond_mono hab
  have hbc' := Instant.floorSecond_mono hbc
  rw [Instant.le_iff_rank] at hab' hbc'
  -- What is due in the second part comes late: its second comes after that of the bound.
  have hsplit := s.listWhere_perm_split
    (fun e => decide (a.floorSecond < e.notification.floorSecond) &&
      decide (e.notification.floorSecond ≤ c.floorSecond))
    (fun e => decide (b.floorSecond < e.notification.floorSecond))
  have hearly : s.eventsDueBetween a b = s.listWhere fun e =>
      (decide (a.floorSecond < e.notification.floorSecond) &&
        decide (e.notification.floorSecond ≤ c.floorSecond)) &&
      !decide (b.floorSecond < e.notification.floorSecond) := by
    refine congrArg s.listWhere (funext fun e => ?_)
    rw [Bool.eq_iff_iff]
    simp only [Bool.and_eq_true, Bool.not_eq_true', decide_eq_true_eq, decide_eq_false_iff_not,
      Instant.lt_iff_rank, Instant.le_iff_rank]
    omega
  have hlate : s.eventsDueBetween b c = s.listWhere fun e =>
      (decide (a.floorSecond < e.notification.floorSecond) &&
        decide (e.notification.floorSecond ≤ c.floorSecond)) &&
      decide (b.floorSecond < e.notification.floorSecond) := by
    refine congrArg s.listWhere (funext fun e => ?_)
    rw [Bool.eq_iff_iff]
    simp only [Bool.and_eq_true, decide_eq_true_eq, Instant.lt_iff_rank, Instant.le_iff_rank]
    omega
  rw [hearly, hlate]
  exact hsplit

/-- An event that is due by a bound is not due after it. -/
theorem eventsDueBetween_disjoint (s : Store) :
    (s.eventsDueBetween a b).Disjoint (s.eventsDueBetween b c) := by
  intro e hearly hlate
  have hin := (mem_eventsDueBetween.mp hearly).2.2
  have hafter := (mem_eventsDueBetween.mp hlate).2.1
  exact Instant.lt_irrefl _ (Instant.lt_of_lt_of_le hafter hin)

end Store

namespace Storage

/-- The windows in which notifications are due are additive, for any content of the storage. Asked
    for a window, it answers the stored events whose notification second comes after that of the
    lower bound and not after that of the upper one. The answer for a window is put together from
    those for its two parts, which have no event in common. Rounding a bound down to its second does
    not change an answer, and a window that does not get beyond the second of its lower bound has
    none. This rests on rounding down: it takes away the part of a second, which never leads out of
    time, rounding down twice is rounding down once, and it keeps the order. -/
theorem due_windows_additive (m : MemoryState) :
    (∀ a c : Instant, ∃ events, (memory.eventsDueBetween a c).perform m = (.ok (.ok events), m) ∧
      ∀ e, e ∈ events ↔ e ∈ m.store.events.values ∧
        a.floorSecond < e.notification.floorSecond ∧
          e.notification.floorSecond ≤ c.floorSecond) ∧
    (∀ a b c : Instant, a ≤ b → b ≤ c → ∃ whole early late,
      (memory.eventsDueBetween a c).perform m = (.ok (.ok whole), m) ∧
      (memory.eventsDueBetween a b).perform m = (.ok (.ok early), m) ∧
      (memory.eventsDueBetween b c).perform m = (.ok (.ok late), m) ∧
      (∀ e, e ∈ whole ↔ e ∈ early ∨ e ∈ late) ∧ early.Disjoint late ∧
      whole.Perm (early ++ late)) ∧
    (∀ a c : Instant,
      (memory.eventsDueBetween a.floorSecond c).perform m =
        (memory.eventsDueBetween a c).perform m ∧
      (memory.eventsDueBetween a c.floorSecond).perform m =
        (memory.eventsDueBetween a c).perform m) ∧
    (∀ a c : Instant, c.floorSecond ≤ a.floorSecond →
      (memory.eventsDueBetween a c).perform m = (.ok (.ok []), m)) ∧
    (∀ t : Instant, t.sub? ((t.frac % 1000000000 : Nat) : Int) = some t.floorSecond ∧
      t.floorSecond.floorSecond = t.floorSecond) ∧
    ∀ t u : Instant, t ≤ u → t.floorSecond ≤ u.floorSecond := by
  have hanswer : ∀ a c : Instant, (memory.eventsDueBetween a c).perform m =
      (.ok (.ok (m.store.eventsDueBetween a c)), m) := fun _ _ => rfl
  refine ⟨fun a c => ⟨_, hanswer a c, fun e => Store.mem_eventsDueBetween⟩, ?_, ?_, ?_,
    fun t => ⟨t.sub?_subsecond, t.floorSecond_floorSecond⟩,
    fun t u h => Instant.floorSecond_mono h⟩
  · intro a b c hab hbc
    have hperm := m.store.eventsDueBetween_perm_append hab hbc
    refine ⟨_, _, _, hanswer a c, hanswer a b, hanswer b c, fun e => ?_,
      m.store.eventsDueBetween_disjoint, hperm⟩
    rw [hperm.mem_iff, List.mem_append]
  · intro a c
    have ha := a.floorSecond_floorSecond
    have hc := c.floorSecond_floorSecond
    rw [hanswer, hanswer, hanswer, m.store.eventsDueBetween_congr ha rfl,
      m.store.eventsDueBetween_congr rfl hc]
    exact ⟨rfl, rfl⟩
  · intro a c h
    rw [hanswer, m.store.eventsDueBetween_eq_nil h]

/-! ## A window with a leap second -/

/-- A time around the end of the first minute of 1970, with a leap second in it. -/
def aroundMinute (second frac : Nat) : Instant := (Instant.of? 0 second frac).getD Instant.first

/-- An event with a notification then. -/
def alertAround (id : String) (second frac : Nat) : Event where
  id
  title := "minute"
  description := ""
  beginning := aroundMinute 60 0
  finish := aroundMinute 60 0
  notification := aroundMinute second frac
  userId := "nobody"

/-- A memory with notifications in the last second of the minute, in the leap second and in the
    first second of the next minute. -/
def minuteMemory : MemoryState where
  store :=
    { events := [("1", alertAround "1" 59 750000000), ("2", alertAround "2" 59 1500000000),
        ("3", alertAround "3" 60 250000000)] }

/-- From within the last second over the leap second into the next minute: what was due in the
    second of the lower bound is not due again, what is due in the leap second comes in the first
    part, though the bound between the parts lies in front of it in the same leap second. -/
theorem minuteMemory_additive :
    aroundMinute 59 500000000 ≤ aroundMinute 59 1250000000 ∧
    aroundMinute 59 1250000000 ≤ aroundMinute 60 750000000 ∧
    ∃ whole early late,
      (memory.eventsDueBetween (aroundMinute 59 500000000) (aroundMinute 60 750000000)).perform
        minuteMemory = (.ok (.ok whole), minuteMemory) ∧
      (memory.eventsDueBetween (aroundMinute 59 500000000) (aroundMinute 59 1250000000)).perform
        minuteMemory = (.ok (.ok early), minuteMemory) ∧
      (memory.eventsDueBetween (aroundMinute 59 1250000000) (aroundMinute 60 750000000)).perform
        minuteMemory = (.ok (.ok late), minuteMemory) ∧
      alertAround "1" 59 750000000 ∉ whole ∧ alertAround "2" 59 1500000000 ∈ early ∧
      alertAround "3" 60 250000000 ∈ late ∧ early.Disjoint late ∧ whole.Perm (early ++ late) ∧
      (memory.eventsDueBetween (aroundMinute 59 1500000000) (aroundMinute 59 1250000000)).perform
        minuteMemory = (.ok (.ok []), minuteMemory) := by
  obtain ⟨hexact, hsplit, -, hempty, -, -⟩ := due_windows_additive minuteMemory
  have hab : aroundMinute 59 500000000 ≤ aroundMinute 59 1250000000 := by decide
  have hbc : aroundMinute 59 1250000000 ≤ aroundMinute 60 750000000 := by decide
  obtain ⟨whole, early, late, hwhole, hearly, hlate, -, hdisjoint, hperm⟩ := hsplit _ _ _ hab hbc
  obtain ⟨_, hwhole', hinWhole⟩ := hexact (aroundMinute 59 500000000) (aroundMinute 60 750000000)
  obtain ⟨_, hearly', hinEarly⟩ := hexact (aroundMinute 59 500000000) (aroundMinute 59 1250000000)
  obtain ⟨_, hlate', hinLate⟩ := hexact (aroundMinute 59 1250000000) (aroundMinute 60 750000000)
  cases hwhole.symm.trans hwhole'
  cases hearly.symm.trans hearly'
  cases hlate.symm.trans hlate'
  refine ⟨hab, hbc, _, _, _, hwhole, hearly, hlate, ?_, ?_, ?_, hdisjoint, hperm,
    hempty _ _ (by decide)⟩
  · rw [hinWhole]
    decide
  · rw [hinEarly]
    decide
  · rw [hinLate]
    decide

end Storage

end Almanac
