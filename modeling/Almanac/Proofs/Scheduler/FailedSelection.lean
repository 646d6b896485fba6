/-
  Almanac.Proofs.Scheduler.FailedSelection

  What becomes of the seconds of a selection that failed. With a watermark the next window
  begins where the failed one did, so it makes up for it. Without one, each tick takes its
  lower bound from its own clock, and the later bound may lie behind seconds that the
  earlier window held: the next window makes up for the failed one exactly when its own
  first bound reaches back as far.
-/
import Almanac.Proofs.Scheduler.ExactlyOnce

namespace Almanac.Scheduler

variable {σ : Type}

/-- A tick about to select begins its window at the watermark, or at its first bound. -/
theorem Process.Orderly.after_eq {s : Scheduler σ} {p : Process σ} (hp : p.Orderly s) {t : Tick}
    (hcurrent : p.current = some (t, .selectingDue)) :
    t.after = p.watermark.getD (s.settings.firstBound t.now) := by
  have hrunning := hp t _ hcurrent
  rw [hrunning.lower, watermark, hcurrent]
  simp only [hrunning.fresh rfl, Option.none_or]

/-- A window that ends no earlier holds all seconds of another one exactly when it begins in no
    later second. -/
theorem seconds_subset_iff {a n b m : Instant} (hwindow : a < n) (hwhole : n.floorSecond = n)
    (hclock : n ≤ m) :
    (∀ i : Instant, a < i.floorSecond → i.floorSecond ≤ n →
        b < i.floorSecond ∧ i.floorSecond ≤ m) ↔
      b.floorSecond ≤ a.floorSecond := by
  constructor
  · intro h
    rcases Instant.lt_or_ge a.floorSecond b.floorSecond with hlt | hle
    · -- The second of `b`, or the last one of the window if that comes first, is left out.
      rcases Instant.lt_or_ge n b.floorSecond with hlate | hin
      · have hlast := (h n (hwhole.symm ▸ hwindow) (Instant.le_of_eq hwhole)).1
        rw [hwhole] at hlast
        have hb := Instant.lt_of_lt_of_le hlate (Instant.floorSecond_le b)
        exact (Instant.lt_irrefl b (Instant.lt_of_lt_of_le hlast (Instant.le_of_lt hb))).elim
      · have hb := (h b (Instant.floorSecond_lt_iff.mp hlt) hin).1
        exact (Instant.lt_irrefl b (Instant.lt_of_lt_of_le hb (Instant.floorSecond_le b))).elim
    · exact hle
  · intro hle i hafter hin
    rw [← Instant.floorSecond_lt_iff] at hafter ⊢
    exact ⟨Instant.lt_of_le_of_lt hle hafter, Instant.le_trans hin hclock⟩

/-- A selection was due at `t.now`, and at `u.now`, no earlier, another one is, with none in
    between that succeeded. The later window makes up for the seconds of the earlier one exactly
    when there was a watermark or its own first bound lies in no later second. Then the later
    selection finds every event that is still stored with one of these seconds, and once it has
    succeeded the event is attempted, and attempted once. -/
theorem makes_up_iff {s : Scheduler σ} {good : σ → Prop} {stored : σ → Event → Prop}
    (hs : s.Reliable good stored) {world : σ} (hgood : good world) (tally : Tally)
    {p q : Process σ} {t u : Tick} (hstart : Process.Run s good { world, tally } p)
    (ht : p.current = some (t, .selectingDue)) (hwindow : t.after < t.now)
    (hrun : Process.Run s good p q) (hnone : q.selections = p.selections)
    (hu : q.current = some (u, .selectingDue)) (hclock : t.now ≤ u.now) :
    ((∀ i : Instant, t.after < i.floorSecond → i.floorSecond ≤ t.now →
        u.after < i.floorSecond ∧ i.floorSecond ≤ u.now) ↔
      p.tally.coveredUntil.isSome = true ∨
        (s.settings.firstBound u.now).floorSecond ≤ (s.settings.firstBound t.now).floorSecond) ∧
    (p.tally.coveredUntil.isSome = true ∨
        (s.settings.firstBound u.now).floorSecond ≤ (s.settings.firstBound t.now).floorSecond →
      ∀ e, stored q.world e → t.after < e.notification.floorSecond →
        e.notification.floorSecond ≤ t.now →
        (∀ due world', (s.calendar.eventsDueBetween u.after u.now).perform q.world =
            (.ok (.ok due), world') → e ∈ due) ∧
          ∀ q' r, Process.Step s good q q' → q'.selections ≠ q.selections →
            Process.Run s good q' r →
            (r.attempts ++ r.pending).filter (fun n => slot n = slot e.announcement) =
              [e.announcement]) := by
  have hsound := (Process.Sound.start hgood tally).run hs hstart
  have hp := hsound.orderly
  have hq := hp.run hrun
  have hrunning := hp t _ ht
  have hcovered : p.watermark = p.tally.coveredUntil := by
    simp [Process.watermark, ht, hrunning.fresh rfl]
  -- No selection succeeded in between, so the watermark has stayed.
  have hwatermark : q.watermark = p.tally.coveredUntil := by
    obtain ⟨new, hselections, hsame⟩ := hp.watermark_run hrun
    rw [hnone, List.self_eq_append_right] at hselections
    rw [hsame hselections, hcovered]
  have hiff : (∀ i : Instant, t.after < i.floorSecond → i.floorSecond ≤ t.now →
        u.after < i.floorSecond ∧ i.floorSecond ≤ u.now) ↔
      p.tally.coveredUntil.isSome = true ∨
        (s.settings.firstBound u.now).floorSecond ≤
          (s.settings.firstBound t.now).floorSecond := by
    rw [seconds_subset_iff hwindow hrunning.whole hclock, hq.after_eq hu, hp.after_eq ht,
      hwatermark, hcovered]
    -- With a watermark both windows begin there.
    cases p.tally.coveredUntil with
    | some w => simp [Instant.le_refl]
    | none => simp
  refine ⟨hiff, fun hcase e hstored hafter hin => ?_⟩
  have hcovers := hiff.mpr hcase e.notification hafter hin
  have hqsound := hsound.run hs hrun
  refine ⟨fun due world' hanswer => ?_, fun q' r hstep hnew hrest => ?_⟩
  · refine (hs.matching _ _ _ _ _ hqsound.good hanswer e).mpr ⟨hstored, ?_⟩
    rw [Instant.floorSecond_lt_iff, Instant.le_floorSecond_iff]
    exact hcovers
  · -- The selection enters the books and stays there.
    obtain ⟨due, hselections⟩ := hq.selections_step hu hstep hnew
    have hq'sound := hqsound.step hs hstep
    obtain ⟨later, hselections', -⟩ := hq'sound.orderly.watermark_run hrest
    have hmem : (⟨u.after, u.now, q.world, due⟩ : Selection σ) ∈ r.selections := by
      rw [hselections', hselections, List.append_assoc]
      exact List.mem_append_right _ (List.mem_append_left _ (List.mem_singleton.mpr rfl))
    exact (hq'sound.run hs hrest).attempted_once hmem hstored hcovers

end Almanac.Scheduler
