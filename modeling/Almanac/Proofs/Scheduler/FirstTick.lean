/-
  Almanac.Proofs.Scheduler.FirstTick

  How far the first tick of a scheduler looks back. Its lower bound is found with spans that
  are cut at the longest one, and with an instant that is cut at the first one. Cutting the
  span does not move the bound: a span as long as that leads out of time from every instant
  (`Instant.sub?_eq_none`), so the bound is what one subtraction without any cut gives
  (`Settings.firstBound_eq`).

  Over whole seconds, and away from leap seconds, the subtraction is one of Unix seconds
  (`Instant.unixSeconds_of_sub?`).
-/
import Almanac.Proofs.Scheduler.Retention
import Almanac.Proofs.Time.Window

namespace Almanac

/-! ## Moving back -/

namespace Instant

variable {t u : Instant}

/-- The longest span leads out of time, and so does every longer one. -/
theorem sub?_eq_none {s : Span} (h : Span.longest ≤ s) : t.sub? s = none := by
  have hlong : (9223372036854775807000000 : Int) ≤ s := h
  have hseconds : Span.seconds (-s) ≤ -9223372036854775 := by
    rw [Span.seconds, Int.neg_tdiv, Int.tdiv_eq_ediv_of_nonneg (by omega)]
    omega
  cases hsub : t.sub? s with
  | none => rfl
  | some u =>
      have hsecond := t.second_lt
      have hfrac := t.frac_lt
      have hday := t.day_le
      have hfirst := u.day_ge
      unfold minDay at hfirst
      unfold maxDay at hday
      have hnanos : Span.subsecond (-s) < 1000000000 := Int.tmod_lt_of_pos _ (by decide)
      unfold sub? add? at hsub
      dsimp only at hsub
      generalize Span.seconds (-s) = secs at hsub hseconds
      generalize Span.subsecond (-s) = nanos at hsub hnanos
      split at hsub
      · next hstays => omega
      · obtain ⟨hday', -, -⟩ := of?_eq_some hsub
        split at hday' <;> split at hday' <;> omega

/-- Going back whole seconds from the start of one that is not a leap second. -/
theorem unixSeconds_of_sub? {q : Int} (hwhole : t.frac = 0)
    (h : t.sub? (Span.ofSeconds q) = some u) :
    u.unixSeconds = t.unixSeconds - q ∧ u.frac = 0 := by
  have hspan : -Span.ofSeconds q = -q * 1000000000 := (Int.neg_mul q 1000000000).symm
  have hseconds : Span.seconds (-Span.ofSeconds q) = -q := by
    rw [hspan, Span.seconds, Int.mul_tdiv_cancel _ (by decide)]
  have hrest : Span.subsecond (-Span.ofSeconds q) = 0 := by
    rw [hspan, Span.subsecond, Int.mul_tmod_left]
  unfold sub? add? at h
  dsimp only at h
  simp only [hseconds, hrest, hwhole] at h
  obtain ⟨hday, hsecond, hfrac⟩ := of?_eq_some h
  refine ⟨?_, hfrac⟩
  rw [unixSeconds, unixSeconds, hday, hsecond]
  omega

/-- Away from leap seconds, seconds are in the order of their Unix seconds. -/
theorem lt_iff_unixSeconds (ht : t.frac = 0) (hu : u.frac = 0) :
    t < u ↔ t.unixSeconds < u.unixSeconds := by
  rw [lt_iff_rank, rank, rank, ht, hu, unixSeconds, unixSeconds]
  omega

end Instant

namespace Scheduler

/-! ## The first bound -/

namespace Settings

variable (settings : Settings)

/-- How far the first tick looks back: the catch-up time and one second, cut at the longest
    span. -/
def lookBack : Span :=
  Span.addSaturating (min (settings.catchUp : Span) Span.longest) (Span.ofSeconds 1)

/-- The spans on the way to it are all spans that there are. -/
theorem lookBack_le_longest :
    min (settings.catchUp : Span) Span.longest ≤ Span.longest ∧
      settings.lookBack ≤ Span.longest := by
  refine ⟨Int.min_le_right _ _, ?_⟩
  unfold lookBack Span.addSaturating
  split
  · assumption
  · exact Int.le_refl _

/-- The bound of the first tick is found without cutting any span. -/
theorem firstBound_eq (n : Instant) :
    settings.firstBound n =
      (n.sub? ((settings.catchUp : Span) + Span.ofSeconds 1)).getD Instant.first := by
  show (n.sub? settings.lookBack).getD Instant.first = _
  by_cases hfits : (settings.catchUp : Span) + Span.ofSeconds 1 ≤ Span.longest
  · have hle : (settings.catchUp : Span) ≤ Span.longest :=
      Int.le_trans (Int.le_add_of_nonneg_right (by decide)) hfits
    rw [lookBack, Int.min_eq_left hle, Span.addSaturating, if_pos hfits]
  · have hcut : settings.lookBack = Span.longest := by
      unfold lookBack Span.addSaturating
      refine if_neg fun hsum => hfits ?_
      rcases Int.le_total (settings.catchUp : Span) Span.longest with hle | hle
      · simpa only [Int.min_eq_left hle] using hsum
      · simp only [Int.min_eq_right hle] at hsum
        exact absurd hsum (by decide)
    have hlong : Span.longest ≤ (settings.catchUp : Span) + Span.ofSeconds 1 :=
      Int.le_of_lt (Int.not_le.mp hfits)
    -- Both lead out of time.
    rw [hcut, Instant.sub?_eq_none (Int.le_refl _), Instant.sub?_eq_none hlong]

/-- The second of the first bound. -/
theorem floorSecond_firstBound (n : Instant) :
    (settings.firstBound n).floorSecond =
      ((n.sub? ((settings.catchUp : Span) + Span.ofSeconds 1)).map Instant.floorSecond).getD
        Instant.first := by
  rw [firstBound_eq]
  cases n.sub? ((settings.catchUp : Span) + Span.ofSeconds 1) with
  | none => rfl
  | some l => rfl

/-- Over whole seconds that are not leap seconds, the window of the first tick is the catch-up time
    with both ends. -/
theorem seconds_of_first_window {n i : Instant} {k : Nat}
    (hcatchUp : settings.catchUp = k * 1000000000) (hn : n.frac = 0)
    (hrange : n.sub? ((settings.catchUp : Span) + Span.ofSeconds 1) ≠ none)
    (hi : i.frac < 1000000000) :
    ((settings.firstBound n).floorSecond < i.floorSecond ∧ i.floorSecond ≤ n) ↔
      n.unixSeconds - k ≤ i.unixSeconds ∧ i.unixSeconds ≤ n.unixSeconds := by
  have hspan : (settings.catchUp : Span) + Span.ofSeconds 1 = Span.ofSeconds (k + 1) := by
    rw [hcatchUp, Int.natCast_mul, Span.ofSeconds, Span.ofSeconds, Int.add_mul]
    rfl
  obtain ⟨l, hl⟩ := Option.ne_none_iff_exists'.mp hrange
  rw [hspan] at hl
  obtain ⟨hunix, hfrac⟩ := Instant.unixSeconds_of_sub? hn hl
  have hfloor : ∀ t : Instant, t.frac < 1000000000 → t.floorSecond.frac = 0 :=
    fun t ht => if_neg (by omega)
  have hbound : settings.firstBound n = l := by rw [firstBound_eq, hspan, hl]; rfl
  have hafter := Instant.lt_iff_unixSeconds (hfloor l (by omega)) (hfloor i hi)
  have hin := Instant.lt_iff_unixSeconds hn (hfloor i hi)
  rw [hbound, hafter, ← Instant.not_lt, hin]
  show l.unixSeconds < i.unixSeconds ∧ ¬n.unixSeconds < i.unixSeconds ↔ _
  omega

end Settings

/-! ## What the first tick attempts -/

/-- A tick whose selection does not fail announces each event of its window once, and no
    others. -/
theorem Unfolds.announces {σ : Type} {s : Scheduler σ} {good : σ → Prop}
    {stored : σ → Event → Prop} (hs : s.Reliable good stored) {others : σ → σ → Prop}
    (hothers : ∀ w v, others w v → good w → good v) {w w' : σ} (hgood : good w) {t t' : Tick}
    {deeds : List Deed} (h : s.Unfolds others t .selectingDue w deeds t' w')
    (hnow : t.now.floorSecond = t.now) :
    ∃ (log : Log) (v : σ), deeds = log.deeds ∧ others w v ∧
      (log.due = none ∨ ∃ answer w₁, log.due = some answer ∧
        (s.calendar.eventsDueBetween t.after t.now).perform v = (.ok answer, w₁)) ∧
      ((∀ e, log.due ≠ some (.error e)) →
        (log.announced.map (·.1.id)).Nodup ∧
        ∀ e, e ∈ log.announced.map (·.1) ↔ stored v e ∧
          t.after.floorSecond < e.notification.floorSecond ∧
          e.notification.floorSecond ≤ t.now) := by
  obtain ⟨log, v, hdeeds, hcomplete, hv, hselected⟩ := h.exists_log
  have hids : log.announced.map (·.1.id) = log.dueEvents.map (·.id) := by
    rw [← hcomplete.announced, List.map_map]
    rfl
  rcases hselected with ⟨hwindow, hnone⟩ | ⟨-, answer, w₁, hanswer, hsome⟩
  · refine ⟨log, v, hdeeds, hv, Or.inl hnone, fun _ => ?_⟩
    rw [hids, hcomplete.announced, Log.dueEvents, hnone]
    refine ⟨List.nodup_nil, fun e => iff_of_false List.not_mem_nil ?_⟩
    -- A window without a second holds no notification.
    rintro ⟨-, hlow, hin⟩
    rw [Tick.hasWindow_of_due hnow hlow hin] at hwindow
    cases hwindow
  · refine ⟨log, v, hdeeds, hv, Or.inr ⟨answer, w₁, hsome, hanswer⟩, fun hsucceeds => ?_⟩
    rw [hids, hcomplete.announced, Log.dueEvents, hsome]
    rcases answer with e | due
    · exact (hsucceeds e hsome).elim
    · have hgood' := hothers w v hv hgood
      refine ⟨hs.once v w₁ _ _ due hgood' hanswer, fun e => ?_⟩
      have hmatch := hs.matching v w₁ _ _ due hgood' hanswer e
      rwa [hnow] at hmatch

/-- The first tick needs no span that there is not, and it comes to its end if its calls are
    answered. Unless its selection fails, it attempts each stored event once whose notification
    second lies behind the bound and not behind the clock, and no others. Over whole seconds,
    away from leap seconds, these are the seconds of the catch-up time with both ends. -/
theorem first_tick_looks_back {σ : Type} {s : Scheduler σ} {good : σ → Prop}
    {stored : σ → Event → Prop} (hs : s.Reliable good stored) {others : σ → σ → Prop}
    (hothers : ∀ w v, others w v → good w → good v) {w : σ} (hgood : good w) {tally : Tally}
    (hfirst : tally.coveredUntil = none) (clock : Instant) :
    let n := clock.floorSecond
    let back := n.sub? ((s.settings.catchUp : Span) + Span.ofSeconds 1)
    let bound := (back.map Instant.floorSecond).getD Instant.first
    (min (s.settings.catchUp : Span) Span.longest ≤ Span.longest ∧
      s.settings.lookBack ≤ Span.longest) ∧
    (s.Answers → (s.tick tally clock).Answers ∧ ((∀ w, ∃ v, others w v) →
      ∃ x tally' w', x.clock = clock ∧ s.Ticks others tally w x tally' w')) ∧
    (∀ x tally' w', x.clock = clock → s.Ticks others tally w x tally' w' →
      ∃ (log : Log) (v : σ), x.deeds = log.deeds ∧ others w v ∧
        (log.due = none ∨ ∃ answer w₁, log.due = some answer ∧
          (s.calendar.eventsDueBetween (s.settings.firstBound n) n).perform v =
            (.ok answer, w₁)) ∧
        ((∀ e, log.due ≠ some (.error e)) →
          (log.announced.map (·.1.id)).Nodup ∧
          ∀ e, e ∈ log.announced.map (·.1) ↔ stored v e ∧
            bound < e.notification.floorSecond ∧ e.notification.floorSecond ≤ n)) ∧
    ∀ k : Nat, s.settings.catchUp = k * 1000000000 → n.frac = 0 → back ≠ none →
      ∀ i : Instant, i.frac < 1000000000 →
        ((bound < i.floorSecond ∧ i.floorSecond ≤ n) ↔
          n.unixSeconds - k ≤ i.unixSeconds ∧ i.unixSeconds ≤ n.unixSeconds) := by
  intro n back bound
  have hbound : (s.settings.firstBound n).floorSecond = bound := s.settings.floorSecond_firstBound n
  refine ⟨s.settings.lookBack_le_longest,
    fun h => ⟨h.tick tally clock, fun htotal => h.ticks htotal tally w clock⟩,
    fun x tally' w' hclock hticks => ?_, fun k hcatchUp hn hrange i hi => ?_⟩
  · obtain ⟨t, hunfolds, -⟩ := hticks
    rw [hclock] at hunfolds
    have hafter : (Tick.begin s.settings tally clock).after = s.settings.firstBound n := by
      rw [Tick.begin, hfirst]
      rfl
    have hannounces := hunfolds.announces hs hothers hgood (Instant.floorSecond_floorSecond clock)
    rwa [hafter, hbound] at hannounces
  · rw [← hbound]
    exact Settings.seconds_of_first_window s.settings hcatchUp hn hrange hi

/-! ## A first tick -/

open Rehearsal (secondOf1970)

/-- A memory of its own is a storage that a scheduler can rely on. -/
theorem alone_reliable {β : Type} (settings : Settings) (broker : Broker.Client β) :
    (alone settings broker).Reliable (fun w => w.1.store.events.KeyedBy Event.id)
      fun w e => w.1.store.events.get? e.id = some e where
  once v v' after limit due hv h := by
    rw [alone_selectsDue] at h
    cases h
    exact Store.nodup_listWhere hv _
  matching v v' after limit due hv h e := by
    rw [alone_selectsDue] at h
    cases h
    rw [Store.eventsDueBetween, Store.mem_listWhere_iff hv]
    simp only [Bool.and_eq_true, decide_eq_true_eq]
  keepsDue _ _ _ hv := hv
  keepsExpired _ _ hv := hv
  keepsDeleted v id hv := Storage.keepsAll_memory_events.deleteEvent id v.1 hv
  keepsPublished _ _ hv := hv

/-- The first tick of a scheduler that looks back a minute, in the second of the only event. -/
theorem createdEvent_announced_first :
    (∃ (x : Entry) (tally' : Tally) (w' : Storage.MemoryState × Broker.State Bytes) (log : Log),
      (alone {} Broker.Client.memory).Ticks Eq {} (createdMemory, {}) x tally' w' ∧
        x.deeds = log.deeds ∧ createdEvent ∈ log.announced.map (·.1)) ∧
    ∀ i : Instant, i.frac < 1000000000 →
      ((((secondOf1970 0).sub? (Span.ofSeconds 61)).map Instant.floorSecond).getD Instant.first <
          i.floorSecond ∧ i.floorSecond ≤ secondOf1970 0 ↔
        -60 ≤ i.unixSeconds ∧ i.unixSeconds ≤ 0) := by
  have hkeyed : createdMemory.store.events.KeyedBy Event.id :=
    (Storage.Reached.createEvent (.empty {}) _).events_keyed
  have hfirst : ({} : Tally).coveredUntil = none := rfl
  have hothers : ∀ w v : Storage.MemoryState × Broker.State Bytes, w = v →
      w.1.store.events.KeyedBy Event.id → v.1.store.events.KeyedBy Event.id :=
    fun _ _ heq hw => heq ▸ hw
  obtain ⟨-, hends, hexact, hwhole⟩ := first_tick_looks_back
    (alone_reliable {} Broker.Client.memory) hothers (w := (createdMemory, {})) hkeyed hfirst
    (secondOf1970 0)
  obtain ⟨-, hticks⟩ := hends (alone_answers fun _ _ => ⟨_, _, rfl⟩)
  obtain ⟨x, tally', w', hclock, htick⟩ := hticks fun w => ⟨w, rfl⟩
  obtain ⟨log, v, hdeeds, rfl, hasked, hannounced⟩ := hexact x tally' w' hclock htick
  have hwhole := hwhole 60 rfl rfl (by decide)
  have hstart : (secondOf1970 0).floorSecond = secondOf1970 0 := by decide
  rw [hstart] at hwhole
  refine ⟨⟨x, tally', w', log, htick, hdeeds, ?_⟩, hwhole⟩
  -- The memory does not fail.
  have hsucceeds : ∀ e, log.due ≠ some (.error e) := by
    intro e herror
    rcases hasked with hnone | ⟨answer, w₁, hsome, hanswer⟩
    · simp [hnone] at herror
    · rw [alone_selectsDue] at hanswer
      cases hanswer
      simp [hsome] at herror
  have hget : createdMemory.store.events.get? createdEvent.id = some createdEvent := by
    rw [createdMemory_events, Table.get?_cons, if_pos rfl]
  exact ((hannounced hsucceeds).2 createdEvent).mpr ⟨hget, by decide, by decide⟩

end Scheduler

end Almanac
