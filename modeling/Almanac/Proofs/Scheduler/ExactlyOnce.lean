/-
  Almanac.Proofs.Scheduler.ExactlyOnce

  No notification second is handled twice and none is left out. The windows of the
  selections that succeeded tile the time from the first lower bound to the watermark
  (`Tiles`); what is attempted is what they found, one selection after the other
  (`Process.Sound.booked`). So a slot, an event id with a notification second, is attempted
  at most once, and an event that is stored when its second is selected exactly once. The
  attempts are calls to the broker (`Process.Trace.attempts`), and the executed tick is one of
  the runs.

  The storage is trusted with one thing: it answers a selection with the stored events of
  the window, each of them once (`Reliable`).
-/
import Almanac.Proofs.Scheduler.Process
import Almanac.Proofs.Time.Order
import Mathlib.Data.List.Nodup

namespace Almanac.Scheduler

variable {σ : Type}

/-! ## Windows -/

/-- The windows of some selections, one after the other, make up the time after `a` through
    `w`. -/
inductive Tiles : List (Selection σ) → Instant → Instant → Prop
  | nil (a : Instant) : Tiles [] a a
  | snoc {xs : List (Selection σ)} {a : Instant} (x : Selection σ) (h : Tiles xs a x.after)
      (hlt : x.after < x.now) : Tiles (xs ++ [x]) a x.now

namespace Tiles

variable {xs : List (Selection σ)} {a w : Instant}

theorem le (h : Tiles xs a w) : a ≤ w := by
  induction h with
  | nil a => exact Instant.le_refl a
  | snoc x h hlt ih => exact Instant.le_trans ih (Instant.le_of_lt hlt)

theorem now_le (h : Tiles xs a w) : ∀ x ∈ xs, x.now ≤ w := by
  induction h with
  | nil a => simp
  | snoc x h hlt ih =>
      intro y hy
      rcases List.mem_append.mp hy with hold | hnew
      · exact Instant.le_trans (ih y hold) (Instant.le_of_lt hlt)
      · rw [List.mem_singleton.mp hnew]
        exact Instant.le_refl _

/-- Together the windows leave nothing out. -/
theorem covers_iff (h : Tiles xs a w) (i : Instant) :
    (∃ x ∈ xs, x.Covers i) ↔ a < i ∧ i ≤ w := by
  induction h with
  | nil a =>
      simp only [List.not_mem_nil, false_and, exists_false, false_iff, not_and]
      exact fun hlt => fun hle => Instant.lt_irrefl _ (Instant.lt_of_lt_of_le hlt hle)
  | snoc x h hlt ih =>
      simp only [List.mem_append, List.mem_singleton, or_and_right, exists_or, exists_eq_left, ih]
      constructor
      · rintro (⟨hafter, hle⟩ | ⟨hafter, hle⟩)
        · exact ⟨hafter, Instant.le_trans hle (Instant.le_of_lt hlt)⟩
        · exact ⟨Instant.lt_of_le_of_lt h.le hafter, hle⟩
      · rintro ⟨hafter, hle⟩
        -- An instant lies in the last window, or was covered before it.
        rcases Instant.lt_or_ge x.after i with hlt' | hge
        · exact Or.inr ⟨hlt', hle⟩
        · exact Or.inl ⟨hafter, hge⟩

/-- Every window ends before the next ones begin. -/
theorem pairwise (h : Tiles xs a w) : xs.Pairwise fun x y => x.now ≤ y.after := by
  induction h with
  | nil a => exact List.Pairwise.nil
  | snoc x h hlt ih =>
      rw [List.pairwise_append]
      refine ⟨ih, List.pairwise_singleton _ _, fun y hy z hz => ?_⟩
      rw [List.mem_singleton.mp hz]
      exact h.now_le y hy

theorem eq_of_nil (h : Tiles xs a w) (hxs : xs = []) : a = w := by
  cases h with
  | nil a => rfl
  | snoc x h hlt => simp at hxs

/-- The first window begins where the tiling does. -/
theorem after_head (h : Tiles xs a w) {x : Selection σ} (hx : xs.head? = some x) :
    x.after = a := by
  induction h with
  | nil a => simp at hx
  | @snoc xs a y h hlt ih =>
      -- The first window is the one at hand, or was the first before.
      cases xs with
      | nil =>
          obtain rfl : y = x := by simpa using hx
          exact (h.eq_of_nil rfl).symm
      | cons z zs => exact ih hx

end Tiles

theorem Selection.not_covers_of_le {x y : Selection σ} (h : x.now ≤ y.after) (i : Instant) :
    ¬(x.Covers i ∧ y.Covers i) := by
  rintro ⟨⟨-, hle⟩, ⟨hlt, -⟩⟩
  exact Instant.lt_irrefl i (Instant.lt_of_le_of_lt (Instant.le_trans hle h) hlt)

/-! ## The storage -/

/-- What a scheduler relies on. In a good world a selection that succeeds answers with the stored
    events of the window, each of them once, and the calls of the scheduler leave a good world
    good. -/
structure Reliable (s : Scheduler σ) (good : σ → Prop) (stored : σ → Event → Prop) : Prop where
  once : ∀ w w' after limit due, good w →
    (s.calendar.eventsDueBetween after limit).perform w = (.ok (.ok due), w') →
    (due.map (·.id)).Nodup
  matching : ∀ w w' after limit due, good w →
    (s.calendar.eventsDueBetween after limit).perform w = (.ok (.ok due), w') →
    ∀ e, e ∈ due ↔ stored w e ∧ after.floorSecond < e.notification.floorSecond ∧
      e.notification.floorSecond ≤ limit.floorSecond
  keepsDue : ∀ w after limit, good w →
    good ((s.calendar.eventsDueBetween after limit).perform w).2
  keepsExpired : ∀ w t, good w → good ((s.calendar.eventsBefore t).perform w).2
  keepsDeleted : ∀ w id, good w → good ((s.calendar.deleteEvent id).perform w).2
  keepsPublished : ∀ w body, good w → good ((s.broker.publish s.settings.publish body).perform w).2

/-- A step of a tick leaves a good world good. -/
theorem Reliable.good_step {s : Scheduler σ} {good : σ → Prop} {stored : σ → Event → Prop}
    (hs : s.Reliable good stored) {t t' : Tick} {stage : Stage} {next : Option Stage} {w w' : σ}
    (hgood : good w) (h : (s.step t stage).perform w = (.ok (t', next), w')) : good w' := by
  have hkeeps : Storage.Keeps good (s.step t stage) :=
    s.keeps_step (fun after limit v => hs.keepsDue v after limit)
      (fun t v => hs.keepsExpired v t) (fun id v => hs.keepsDeleted v id)
      (fun body v => hs.keepsPublished v body) t stage
  have hgood' := hkeeps w hgood
  rwa [h] at hgood'

/-! ## The invariant -/

/-- The answer of a selection is the stored events of its window, each of them once. -/
structure Selection.Exact (stored : σ → Event → Prop) (x : Selection σ) : Prop where
  once : (x.due.map (·.id)).Nodup
  matching : ∀ e, e ∈ x.due ↔ stored x.world e ∧ x.Covers e.notification.floorSecond

/-- The books of a process are in order. -/
structure Process.Sound (s : Scheduler σ) (good : σ → Prop) (stored : σ → Event → Prop)
    (p : Process σ) : Prop where
  good : good p.world
  orderly : p.Orderly s
  tiled : ∀ w, p.watermark = some w → ∃ a, Tiles p.selections a w
  untiled : p.watermark = none → p.selections = []
  /-- What has been attempted and what is pending is what the selections found. -/
  booked : p.attempts ++ p.pending =
    p.selections.flatMap fun x => x.due.map Event.announcement
  answered : ∀ x ∈ p.selections, x.Exact stored

namespace Process.Sound

open Process

variable {s : Scheduler σ} {good : σ → Prop} {stored : σ → Event → Prop} {p p' : Process σ}

/-- A scheduler that has not begun yet has nothing in its books. -/
theorem start {world : σ} (hgood : good world) (tally : Tally) :
    Process.Sound s good stored { world, tally } where
  good := hgood
  orderly := fun _ _ h => by simp at h
  tiled w _ := ⟨w, .nil w⟩
  untiled _ := rfl
  booked := rfl
  answered _ h := by simp at h

/-- Others do not touch the books. -/
theorem interfere (hp : p.Sound s good stored) {world : σ} (h : good world) :
    Process.Sound s good stored { p with world } where
  good := h
  orderly := hp.orderly
  tiled := hp.tiled
  untiled := hp.untiled
  booked := hp.booked
  answered := hp.answered

theorem begin (hp : p.Sound s good stored) (clock : Instant) (h : p.current = none) :
    Process.Sound s good stored
      { p with current := some (Tick.begin s.settings p.tally clock, .selectingDue) } := by
  have hstep : Step s good p _ := .begin clock h
  have horderly := hp.orderly.step hstep
  have hwatermark : p.watermark = p.tally.coveredUntil := by simp [watermark, h]
  have hpending : p.pending = [] := by simp [pending, h]
  refine ⟨hp.good, horderly, fun w hw => hp.tiled w ?_, fun hw => hp.untiled ?_, ?_, hp.answered⟩
  · exact hwatermark.trans hw
  · exact hwatermark.trans hw
  · have hbooked := hp.booked
    rw [hpending] at hbooked
    exact hbooked

/-- What the selections so far tile ends where the window of the next one begins. -/
theorem tiles_after (hp : p.Sound s good stored) {t : Tick}
    (hcurrent : p.current = some (t, .selectingDue)) : ∃ a, Tiles p.selections a t.after := by
  have hrunning := hp.orderly t _ hcurrent
  -- Before the selection the tick has handled nothing itself.
  have hwatermark : p.watermark = p.tally.coveredUntil := by
    simp [watermark, hcurrent, hrunning.fresh rfl]
  cases hcovered : p.tally.coveredUntil with
  | some w =>
      obtain ⟨a, htiles⟩ := hp.tiled w (hwatermark.trans hcovered)
      have hlower : t.after = w := by rw [hrunning.lower, hcovered, Option.getD_some]
      exact ⟨a, hlower ▸ htiles⟩
  | none =>
      -- Nothing has been selected yet, and the tiling may begin anywhere.
      rw [hp.untiled (hwatermark.trans hcovered)]
      exact ⟨t.after, .nil _⟩

/-- Every call keeps the books in order. -/
theorem change (hs : s.Reliable good stored) (hp : p.Sound s good stored) (h : Change s p p')
    (hworld : good p'.world) : p'.Sound s good stored := by
  have horderly := hp.orderly.change h
  have hbooked := hp.booked
  cases h with
  | @selected t t' due world hcurrent hwindow hanswer hnow hafter hthrough =>
      refine ⟨hworld, horderly, fun w hw => ?_, fun hw => ?_, ?_, fun x hx => ?_⟩
      · -- The new window begins where the others end, and ends at the watermark.
        simp only [watermark, hthrough, Option.some_or, Option.some.injEq] at hw
        obtain ⟨a, htiles⟩ := hp.tiles_after hcurrent
        exact ⟨a, hw ▸ .snoc ⟨t.after, t.now, p.world, due⟩ htiles hwindow⟩
      · simp [watermark, hthrough] at hw
      · -- What the selection found is pending, and nothing else was.
        simp only [pending, hcurrent, Stage.pending, List.append_nil] at hbooked
        simp only [pending, Stage.pending, hbooked, List.flatMap_append, List.flatMap_cons,
          List.flatMap_nil, List.append_nil]
      · rcases List.mem_append.mp hx with hold | hnew
        · exact hp.answered x hold
        · rw [List.mem_singleton.mp hnew]
          refine ⟨hs.once _ _ _ _ _ hp.good hanswer, fun e => ?_⟩
          rw [hs.matching _ _ _ _ _ hp.good hanswer e, Instant.floorSecond_lt_iff,
            Instant.le_floorSecond_iff]
          rfl
  | @moved t t' stage stage' world attempted hcurrent hsame hstage hbooks =>
      have hwatermark : p.watermark = t'.through.or p.tally.coveredUntil := by
        simp only [watermark, hcurrent, hsame.2.2]
      refine ⟨hworld, horderly, fun w hw => hp.tiled w (hwatermark.trans hw),
        fun hw => hp.untiled (hwatermark.trans hw), ?_, hp.answered⟩
      simp only [pending, hcurrent, hbooks] at hbooked
      simp only [pending, List.append_assoc, hbooked]
  | @ended t stage hcurrent hbooks =>
      have hwatermark : p.watermark = (t.recorded p.tally).coveredUntil := by
        simp only [watermark, hcurrent, Tick.recorded, Tally.record]
      refine ⟨hworld, horderly, fun w hw => hp.tiled w (hwatermark.trans hw),
        fun hw => hp.untiled (hwatermark.trans hw), ?_, hp.answered⟩
      simp only [pending, hcurrent, hbooks] at hbooked
      simpa only [pending] using hbooked

/-- Every step keeps the books in order. -/
theorem step (hs : s.Reliable good stored) (hp : p.Sound s good stored) (h : Step s good p p') :
    p'.Sound s good stored := by
  cases h with
  | interfere world h => exact hp.interfere h
  | begin clock h => exact hp.begin clock h
  | @work t t' stage next world hcurrent hstep =>
      have hworld : good (p.advance t stage t' next world).world := hs.good_step hp.good hstep
      exact hp.change hs (change_of_step hcurrent (hp.orderly _ _ hcurrent).fresh hstep) hworld

/-- The books are in order at every point of every run. -/
theorem run (hs : s.Reliable good stored) (hp : p.Sound s good stored) (h : Run s good p p') :
    p'.Sound s good stored := by
  induction h with
  | refl => exact hp
  | tail _ hstep ih => exact ih.step hs hstep

/-- A step never takes the watermark back. -/
theorem coveredUntil_step (hp : p.Sound s good stored) (h : Step s good p p') {w : Instant}
    (hw : p.tally.coveredUntil = some w) :
    ∃ w', p'.tally.coveredUntil = some w' ∧ w ≤ w' := by
  cases h with
  | interfere world h => exact ⟨w, hw, Instant.le_refl w⟩
  | begin clock h => exact ⟨w, hw, Instant.le_refl w⟩
  | @work t t' stage next world hcurrent hstep =>
      have hchange := change_of_step hcurrent (hp.orderly _ _ hcurrent).fresh hstep
      generalize p.advance t stage t' next world = q at hchange
      cases hchange with
      | selected => exact ⟨w, hw, Instant.le_refl w⟩
      | moved => exact ⟨w, hw, Instant.le_refl w⟩
      | @ended u stage hcurrent hbooks =>
          have hrunning := hp.orderly u stage hcurrent
          cases hthrough : u.through with
          | none =>
              exact ⟨w, by simp [Tick.recorded, Tally.record, hthrough, hw], Instant.le_refl w⟩
          | some n =>
              -- The window of the tick began at the old watermark.
              obtain ⟨rfl, hlt⟩ := hrunning.handled n hthrough
              refine ⟨u.now, by simp [Tick.recorded, Tally.record, hthrough], ?_⟩
              rw [hrunning.lower, hw, Option.getD_some] at hlt
              exact Instant.le_of_lt hlt

theorem coveredUntil_run (hs : s.Reliable good stored) (hp : p.Sound s good stored)
    (h : Run s good p p') {w : Instant} (hw : p.tally.coveredUntil = some w) :
    ∃ w', p'.tally.coveredUntil = some w' ∧ w ≤ w' := by
  induction h with
  | refl => exact ⟨w, hw, Instant.le_refl w⟩
  | tail hrun hstep ih =>
      obtain ⟨w₁, hw₁, hle⟩ := ih
      obtain ⟨w₂, hw₂, hle'⟩ := (hp.run hs hrun).coveredUntil_step hstep hw₁
      exact ⟨w₂, hw₂, Instant.le_trans hle hle'⟩

end Process.Sound

/-! ## Slots -/

/-- What must not be announced twice: an event with a notification second. -/
def slot (n : Notification) : String × Instant := (n.id, n.notification.floorSecond)

/-- Among things with different marks, one has the mark of a given one. -/
theorem filter_eq_singleton {α γ : Type} [DecidableEq γ] {f : α → γ} {xs : List α} {a : α}
    (h : (xs.map f).Nodup) (ha : a ∈ xs) : xs.filter (fun b => f b = f a) = [a] := by
  induction xs with
  | nil => simp at ha
  | cons x xs ih =>
      rw [List.map_cons, List.nodup_cons] at h
      rcases List.mem_cons.mp ha with rfl | hmem
      · -- The mark is gone with the first element.
        have hrest : xs.filter (fun b => f b = f a) = [] := by
          refine List.filter_eq_nil_iff.mpr fun b hb heq => h.1 ?_
          exact of_decide_eq_true heq ▸ List.mem_map_of_mem hb
        rw [List.filter_cons_of_pos (by simp), hrest]
      · have hne : f x ≠ f a := fun heq => h.1 (heq ▸ List.mem_map_of_mem hmem)
        rw [List.filter_cons_of_neg (by simpa using hne), ih h.2 hmem]

/-- The slots that a tiling of selections found are all different. -/
theorem nodup_slots {stored : σ → Event → Prop} {xs : List (Selection σ)}
    (hpairwise : xs.Pairwise fun x y => x.now ≤ y.after)
    (hexact : ∀ x ∈ xs, x.Exact stored) :
    ((xs.flatMap fun x => x.due.map Event.announcement).map slot).Nodup := by
  rw [List.map_flatMap, List.nodup_flatMap]
  refine ⟨fun x hx => ?_, hpairwise.imp_of_mem ?_⟩
  · -- Within one selection the ids alone tell the events apart.
    refine List.Nodup.of_map Prod.fst ?_
    rw [List.map_map, List.map_map]
    exact (hexact x hx).once
  · intro x y hx hy hle m hm hm'
    simp only [List.map_map, List.mem_map] at hm hm'
    obtain ⟨e, he, rfl⟩ := hm
    obtain ⟨e', he', heq⟩ := hm'
    -- Between two selections the seconds do, since their windows are disjoint.
    have hcovers := (((hexact x hx).matching e).mp he).2
    have hcovers' := (((hexact y hy).matching e').mp he').2
    have hsecond : e'.notification.floorSecond = e.notification.floorSecond :=
      congrArg Prod.snd heq
    exact Selection.not_covers_of_le hle _ ⟨hcovers, hsecond ▸ hcovers'⟩

namespace Process.Sound

variable {s : Scheduler σ} {good : σ → Prop} {stored : σ → Event → Prop} {p : Process σ}

/-- The windows of the selections follow one another. -/
theorem pairwise (hp : p.Sound s good stored) :
    p.selections.Pairwise fun x y => x.now ≤ y.after := by
  cases hwatermark : p.watermark with
  | none => simp [hp.untiled hwatermark]
  | some w =>
      obtain ⟨a, htiles⟩ := hp.tiled w hwatermark
      exact htiles.pairwise

theorem nodup_slots (hp : p.Sound s good stored) : ((p.attempts ++ p.pending).map slot).Nodup :=
  hp.booked ▸ Scheduler.nodup_slots hp.pairwise hp.answered

/-- An event that was stored when its second was selected is attempted once. -/
theorem attempted_once (hp : p.Sound s good stored) {x : Selection σ} (hx : x ∈ p.selections)
    {e : Event} (hstored : stored x.world e) (hcovers : x.Covers e.notification.floorSecond) :
    (p.attempts ++ p.pending).filter (fun n => slot n = slot e.announcement) =
      [e.announcement] := by
  refine filter_eq_singleton hp.nodup_slots ?_
  -- It was found by its selection, so it is in the books.
  rw [hp.booked, List.mem_flatMap]
  exact ⟨x, hx, List.mem_map_of_mem (((hp.answered x hx).matching e).mpr ⟨hstored, hcovers⟩)⟩

end Process.Sound

/-! ## All runs -/

/-- Take any run of a scheduler among others, over a storage that answers a selection with each
    stored event of its window once. The watermark never goes back. The windows of the selections
    that succeeded are disjoint, and together they are the time after the lower end of the first
    one through the watermark. No event is attempted twice for one notification second, now or by
    the tick under way, and one that is stored when its second is selected is attempted once, with
    its own announcement.

    An attempt is a call: the attempts are the announcements among the calls of the run, and each
    of these has handed the bytes of its announcement to the broker, unless they could not be
    written. The tick as it is executed is one of the runs. -/
theorem slots_attempted_once {s : Scheduler σ} {good : σ → Prop} {stored : σ → Event → Prop}
    (hs : s.Reliable good stored) {world : σ} (hgood : good world) (tally : Tally)
    {p : Process σ} (hrun : Process.Run s good { world, tally } p) :
    (∀ p', Process.Run s good p p' → ∀ w, p.tally.coveredUntil = some w →
      ∃ w', p'.tally.coveredUntil = some w' ∧ w ≤ w') ∧
    p.selections.Pairwise (fun x y => ∀ i, ¬(x.Covers i ∧ y.Covers i)) ∧
    (∀ x, p.selections.head? = some x → ∃ w, p.watermark = some w ∧
      ∀ i, (∃ y ∈ p.selections, y.Covers i) ↔ x.after < i ∧ i ≤ w) ∧
    ((p.attempts ++ p.pending).map slot).Nodup ∧
    (∀ x ∈ p.selections, ∀ e, stored x.world e → x.Covers e.notification.floorSecond →
      (p.attempts ++ p.pending).filter (fun n => slot n = slot e.announcement) =
        [e.announcement]) ∧
    (∃ calls, Process.Trace s good { world, tally } calls p) ∧
    (∀ calls, Process.Trace s good { world, tally } calls p →
      p.attempts = calls.filterMap (fun call => call.2.announcement?) ∧
      ∀ w e answer, (w, Deed.announced e answer) ∈ calls →
        ∃ w', (s.announce e).perform w = (.ok answer, w') ∧
          ((∃ cause, e.announcement.encode = .error cause ∧ answer = .error (.wire cause) ∧
              w' = w) ∨
            ∃ body reply, e.announcement.encode = .ok body ∧
              (s.broker.publish s.settings.publish body).perform w = (.ok reply, w') ∧
              answer = reply.mapError .broker)) ∧
    ∀ clock report tally' w', p.current = none →
      (s.tick p.tally clock).perform p.world = (.ok (report, tally'), w') →
      ∃ p', Process.Run s good p p' ∧ p'.current = none ∧ p'.world = w' ∧ p'.tally = tally' := by
  have hp := (Process.Sound.start hgood tally).run hs hrun
  refine ⟨fun p' hrun' w hw => hp.coveredUntil_run hs hrun' hw,
    hp.pairwise.imp fun hle i => Selection.not_covers_of_le hle i, fun x hx => ?_, hp.nodup_slots,
    fun x hx e hstored hcovers => hp.attempted_once hx hstored hcovers,
    Process.exists_trace hrun, fun calls htrace => ⟨htrace.attempts, fun w e answer hmem => ?_⟩,
    fun clock report tally' w' hidle htick => Process.run_of_tick hidle htick⟩
  · cases hwatermark : p.watermark with
    | none => simp [hp.untiled hwatermark] at hx
    | some w =>
        obtain ⟨a, htiles⟩ := hp.tiled w hwatermark
        exact ⟨w, rfl, fun i => by rw [htiles.after_head hx]; exact htiles.covers_iff i⟩
  · obtain ⟨w', hannounce⟩ := htrace.announced hmem
    exact ⟨w', hannounce, s.announce_cases hannounce⟩

end Almanac.Scheduler
