/-
  Almanac.Proofs.Broker.Removal

  Which calls remove queues. A queue goes by a stop, if it is not durable, or by the
  cancellation that takes its last consumer, if it was declared to remove itself; every
  other call keeps all queues (`perform_removes`).
-/
import Almanac.Proofs.Broker.Sound

namespace Almanac.Broker.State

variable {β : Type} {s : State β}

theorem isSome_queue?_setQueue {name other : String} (q : Queue β)
    (h : (s.queue? other).isSome = true) : ((s.setQueue name q).queue? other).isSome = true := by
  rw [queue?_setQueue]
  split
  · rfl
  · exact h

theorem isSome_queue?_deliver {name other : String} (q : Queue β)
    (h : (s.queue? other).isSome = true) : ((s.deliver name q).queue? other).isSome = true := by
  rw [queue?_deliver]
  split
  · rfl
  · exact h

/-- The queues after a stop are the durable ones, with their consumers gone. -/
theorem queue?_stop (hs : s.Sound) (hconnected : s.connected = true) {name : String}
    {q : Queue β} (hq : s.queue? name = some q) :
    s.stop.queue? name = if q.settings.durable then some q.abandoned else none := by
  have hqueues : s.stop.queues =
      (s.queues.map fun e => (e.1, e.2.abandoned)).filter fun e => e.2.settings.durable := by
    unfold stop
    rw [if_pos hconnected]
  have hmem : (name, q.abandoned) ∈ s.queues.map fun e => (e.1, e.2.abandoned) :=
    List.mem_map.mpr ⟨(name, q), Table.mem_of_get? hq, rfl⟩
  have hnames : (Table.keys (s.queues.map fun e => (e.1, e.2.abandoned))).Nodup := by
    have hkeys : Table.keys (s.queues.map fun e => (e.1, e.2.abandoned)) = s.queues.keys :=
      Table.keys_map Queue.abandoned s.queues
    rw [hkeys]
    exact hs.names
  split
  · next hdurable =>
    rw [queue?, hqueues]
    exact Table.get?_of_mem (Table.nodup_keys_filter hnames _)
      (List.mem_filter.mpr ⟨hmem, hdurable⟩)
  · next hdurable =>
    -- What a look-up finds after the stop passed the test, and it is this queue.
    cases hafter : s.stop.queue? name with
    | none => rfl
    | some r =>
        rw [queue?, hqueues] at hafter
        obtain ⟨hr, hkept⟩ := List.mem_filter.mp (Table.mem_of_get? hafter)
        have hsame := (Table.get?_of_mem hnames hr).symm.trans (Table.get?_of_mem hnames hmem)
        rw [Option.some.inj hsame] at hkept
        exact (hdurable hkept).elim

/-- A stop makes no queue. -/
theorem queue?_stop_none (hs : s.Sound) {name : String} (hq : s.queue? name = none) :
    s.stop.queue? name = none := by
  unfold stop
  split
  · -- What a look-up finds after the stop was there before.
    rw [queue?, Table.get?_eq_none_iff]
    intro hafter
    obtain ⟨⟨name', r⟩, hr, hname⟩ := List.mem_map.mp hafter
    obtain rfl : name' = name := hname
    obtain ⟨⟨before, q⟩, hbefore, heq⟩ := List.mem_map.mp (List.mem_filter.mp hr).1
    obtain ⟨rfl, -⟩ := Prod.mk.inj heq
    have hsome : s.queue? before = some q := Table.get?_of_mem hs.names hbefore
    rw [hq] at hsome
    simp at hsome
  · exact hq

/-- A queue goes by a stop, if it is not durable, or with its last consumer, if it removes
    itself. -/
theorem perform_removes (hs : s.Sound) {c : Call β} {name : String} {q : Queue β}
    (hq : s.queue? name = some q) (hgone : (s.perform c).queue? name = none) :
    (c = .stop ∧ s.connected = true ∧ q.settings.durable = false) ∨
      ∃ tag, c = .cancel name tag ∧ q.settings.autoDelete = true ∧
        ∀ consumer ∈ q.consumers, consumer.tag = tag := by
  have hpresent : (s.queue? name).isSome = true := by rw [hq]; rfl
  have hcontra : ((s.perform c).queue? name).isSome = true → False := by
    rw [hgone]
    exact fun h => Bool.noConfusion h
  have heffect := effect_perform hs.names c
  generalize hafter : s.perform c = s' at heffect hgone hcontra
  cases heffect with
  | idle => exact (hcontra hpresent).elim
  | started => exact (hcontra hpresent).elim
  | stopped hconnected =>
      have hstop : s.stop.queue? name = none := (congrArg (·.queue? name) hafter).trans hgone
      rw [queue?_stop hs hconnected hq] at hstop
      refine Or.inl ⟨rfl, hconnected, ?_⟩
      cases hdurable : q.settings.durable
      · rfl
      · simp [hdurable] at hstop
  | declared => exact (hcontra (isSome_queue?_setQueue _ hpresent)).elim
  | published => exact (hcontra (isSome_queue?_deliver _ hpresent)).elim
  | refused => exact (hcontra hpresent).elim
  | consumed => exact (hcontra (isSome_queue?_deliver (s := s.withStream) _ hpresent)).elim
  | discarded => exact (hcontra (isSome_queue?_setQueue _ hpresent)).elim
  | returned => exact (hcontra (isSome_queue?_deliver _ hpresent)).elim
  | recovered =>
      exact (hcontra (recoverIn_induction (P := fun s => (s.queue? name).isSome = true)
        (fun _ _ _ _ h => isSome_queue?_deliver _ h) _ hpresent)).elim
  | received => exact (hcontra hpresent).elim
  | closed => exact (hcontra hpresent).elim
  | @removed other tag r hr hlast hauto =>
      rw [queue?, Table.get?_erase] at hgone
      by_cases hname : other = name
      · subst hname
        obtain rfl := Option.some.inj (hq.symm.trans hr)
        refine Or.inr ⟨tag, rfl, hauto, fun consumer hconsumer => ?_⟩
        have hfilter : q.consumers.filter (·.tag != tag) = [] := hlast
        -- Nobody was left, so all consumers had the tag.
        simpa using List.filter_eq_nil_iff.mp hfilter consumer hconsumer
      · -- Another queue has been removed.
        rw [if_neg hname] at hgone
        have hnone : s.queue? name = none := hgone
        rw [hq] at hnone
        simp at hnone
  | cancelled => exact (hcontra (isSome_queue?_deliver _ hpresent)).elim

end Almanac.Broker.State
