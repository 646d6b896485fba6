/-
  Almanac.Proofs.Scheduler.Retention

  The retention sweep of a scheduler that has the memory for itself, over any broker. The
  broker cannot reach the store, so a tick finds the same events when it selects those that
  have expired as it found when it began (`Unfolds.alone_log`). It deletes each of them, and
  together the deletions are a filter of the table (`Table.foldl_erase`), which is the table
  without the expired events (`Store.foldl_erase_listWhere`).
-/
import Almanac.Proofs.Scheduler.Accounts
import Almanac.Proofs.Storage.Listing

namespace Almanac

/-! ## Deleting a listing -/

/-- Erasing keys one after the other leaves out their entries. -/
theorem Table.foldl_erase {α : Type} (keys : List String) (t : Table α) :
    keys.foldl Table.erase t = t.filter fun entry => !keys.contains entry.1 := by
  induction keys generalizing t with
  | nil => simp
  | cons k keys ih =>
      rw [List.foldl_cons, ih, erase, List.filter_filter]
      refine List.filter_congr fun entry _ => ?_
      rw [List.contains_cons, Bool.not_or, Bool.and_comm]
      rfl

namespace Store

variable {s : Store}

/-- Deleting the events of a listing by their ids leaves those that do not satisfy its
    condition. -/
theorem foldl_erase_listWhere (hs : s.events.KeyedBy Event.id) (p : Event → Bool) :
    ((s.listWhere p).map (·.id)).foldl Table.erase s.events =
      s.events.filter fun entry => !p entry.2 := by
  rw [Table.foldl_erase]
  refine List.filter_congr fun (id, e) hentry => ?_
  have hget : s.events.get? id = some e := Table.get?_of_mem hs.names hentry
  have hid : e.id = id := hs.own id e hget
  have hiff : id ∈ (s.listWhere p).map (·.id) ↔ p e = true := by
    constructor
    · intro h
      obtain ⟨x, hx, hsame⟩ := List.mem_map.mp h
      obtain ⟨hstored, hp⟩ := (mem_listWhere_iff hs).mp hx
      -- One event stands under the id.
      rw [hsame, hget, Option.some.injEq] at hstored
      rwa [hstored]
    · intro h
      have hlisted : e ∈ s.listWhere p := (mem_listWhere_iff hs).mpr ⟨hid ▸ hget, h⟩
      exact List.mem_map.mpr ⟨e, hlisted, hid⟩
  have hcontains : ((s.listWhere p).map (·.id)).contains id = p e := by
    rw [Bool.eq_iff_iff, List.contains_iff_mem, hiff]
  simp only [hcontains]

/-- A listing and what it leaves out make up the store. -/
theorem length_filter_add_listWhere (s : Store) (p : Event → Bool) :
    (s.events.filter fun entry => !p entry.2).length + (s.listWhere p).length =
      s.events.length := by
  have hlisted : (s.listWhere p).length = (s.events.filter fun entry => p entry.2).length := by
    rw [listWhere, List.length_mergeSort, Table.values, List.filter_map, List.length_map]
    rfl
  rw [hlisted, Nat.add_comm]
  exact (List.length_eq_length_filter_add fun entry : String × Event => p entry.2).symm

end Store

/-- A memory without the events that satisfy a condition. -/
def Storage.MemoryState.without (m : Storage.MemoryState) (p : Event → Bool) :
    Storage.MemoryState :=
  { m with store := { m.store with events := m.store.events.filter fun entry => !p entry.2 } }

namespace Scheduler

open Storage (MemoryState)

/-! ## A scheduler with a memory of its own -/

/-- A scheduler over a memory that nobody else uses, and some broker. -/
def alone {β : Type} (settings : Settings) (broker : Broker.Client β) :
    Scheduler (MemoryState × β) where
  settings
  calendar := ⟨Storage.memory.zoom Prod.fst fun m w => (m, w.2)⟩
  broker := broker.zoom Prod.snd fun b w => (w.1, b)

variable {β : Type} {settings : Settings} {broker : Broker.Client β} {t t' : Tick}
  {w w' : MemoryState × β} {deeds : List Deed}

theorem alone_selectsDue (after limit : Instant) :
    ((alone settings broker).calendar.eventsDueBetween after limit).perform w =
      (.ok (.ok (w.1.store.eventsDueBetween after limit)), w) := rfl

theorem alone_selectsExpired (cutoff : Instant) :
    ((alone settings broker).calendar.eventsBefore cutoff).perform w =
      (.ok (.ok (w.1.store.eventsBefore cutoff)), w) := rfl

/-- Deleting a stored event succeeds. -/
theorem alone_deletes {id : String} (h : (w.1.store.events.get? id).isSome = true) :
    ((alone settings broker).calendar.deleteEvent id).perform w =
      (.ok (.ok ()),
        ({ w.1 with store := { w.1.store with events := w.1.store.events.erase id } }, w.2)) := by
  have hdelete : (Storage.memory.deleteEvent id).perform w.1 =
      (.ok (.ok ()),
        { w.1 with store := { w.1.store with events := w.1.store.events.erase id } }) := by
    show (Storage.change (·.deleteEvent id)).perform w.1 = _
    rw [Storage.change, Action.perform_update, Store.deleteEvent, if_pos h]
  show (Action.zoom Prod.fst (fun m w => (m, w.2)) (Storage.memory.deleteEvent id)).perform w = _
  rw [Action.perform_zoom, hdelete]

/-- Every expired event is deleted, and nothing else. -/
theorem Unfolds.purging_alone {expired : List Event} (hnodup : (expired.map (·.id)).Nodup)
    (hthere : ∀ e ∈ expired, (w.1.store.events.get? e.id).isSome = true)
    (h : (alone settings broker).Unfolds Eq t (.purging expired) w deeds t' w') :
    (deeds = expired.map fun e => .deleted e (.ok ())) ∧
      w'.1 = { w.1 with store := { w.1.store with
        events := (expired.map (·.id)).foldl Table.erase w.1.store.events } } := by
  induction expired generalizing t w deeds with
  | nil =>
      obtain ⟨rfl, hdeeds, -⟩ := h.purging_nil
      exact ⟨hdeeds, rfl⟩
  | cons e expired ih =>
      obtain ⟨v, answer, w₁, rest, rfl, hdelete, rfl, hrest⟩ := h.purging_cons
      rw [alone_deletes (hthere e List.mem_cons_self)] at hdelete
      cases hdelete
      rw [List.map_cons, List.nodup_cons] at hnodup
      -- The other events are still there.
      have hthere' : ∀ x ∈ expired,
          ((w.1.store.events.erase e.id).get? x.id).isSome = true := by
        intro x hx
        have hne : e.id ≠ x.id := fun heq => hnodup.1 (heq ▸ List.mem_map_of_mem hx)
        rw [Table.get?_erase, if_neg hne]
        exact hthere x (List.mem_cons_of_mem e hx)
      obtain ⟨rfl, hmemory⟩ := ih hnodup.2 hthere' hrest
      exact ⟨rfl, hmemory⟩

/-- The broker does not reach the memory. -/
theorem keeps_alone_publish (m : MemoryState) (body : Bytes) :
    Storage.Keeps (fun w => w.1 = m)
      ((alone settings broker).broker.publish (alone settings broker).settings.publish body) :=
  fun _ h => h

/-- The events that have expired when a tick selects them are those that had expired before it
    announced any, and each of them is deleted. -/
theorem Unfolds.publishing_alone (hkeyed : w.1.store.events.KeyedBy Event.id) {due : List Event}
    (h : (alone settings broker).Unfolds Eq t (.publishing due) w deeds t' w') :
    let cutoff := t.now.monthsEarlier settings.retentionMonths
    ∃ announced, announced.map (·.1) = due ∧
      (∀ selected : Option (Except StorageError (List Event)),
        (selected.map Deed.selectedDue).toList ++ deeds =
          Log.deeds ⟨selected, announced, .ok (w.1.store.eventsBefore cutoff),
            (w.1.store.eventsBefore cutoff).map fun e => (e, .ok ())⟩) ∧
      w'.1 = w.1.without fun e => decide (e.beginning < cutoff) := by
  intro cutoff
  obtain ⟨announced, t₁, w₁, rest, hannounced, rfl, hnow, hmemory, hselect⟩ :=
    h.publishing (p := fun v => v.1 = w.1) (fun _ _ heq hv => heq ▸ hv)
      (keeps_alone_publish w.1) rfl
  obtain ⟨v, answer, w₂, rest, rfl, hanswer, rfl, hpurge⟩ := hselect.selectingExpired
  rw [alone_selectsExpired, hmemory, hnow] at hanswer
  cases hanswer
  have hthere : ∀ e ∈ w.1.store.eventsBefore cutoff,
      (w₁.1.store.events.get? e.id).isSome = true := by
    intro e he
    rw [hmemory, ((Store.mem_listWhere_iff hkeyed).mp he).1]
    rfl
  obtain ⟨rfl, hswept⟩ := hpurge.purging_alone (Store.nodup_listWhere hkeyed _) hthere
  refine ⟨announced, hannounced, fun selected => ?_, ?_⟩
  · rw [Log.deeds, Log.announcements, Log.deletions, List.map_map, List.append_assoc]
    rfl
  · rw [hswept, hmemory]
    exact congrArg (fun events => ({ w.1 with store := { w.1.store with events } } : MemoryState))
      (Store.foldl_erase_listWhere hkeyed _)

/-- The calls of a tick that is alone with the memory, but for what the broker answers. -/
theorem Unfolds.alone_log (hkeyed : w.1.store.events.KeyedBy Event.id)
    (h : (alone settings broker).Unfolds Eq t .selectingDue w deeds t' w') :
    let cutoff := t.now.monthsEarlier settings.retentionMonths
    ∃ log : Log, deeds = log.deeds ∧ log.Complete ∧
      (t.hasWindow = true → log.dueEvents = w.1.store.eventsDueBetween t.after t.now) ∧
      log.expiredEvents = w.1.store.eventsBefore cutoff ∧
      (log.deleted = log.expiredEvents.map fun e => (e, .ok ())) ∧
      w'.1 = w.1.without fun e => decide (e.beginning < cutoff) := by
  intro cutoff
  have hdeleted : ∀ events : List Event,
      (events.map fun e => (e, (.ok () : Except StorageError Unit))).map (·.1) = events := by
    intro events
    rw [List.map_map]
    exact List.map_id events
  rcases h.selectingDue with ⟨hwindow, v, rfl, hpublish⟩ |
    ⟨hwindow, v, answer, w₁, rest, rfl, hanswer, rfl, hpublish⟩
  · obtain ⟨announced, hannounced, hdeeds, hswept⟩ := hpublish.publishing_alone hkeyed
    exact ⟨_, hdeeds none, ⟨hannounced, hdeleted _⟩, fun hsome => by simp [hwindow] at hsome,
      rfl, rfl, hswept⟩
  · rw [alone_selectsDue] at hanswer
    cases hanswer
    obtain ⟨announced, hannounced, hdeeds, hswept⟩ := hpublish.publishing_alone hkeyed
    rw [Tick.note_now] at hdeeds hswept
    exact ⟨_, hdeeds (some (.ok (w.1.store.eventsDueBetween t.after t.now))),
      ⟨hannounced, hdeleted _⟩, fun _ => rfl, rfl, rfl, hswept⟩

/-- A broker that answers is all that such a scheduler needs. -/
theorem alone_answers (h : ∀ body, (broker.publish settings.publish body).Answers) :
    (alone settings broker).Answers where
  selectDue _ _ w := ⟨_, w, alone_selectsDue _ _⟩
  publish body := (h body).zoom Prod.snd fun b w => (w.1, b)
  selectExpired _ w := ⟨_, w, alone_selectsExpired _⟩
  delete _ _ := ⟨_, _, rfl⟩

/-- A tick that is alone with the memory removes the events that begin before the retention time
    and leaves everything else as it is, whatever the broker answers. It counts what it removes,
    and announces an event that is due as well before it deletes it. -/
theorem retention_sweep_is_exact (settings : Settings) (broker : Broker.Client β) (tally : Tally)
    (clock : Instant) {m : MemoryState} (hm : Storage.Reached m) (b : β) :
    let begun := Tick.begin settings tally clock
    let cutoff := clock.floorSecond.monthsEarlier settings.retentionMonths
    ((∀ body, (broker.publish settings.publish body).Answers) →
      ((alone settings broker).tick tally clock).Answers) ∧
    ∀ report tally' m' b',
      ((alone settings broker).tick tally clock).perform (m, b) =
          (.ok (report, tally'), (m', b')) →
        m'.store.users = m.store.users ∧
        (m'.store.events = m.store.events.filter fun entry =>
          !decide (entry.2.beginning < cutoff)) ∧
        report.purged = report.expired ∧
        m'.store.events.length + report.purged = m.store.events.length ∧
        ∃ deeds,
          (alone settings broker).Ticks Eq tally (m, b) ⟨clock, deeds, report⟩ tally' (m', b') ∧
          ∀ e, m.store.events.get? e.id = some e →
            begun.after.floorSecond < e.notification.floorSecond →
            e.notification.floorSecond ≤ clock.floorSecond → e.beginning < cutoff →
            ∃ before answer middle after, deeds =
              before ++ .announced e answer :: (middle ++ .deleted e (.ok ()) :: after) := by
  intro begun cutoff
  refine ⟨fun h => (alone_answers h).tick tally clock, fun report tally' m' b' h => ?_⟩
  obtain ⟨deeds, hticks⟩ := ticks_of_tick h
  have ⟨t, hunfolds, hreport, _⟩ := hticks
  dsimp only at hunfolds hreport
  obtain ⟨log, rfl, hcomplete, hdue, hexpired, hdeleted, hswept⟩ :=
    hunfolds.alone_log hm.events_keyed
  have hcount : report = log.report := hreport.trans (hunfolds.report_eq rfl)
  have hevents : m'.store.events = m.store.events.filter fun entry =>
      !decide (entry.2.beginning < cutoff) := congrArg (fun m => m.store.events) hswept
  -- Every deletion succeeds.
  have hpurged : report.purged = log.expiredEvents.length := by
    rw [hcount, Log.report, hdeleted, List.countP_map]
    exact List.countP_eq_length.mpr fun _ _ => rfl
  refine ⟨congrArg (fun m => m.store.users) hswept, hevents, hpurged.trans (by rw [hcount]; rfl),
    ?_, log.deeds, hticks, fun e hstored hafter hin hbefore => ?_⟩
  · rw [hevents, hpurged, hexpired]
    exact m.store.length_filter_add_listWhere fun e => decide (e.beginning < cutoff)
  · have hfound : e ∈ log.dueEvents := by
      rw [hdue (Tick.hasWindow_of_due (Instant.floorSecond_floorSecond clock) hafter hin)]
      refine (Store.mem_listWhere_iff hm.events_keyed).mpr ⟨hstored, ?_⟩
      have hin' : e.notification.floorSecond ≤ begun.now.floorSecond := by
        rw [show begun.now = clock.floorSecond from rfl, Instant.floorSecond_floorSecond]
        exact hin
      exact (Bool.and_eq_true _ _).mpr ⟨decide_eq_true hafter, decide_eq_true hin'⟩
    have hlisted : e ∈ log.expiredEvents := by
      rw [hexpired]
      exact (Store.mem_listWhere_iff hm.events_keyed).mpr ⟨hstored, decide_eq_true hbefore⟩
    rw [← hcomplete.announced] at hfound
    obtain ⟨a, ha, rfl⟩ := List.mem_map.mp hfound
    have hd : (a.1, .ok ()) ∈ log.deleted := hdeleted ▸ List.mem_map_of_mem hlisted
    obtain ⟨before, middle, after, hdeeds⟩ := Log.announced_before_deleted ha hd
    exact ⟨before, a.2, middle, after, hdeeds⟩

/-! ## An event that is due and expired -/

open Rehearsal (dueEvent secondOf1970)
open Sweep (promptSettings monthsEarlier_zero)

/-- The event of the rehearsal under the first id that a memory gives out. -/
def createdEvent : Event := dueEvent.toEventDraft.identified ({} : IdSource).next.1

/-- A memory in which that event has been created. -/
def createdMemory : MemoryState := ((Storage.memory.createEvent dueEvent.toEventDraft).perform {}).2

theorem createdMemory_events :
    createdMemory.store.events = [(createdEvent.id, createdEvent)] := rfl

theorem createdEvent_swept :
    ∃ report tally' m' b',
      ((alone promptSettings Broker.Client.memory).tick {} (secondOf1970 10)).perform
          (createdMemory, {}) = (.ok (report, tally'), (m', b')) ∧
        m'.store.events = [] ∧ report.purged = 1 ∧
        ∃ deeds, (alone promptSettings Broker.Client.memory).Ticks Eq {} (createdMemory, {})
            ⟨secondOf1970 10, deeds, report⟩ tally' (m', b') ∧
          ∃ before answer middle after, deeds = before ++ .announced createdEvent answer ::
            (middle ++ .deleted createdEvent (.ok ()) :: after) := by
  have hreached : Storage.Reached createdMemory := .createEvent (.empty {}) _
  obtain ⟨hanswers, hexact⟩ := retention_sweep_is_exact promptSettings Broker.Client.memory {}
    (secondOf1970 10) hreached {}
  obtain ⟨⟨report, tally'⟩, ⟨m', b'⟩, htick⟩ :=
    hanswers (fun _ _ => ⟨_, _, rfl⟩) (createdMemory, {})
  obtain ⟨-, hevents, -, hcount, deeds, hticks, horder⟩ := hexact report tally' m' b' htick
  have hbefore : createdEvent.beginning <
      (secondOf1970 10).floorSecond.monthsEarlier promptSettings.retentionMonths := by
    show _ < (secondOf1970 10).floorSecond.monthsEarlier 0
    rw [monthsEarlier_zero]
    decide
  have hnone : m'.store.events = [] := by
    rw [hevents, createdMemory_events]
    exact List.filter_cons_of_neg (by simpa using hbefore)
  rw [hnone, createdMemory_events] at hcount
  have hget : createdMemory.store.events.get? createdEvent.id = some createdEvent := by
    rw [createdMemory_events, Table.get?_cons, if_pos rfl]
  exact ⟨report, tally', m', b', htick, hnone, by simpa using hcount, deeds, hticks,
    horder createdEvent hget (by decide) (by decide) hbefore⟩

end Scheduler

end Almanac
