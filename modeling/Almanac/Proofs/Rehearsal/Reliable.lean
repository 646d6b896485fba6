/-
  Almanac.Proofs.Rehearsal.Reliable

  The scheduler of a rehearsal can rely on its storage, whatever faults are set: a call with
  a fault changes nothing and does not answer with events, and a call without one is the
  call of the storage in memory. Whatever others do to the calendar leaves the store as the
  scheduler needs it (`keepsAll_storage`).

  Two ticks are rehearsed: one that announces the event that is due (`trace_servedCalls`), and one
  that fails to select it, with and without a watermark for the next tick to begin at.
-/
import Almanac.Proofs.Scheduler.FailedSelection
import Almanac.Proofs.Storage.Keyed
import Almanac.Rehearsal.Task

namespace Almanac.Rehearsal

open Scheduler (Process Tick slot)
open Storage (Keeps KeepsAll)

variable {σ ε α : Type}

theorem perform_struck (fault : σ → Option (Fault ε)) (act : Action σ (Except ε α)) (w : σ) :
    (struck fault act).perform w =
      match fault w with
      | none => act.perform w
      | some (.fail e) => (.ok (.error e), w)
      | some .hang => (.error .never, w)
      | some .crash => (.error (.crash crashMessage), w) := by
  have hlook : (Action.look fault).perform w = (.ok (fault w), w) := rfl
  unfold struck
  rw [Action.perform_bind_of_ok hlook]
  cases fault w with
  | none => rfl
  | some f => cases f <;> rfl

/-- An operation with a fault leaves the state alone; without one it is the operation. -/
theorem struck_cases (fault : σ → Option (Fault ε)) (act : Action σ (Except ε α)) (w : σ) :
    (struck fault act).perform w = act.perform w ∨
      ((struck fault act).perform w).2 = w ∧
        ∀ a, ((struck fault act).perform w).1 ≠ .ok (.ok a) := by
  rw [perform_struck]
  cases fault w with
  | none => exact Or.inl rfl
  | some f => cases f <;> exact Or.inr ⟨rfl, fun a h => by simp at h⟩

theorem struck_ok {fault : σ → Option (Fault ε)} {act : Action σ (Except ε α)} {w w' : σ} {a : α}
    (h : (struck fault act).perform w = (.ok (.ok a), w')) : act.perform w = (.ok (.ok a), w') := by
  rcases struck_cases fault act w with heq | ⟨-, hne⟩
  · exact heq ▸ h
  · exact (hne a (congrArg Prod.fst h)).elim

theorem keeps_struck {good : σ → Prop} (fault : σ → Option (Fault ε))
    {act : Action σ (Except ε α)} (h : Keeps good act) : Keeps good (struck fault act) := by
  intro w hw
  rcases struck_cases fault act w with heq | ⟨heq, -⟩
  · rw [heq]
    exact h w hw
  · rw [heq]
    exact hw

theorem keepsAll_faulty {good : σ → Prop} (faults : σ → Faults) {storage : Storage σ}
    (h : storage.KeepsAll good) : (faultyStorage faults storage).KeepsAll good where
  createUser u := keeps_struck _ (h.createUser u)
  listUsers := keeps_struck _ h.listUsers
  deleteUser id := keeps_struck _ (h.deleteUser id)
  createEvent e := keeps_struck _ (h.createEvent e)
  listEvents := keeps_struck _ h.listEvents
  updateEvent e := keeps_struck _ (h.updateEvent e)
  deleteEvent id := keeps_struck _ (h.deleteEvent id)
  eventsIn window := keeps_struck _ (h.eventsIn window)
  eventsAt t := keeps_struck _ (h.eventsAt t)
  eventsDueBetween after limit := keeps_struck _ (h.eventsDueBetween after limit)
  eventsBefore t := keeps_struck _ (h.eventsBefore t)

theorem Faults.ofPublishing_eq_none {f : Faults} (h : f.broker .publish = none) (body : Bytes) :
    f.ofPublishing body = none := by
  unfold ofPublishing
  split
  · exact h
  · rfl

namespace World

/-- Publishing without a fault asks the broker in memory. -/
theorem perform_publish {w : World} (h : w.faults.broker .publish = none)
    (settings : Broker.PublishSettings) (body : Bytes) :
    (client.publish settings body).perform w =
      (.ok (w.broker.publish settings body).1,
        { w with broker := (w.broker.publish settings body).2 }) := by
  show (struck (fun v : World => v.faults.ofPublishing body) _).perform w = _
  rw [perform_struck, Faults.ofPublishing_eq_none h body]
  rfl

/-- The store of a world keeps each event under its id. -/
def Keyed (w : World) : Prop := w.memory.store.events.KeyedBy Event.id

/-- An event is in the store of a world. -/
def Stores (w : World) (e : Event) : Prop := e ∈ w.memory.store.events.values

/-- Whatever is done to the calendar, the events stay under their ids. -/
theorem keepsAll_storage (closed : Bool) : (storage closed).KeepsAll Keyed := by
  -- Faults and views change nothing about what the bare storage keeps.
  refine keepsAll_faulty World.faults ?_
  cases closed with
  | true => exact Storage.keepsAll_closedDatabase _
  | false => exact Storage.keepsAll_memory_events.zoom fun _ _ => rfl

/-- A selection that answers has looked into the store. -/
theorem eventsDueBetween_ok {closed : Bool} {w w' : World} {after limit : Instant}
    {due : List Event}
    (h : ((storage closed).eventsDueBetween after limit).perform w = (.ok (.ok due), w')) :
    due = w.memory.store.eventsDueBetween after limit := by
  have hbare := struck_ok h
  cases closed with
  | true => cases hbare
  | false => cases hbare; rfl

/-- The scheduler of a rehearsal relies on its storage with reason. -/
theorem reliable (w : World) (settings : Scheduler.Settings) :
    (w.scheduler settings).Reliable Keyed Stores where
  once v v' after limit due hv h := by
    rw [eventsDueBetween_ok h]
    exact Store.nodup_listWhere hv _
  matching v v' after limit due hv h e := by
    rw [eventsDueBetween_ok h, Store.eventsDueBetween, Store.mem_listWhere]
    simp only [Bool.and_eq_true, decide_eq_true_eq]
    rfl
  keepsDue v after limit hv := (keepsAll_storage _).eventsDueBetween after limit v hv
  keepsExpired v t hv := (keepsAll_storage _).eventsBefore t v hv
  keepsDeleted v id hv := (keepsAll_storage _).deleteEvent id v hv
  keepsPublished v body hv := by
    have hbare : Keeps Keyed (bareBroker.publish settings.publish body) := fun _ h => h
    exact keeps_struck _ hbare v hv

end World

/-! ## A selection in a rehearsal -/

/-- A second of the first day of 1970. -/
def secondOf1970 (n : Nat) : Instant := (Instant.of? 0 n 0).getD Instant.first

/-- An event that is due when 1970 begins. -/
def dueEvent : Event where
  id := "e"
  title := "standup"
  description := ""
  beginning := secondOf1970 0
  finish := secondOf1970 0
  notification := secondOf1970 0
  userId := "u"

theorem exists_of_isOk {ε α : Type} {r : Except ε α} (h : r.isOk = true) : ∃ a, r = .ok a := by
  cases r with
  | ok a => exact ⟨a, rfl⟩
  | error e => cases h

/-- Its announcement can be written. -/
theorem dueEvent_encodes : ∃ body, dueEvent.announcement.encode = .ok body :=
  exists_of_isOk (by decide +kernel)

/-- A world that stores that event alone. -/
def dueWorld : World where
  wall := dueEvent.notification
  memory := { store := { events := [("e", dueEvent)] } }

/-- The first tick at that time. -/
def dueTick : Tick := Tick.begin {} {} dueEvent.notification

theorem dueWorld_keyed : dueWorld.Keyed where
  names := by decide
  own id e h := by
    have hget := (Table.get?_cons "e" dueEvent [] id).symm.trans h
    split at hget
    · next hid =>
      obtain rfl := Option.some.inj hget
      exact hid
    · simp at hget

/-- The tick sees the event in its window. -/
theorem dueWorld_selection :
    dueWorld.memory.store.eventsDueBetween dueTick.after dueTick.now = [dueEvent] :=
  Store.eventsDueBetween_single rfl (by decide) (by decide)

/-- A selection in a world that can be asked answers what the store lists. -/
theorem eventsDueBetween_answered {u w : World} (settings : Scheduler.Settings)
    (hopen : u.closedDatabase = false) (hcalm : w.faults = {}) (after limit : Instant) :
    ((u.scheduler settings).calendar.eventsDueBetween after limit).perform w =
      (.ok (.ok (w.memory.store.eventsDueBetween after limit)), w) := by
  rw [World.scheduler, hopen]
  show (struck (fun v : World => v.faults.storage .eventsDueBetween) _).perform w = _
  rw [perform_struck, hcalm]
  rfl

/-- The tick finds the event in any world that stores it alone and can be asked. -/
theorem dueTick_finds {u w : World} {settings : Scheduler.Settings}
    (hstores : w.memory = dueWorld.memory) (hopen : u.closedDatabase = false)
    (hcalm : w.faults = {}) :
    ((u.scheduler settings).step dueTick .selectingDue).perform w =
      (.ok ({ dueTick with through := some dueTick.now, report := { due := 1 } },
        some (.publishing [dueEvent])), w) := by
  have hanswer := eventsDueBetween_answered settings hopen hcalm dueTick.after dueTick.now
  rw [hstores, dueWorld_selection] at hanswer
  have hwindow : dueTick.hasWindow = true := by decide
  exact (Scheduler.step_of_call _ (Scheduler.call?_selectingDue _ hwindow) hanswer).1

/-- A broker with the queue that is used unless another is chosen. -/
def servedBroker : Broker.State Bytes where
  connected := true
  queues := [(Broker.defaultQueue, { settings := {} })]

/-- The world with that event, over such a broker. -/
def servedWorld : World := { dueWorld with broker := servedBroker }

/-- The scheduler of that world before its first tick. -/
def servedStart : Process World := { world := servedWorld, tally := {} }

/-- The calls of a tick that finds the event and hands its announcement to the broker. -/
def servedCalls : List (World × Scheduler.Deed) :=
  [(servedWorld, .selectedDue (.ok [dueEvent])), (servedWorld, .announced dueEvent (.ok ()))]

/-- One tick makes these calls. -/
theorem trace_servedCalls :
    ∃ p, Process.Trace (servedWorld.scheduler {}) World.Keyed servedStart servedCalls p ∧
      p.attempts = [dueEvent.announcement] ∧
      p.selections = [⟨dueTick.after, dueTick.now, servedWorld, [dueEvent]⟩] := by
  obtain ⟨body, hencode⟩ := dueEvent_encodes
  have hwindow : dueTick.hasWindow = true := by decide
  have hfinds : ((servedWorld.scheduler {}).calendar.eventsDueBetween dueTick.after
      dueTick.now).perform servedWorld = (.ok (.ok [dueEvent]), servedWorld) := by
    rw [← dueWorld_selection]
    exact eventsDueBetween_answered {} rfl rfl _ _
  have hannounces := Scheduler.announce_of_publish (servedWorld.scheduler {}) hencode
    (World.perform_publish (w := servedWorld) rfl {} body)
  -- The tick begins, selects and announces, and each of the calls joins the trace.
  have hbegun : Process.Trace (servedWorld.scheduler {}) World.Keyed servedStart []
      { servedStart with current := some (dueTick, .selectingDue) } :=
    .begin .start dueEvent.notification rfl
  have hselected := hbegun.call rfl (Scheduler.call?_selectingDue _ hwindow) hfinds
  exact ⟨_, hselected.call rfl rfl hannounces, rfl, rfl⟩

/-- The event is attempted once, by a call that hands its announcement to the broker. -/
theorem dueEvent_attempted_once :
    ∃ p : Process World,
      Process.Run (servedWorld.scheduler {}) World.Keyed servedStart p ∧
      p.attempts = [dueEvent.announcement] ∧
      (p.attempts ++ p.pending).filter (fun n => slot n = slot dueEvent.announcement) =
        [dueEvent.announcement] ∧
      p.attempts = servedCalls.filterMap (fun call => call.2.announcement?) ∧
      ∃ body w', dueEvent.announcement.encode = .ok body ∧
        (World.client.publish {} body).perform servedWorld = (.ok (.ok ()), w') := by
  obtain ⟨p, htrace, hattempted, hselections⟩ := trace_servedCalls
  have hkeyed : servedWorld.Keyed := dueWorld_keyed
  obtain ⟨-, -, -, -, honce, -, hcalls, -⟩ :=
    Scheduler.slots_attempted_once (servedWorld.reliable {}) hkeyed {} htrace.run
  obtain ⟨hattempts, hannounced⟩ := hcalls _ htrace
  have hfilter := honce ⟨dueTick.after, dueTick.now, servedWorld, [dueEvent]⟩
    (by rw [hselections]; exact List.mem_singleton.mpr rfl) dueEvent
    (List.mem_singleton.mpr rfl) ⟨by decide, by decide⟩
  obtain ⟨w', -, ⟨cause, hrefused, -⟩ | ⟨body, reply, hencode, hpublish, hreply⟩⟩ :=
    hannounced servedWorld dueEvent (.ok ()) (List.mem_cons_of_mem _ (List.mem_singleton.mpr rfl))
  · -- The announcement can be written.
    obtain ⟨body, hencode⟩ := dueEvent_encodes
    rw [hencode] at hrefused
    cases hrefused
  · cases reply with
    | ok _ => exact ⟨p, htrace.run, hattempted, hfilter, hattempts, body, w', hencode, hpublish⟩
    | error cause => cases hreply

/-! ## A first tick that fails -/

/-- Ten seconds later. -/
def laterSecond : Instant := secondOf1970 10

/-- A scheduler that looks back no further than its own second. -/
def shortSighted : Scheduler World := dueWorld.scheduler { catchUp := 0 }

/-- The same world, with a storage that cannot be reached. -/
def brokenWorld : World :=
  { dueWorld with faults := { storage := fun _ => some (.fail (.refused "down")) } }

section

variable (tally : Scheduler.Tally)

/-- A tick of that scheduler when 1970 begins. -/
def firstTick : Tick := Tick.begin shortSighted.settings tally dueEvent.notification

/-- The scheduler when that tick is about to select. -/
def beforeFailure : Process World where
  world := brokenWorld
  tally
  current := some (firstTick tally, .selectingDue)

/-- The tick when its selections have failed. -/
def failedTick : Tick :=
  ((firstTick tally).note (.selectedDue (.error (.refused "down")))).note
    (.selectedExpired (.error (.refused "down")))

/-- The scheduler after that tick. -/
def afterFailure : Process World where
  world := brokenWorld
  tally := (failedTick tally).recorded tally

/-- The next tick, when the storage is back. -/
def nextTick : Tick := Tick.begin shortSighted.settings (afterFailure tally).tally laterSecond

/-- The scheduler when its next tick is about to select. -/
def beforeSuccess : Process World :=
  { afterFailure tally with world := dueWorld, current := some (nextTick tally, .selectingDue) }

theorem run_beforeFailure :
    Process.Run shortSighted World.Keyed { world := brokenWorld, tally } (beforeFailure tally) :=
  .single (.begin dueEvent.notification rfl)

/-- The first tick fails, the storage comes back, and the next tick begins. -/
theorem run_beforeSuccess (hwindow : (firstTick tally).hasWindow = true) :
    Process.Run shortSighted World.Keyed (beforeFailure tally) (beforeSuccess tally) := by
  have hdue := (Scheduler.step_of_call shortSighted (w := brokenWorld)
    (Scheduler.call?_selectingDue _ hwindow) rfl).1
  have hexpired : (shortSighted.step ((firstTick tally).note
      (.selectedDue (.error (.refused "down")))) .selectingExpired).perform brokenWorld =
        (.ok (failedTick tally, some (.purging [])), brokenWorld) := rfl
  have hended : (shortSighted.step (failedTick tally) (.purging [])).perform brokenWorld =
      (.ok (failedTick tally, none), brokenWorld) := rfl
  refine .head (.work rfl hdue) (.head (.work rfl rfl) (.head (.work rfl hexpired) ?_))
  refine .head (.work rfl hended) (.head (.interfere dueWorld dueWorld_keyed) ?_)
  exact .single (.begin laterSecond rfl)

/-- The next tick asks, and is told what the store lists. -/
theorem nextTick_answered :
    (shortSighted.calendar.eventsDueBetween (nextTick tally).after (nextTick tally).now).perform
        (beforeSuccess tally).world =
      (.ok (.ok (dueWorld.memory.store.eventsDueBetween (nextTick tally).after
        (nextTick tally).now)), (beforeSuccess tally).world) :=
  eventsDueBetween_answered _ rfl rfl _ _

end

/-- Without a watermark the next window begins too late for the event. -/
theorem nextTick_misses :
    dueWorld.memory.store.eventsDueBetween (nextTick {}).after (nextTick {}).now = [] := by
  rw [Store.eventsDueBetween, Store.listWhere_single rfl]
  exact if_neg (by decide)

/-- The first tick fails with an event in its window that the next one, which succeeds, does not
    find, though it is still stored. -/
theorem first_failure_loses_event :
    ∃ (p q : Process World) (t u : Tick),
      Process.Run shortSighted World.Keyed { world := brokenWorld, tally := {} } p ∧
      p.current = some (t, .selectingDue) ∧
      (shortSighted.calendar.eventsDueBetween t.after t.now).perform p.world =
        (.ok (.error (.refused "down")), p.world) ∧
      Process.Run shortSighted World.Keyed p q ∧ q.selections = p.selections ∧
      q.current = some (u, .selectingDue) ∧ t.now ≤ u.now ∧
      (shortSighted.calendar.eventsDueBetween u.after u.now).perform q.world =
        (.ok (.ok []), q.world) ∧
      q.world.Stores dueEvent ∧ t.after < dueEvent.notification.floorSecond ∧
      dueEvent.notification.floorSecond ≤ t.now := by
  refine ⟨beforeFailure {}, beforeSuccess {}, firstTick {}, nextTick {}, run_beforeFailure {}, rfl,
    rfl, run_beforeSuccess {} (by decide), rfl, rfl, by decide, ?_, List.mem_singleton.mpr rfl,
    by decide, by decide⟩
  rw [← nextTick_misses]
  exact nextTick_answered {}

/-- Ten seconds before 1970 everything has been handled. -/
def coveredTally : Scheduler.Tally :=
  { coveredUntil := some ((Instant.of? (-1) 86390 0).getD Instant.first) }

/-- With a watermark the next window begins there, and the tick finds the event. -/
theorem nextTick_catches :
    dueWorld.memory.store.eventsDueBetween (nextTick coveredTally).after
      (nextTick coveredTally).now = [dueEvent] :=
  Store.eventsDueBetween_single rfl (by decide) (by decide)

/-- The scheduler when its next tick has found the event. -/
def afterSuccess : Process World :=
  (beforeSuccess coveredTally).advance (nextTick coveredTally) .selectingDue
    ((nextTick coveredTally).note (.selectedDue (.ok [dueEvent]))) (some (.publishing [dueEvent]))
    dueWorld

theorem step_afterSuccess :
    Process.Step shortSighted World.Keyed (beforeSuccess coveredTally) afterSuccess := by
  have hwindow : (nextTick coveredTally).hasWindow = true := by decide
  have hanswer := nextTick_answered coveredTally
  rw [nextTick_catches] at hanswer
  exact .work rfl (Scheduler.step_of_call _ (Scheduler.call?_selectingDue _ hwindow) hanswer).1

/-- The announcement is attempted, though the broker is not connected. -/
theorem run_attempted :
    ∃ r, Process.Run shortSighted World.Keyed afterSuccess r ∧
      r.attempts = [dueEvent.announcement] := by
  obtain ⟨body, hencode⟩ := dueEvent_encodes
  have hannounce := shortSighted.announce_of_publish hencode
    (World.perform_publish (w := dueWorld) rfl {} body)
  exact ⟨_, .single (.work rfl (Scheduler.step_of_call _ rfl hannounce).1), rfl⟩

/-- The tick after a failed one makes up for it if there was a watermark, and then announces the
    event. Without a watermark it does not. -/
theorem failure_made_up_when_covered :
    (¬∀ i : Instant, (firstTick {}).after < i.floorSecond → i.floorSecond ≤ (firstTick {}).now →
      (nextTick {}).after < i.floorSecond ∧ i.floorSecond ≤ (nextTick {}).now) ∧
    ((∀ i : Instant, (firstTick coveredTally).after < i.floorSecond →
        i.floorSecond ≤ (firstTick coveredTally).now →
        (nextTick coveredTally).after < i.floorSecond ∧
          i.floorSecond ≤ (nextTick coveredTally).now) ∧
      ∃ r : Process World,
        Process.Run shortSighted World.Keyed { world := brokenWorld, tally := coveredTally }
          (beforeFailure coveredTally) ∧
        Process.Run shortSighted World.Keyed (beforeFailure coveredTally)
          (beforeSuccess coveredTally) ∧
        (∃ due, (shortSighted.calendar.eventsDueBetween (nextTick coveredTally).after
          (nextTick coveredTally).now).perform (beforeSuccess coveredTally).world =
            (.ok (.ok due), (beforeSuccess coveredTally).world) ∧ dueEvent ∈ due) ∧
        Process.Run shortSighted World.Keyed (beforeSuccess coveredTally) r ∧
        r.attempts = [dueEvent.announcement] ∧
        (r.attempts ++ r.pending).filter (fun n => slot n = slot dueEvent.announcement) =
          [dueEvent.announcement]) := by
  have hgood : brokenWorld.Keyed := dueWorld_keyed
  constructor
  · have hiff := (Scheduler.makes_up_iff (dueWorld.reliable { catchUp := 0 }) hgood {}
      (run_beforeFailure {}) rfl (by decide) (run_beforeSuccess {} (by decide))
      rfl rfl (by decide)).1
    rw [hiff]
    decide
  · obtain ⟨hiff, hfinds⟩ := Scheduler.makes_up_iff (dueWorld.reliable { catchUp := 0 }) hgood
      coveredTally (run_beforeFailure coveredTally) rfl (by decide)
      (run_beforeSuccess coveredTally (by decide)) rfl rfl (by decide)
    obtain ⟨r, hrun, hattempts⟩ := run_attempted
    obtain ⟨hlisted, honce⟩ := hfinds (Or.inl rfl) dueEvent (List.mem_singleton.mpr rfl)
      (by decide) (by decide)
    have hnew : afterSuccess.selections ≠ (beforeSuccess coveredTally).selections :=
      List.cons_ne_nil _ _
    have hanswer := nextTick_answered coveredTally
    exact ⟨hiff.mpr (Or.inl rfl), r, run_beforeFailure _, run_beforeSuccess _ (by decide),
      ⟨_, hanswer, hlisted _ _ hanswer⟩, .head step_afterSuccess hrun, hattempts,
      honce _ r step_afterSuccess hnew hrun⟩

end Almanac.Rehearsal
