/-
  Almanac.Proofs.Scheduler.Sweep

  The retention sweep of one tick while others use the calendar. A tick selects the expired
  events with one call and deletes each by its id with a later one, so it deletes whatever
  stands under the id by then. `Sweep` is the tick beside other clients of the calendar, with
  books of what it selected and of what the others have written since.

  What the tick deletes is an event that it selected, and that nobody has written since, or it
  is the last write of somebody else (`purged_or_overwritten`). So an event that has been moved
  out of the expired time between selection and deletion is lost (`moved_event_is_lost`).
-/
import Almanac.Proofs.Calendar.Refinement
import Almanac.Proofs.Pipeline.Step
import Almanac.Proofs.Rehearsal.Reliable
import Almanac.Proofs.Time.Notation
import Almanac.Proofs.Time.Window

namespace Almanac

open Calendar (Request Response)
open Scheduler (Stage Tick)
open Storage (MemoryState)

/-! ## What a request writes -/

/-- The event that a request puts into the store, going by its response. -/
def Calendar.Request.put? : Request → Response → Option Event
  | .createEvent e, .ok (.ok (.created id)) => some (e.rounded.identified id)
  | .updateEvent e, .ok (.ok .done) => some e.rounded
  | _, _ => none

namespace Calendar

/-- What a request has done to the events, going by what it put: an event took the place of
    the one with its id, or at most one event is gone. -/
def Puts (m m' : MemoryState) : Option Event → Prop
  | some e => m'.store.events = m.store.events.insert e.id e
  | none => m'.store.events = m.store.events ∨ ∃ id, m'.store.events = m.store.events.erase id

variable {m m' : MemoryState} {response : Response}

/-- The storage is not asked, or only looked at. -/
theorem puts_refl (m : MemoryState) : Puts m m none := Or.inl rfl

/-- Records stay under their own ids. -/
theorem Puts.keyed {put : Option Event} (h : Puts m m' put)
    (hm : m.store.events.KeyedBy Event.id) : m'.store.events.KeyedBy Event.id := by
  match put, h with
  | some e, h =>
      rw [h]
      exact hm.insert rfl
  | none, Or.inl h => rwa [h]
  | none, Or.inr ⟨id, h⟩ =>
      rw [h]
      exact hm.erase id

/-- What stands under an id afterwards was put there, or stood there before. -/
theorem Puts.get? {put : Option Event} (h : Puts m m' put) {id : String} {x : Event}
    (hx : m'.store.events.get? id = some x) :
    (put = some x ∧ x.id = id) ∨ ((∀ e, put = some e → e.id ≠ id) ∧
      m.store.events.get? id = some x) := by
  match put, h with
  | some e, h =>
      rw [h, Table.get?_insert] at hx
      split at hx
      · next hid =>
        obtain rfl := Option.some.inj hx
        exact Or.inl ⟨rfl, hid⟩
      · next hid => exact Or.inr ⟨fun e' he => Option.some.inj he ▸ hid, hx⟩
  | none, Or.inl h => exact Or.inr ⟨fun _ he => by simp at he, h ▸ hx⟩
  | none, Or.inr ⟨gone, h⟩ =>
      rw [h, Table.get?_erase] at hx
      split at hx
      · simp at hx
      · exact Or.inr ⟨fun _ he => by simp at he, hx⟩

theorem puts_createEvent {e : EventDraft}
    (h : (inMemory.serve (.createEvent e)).perform m = (response, m')) :
    Puts m m' ((Request.createEvent e).put? response) := by
  rcases hfault : e.fault? with - | fault
  · rw [serve_createEvent_of_valid hfault] at h
    cases h
    rfl
  · rw [serve_createEvent_of_fault hfault] at h
    cases h
    exact puts_refl m

theorem puts_updateEvent {e : Event}
    (h : (inMemory.serve (.updateEvent e)).perform m = (response, m')) :
    Puts m m' ((Request.updateEvent e).put? response) := by
  rcases hfault : e.toEventDraft.fault? with - | fault
  · rw [serve_updateEvent_of_valid hfault] at h
    by_cases hthere : (m.store.events.get? e.id).isSome = true
    · rw [perform_change (if_pos hthere)] at h
      cases h
      rfl
    · rw [perform_change_refused (if_neg hthere)] at h
      cases h
      exact puts_refl m
  · rw [serve_updateEvent_of_fault hfault] at h
    cases h
    exact puts_refl m

/-- A change that brings no event. -/
theorem puts_change {f : Store → Except StorageError Store}
    (hf : ∀ s s', f s = .ok s' → s'.events = s.events ∨ ∃ id, s'.events = s.events.erase id)
    (h : (respond (fun _ => .done) (Storage.change f)).perform m = (response, m')) :
    Puts m m' none := by
  rcases hstore : f m.store with fault | store
  · rw [perform_change_refused hstore] at h
    cases h
    exact puts_refl m
  · rw [perform_change hstore] at h
    cases h
    exact hf m.store store hstore

theorem puts_deleteUser {id : String}
    (h : (inMemory.serve (.deleteUser id)).perform m = (response, m')) : Puts m m' none := by
  refine puts_change (f := (·.deleteUser id)) (fun s s' hs => ?_) h
  obtain ⟨-, rfl⟩ := Store.deleteUser_eq_ok hs
  exact Or.inl rfl

theorem puts_deleteEvent {id : String}
    (h : (inMemory.serve (.deleteEvent id)).perform m = (response, m')) : Puts m m' none := by
  refine puts_change (f := (·.deleteEvent id)) (fun s s' hs => ?_) h
  obtain ⟨-, rfl⟩ := Store.deleteEvent_eq_ok hs
  exact Or.inr ⟨id, rfl⟩

theorem puts_select {which : Selection}
    (h : (inMemory.serve (.select which)).perform m = (response, m')) : Puts m m' none := by
  have hwindow : ∀ window, inMemory.select which = Storage.memory.eventsOfWindow window →
      Puts m m' none := by
    intro window hselect
    rw [serve, hselect] at h
    cases window <;> cases h <;> exact puts_refl m
  cases which with
  | day t => exact hwindow (Window.day? t) rfl
  | week t => exact hwindow (Window.week? t) rfl
  | month t => exact hwindow (Window.month? t) rfl
  | _ => cases h; exact puts_refl m

/-- Whatever is asked of the calendar, the events afterwards are as the response says. -/
theorem puts_of_serve {request : Request}
    (h : (inMemory.serve request).perform m = (response, m')) :
    Puts m m' (request.put? response) := by
  cases request with
  | createUser u => cases h; exact puts_refl m
  | listUsers => cases h; exact puts_refl m
  | deleteUser id => exact puts_deleteUser h
  | createEvent e => exact puts_createEvent h
  | updateEvent e => exact puts_updateEvent h
  | deleteEvent id => exact puts_deleteEvent h
  | select which => exact puts_select h

end Calendar

/-! ## What a step of a tick does to the store -/

/-- The id of the event that a tick at some stage is about to delete. -/
def Scheduler.Stage.victim? : Stage → Option String
  | .purging (e :: _) => some e.id
  | _ => none

/-- The events that a tick at some stage is still going to delete. -/
def Scheduler.Stage.expired : Stage → List Event
  | .purging expired => expired
  | _ => []

/-- A selection of expired events that finds some has looked into the storage. -/
theorem Scheduler.selectExpired_found {σ : Type} (s : Scheduler σ) {t t' : Tick}
    {expired : List Event} {w w' : σ}
    (h : (s.selectExpired t).perform w = (.ok (t', expired), w')) :
    expired = [] ∨
      (s.calendar.eventsBefore (t.now.monthsEarlier s.settings.retentionMonths)).perform w =
        (.ok (.ok expired), w') := by
  unfold selectExpired at h
  obtain ⟨r, w₁, hselect, h⟩ := Action.perform_bind_eq_ok.mp h
  cases r with
  | ok _ => cases h; exact Or.inr hselect
  | error e => cases h; exact Or.inl rfl

/-- Whether or not there is an event to delete, none is left under the id. -/
theorem Storage.perform_deleteEvent (m : MemoryState) (id : String) :
    ((Storage.memory.deleteEvent id).perform m).2.store.events = m.store.events.erase id := by
  show ((Storage.change (·.deleteEvent id)).perform m).2.store.events = _
  rw [Storage.change, Action.perform_update]
  by_cases hthere : (m.store.events.get? id).isSome = true
  · rw [Store.deleteEvent, if_pos hthere]
  · rw [Store.deleteEvent, if_neg hthere]
    exact (Table.erase_of_get?_none (by simpa using hthere)).symm

namespace Site

variable {settings : Scheduler.Settings} {t t' : Tick} {stage : Stage} {next : Option Stage}
  {w w' : Site MemoryState}

/-- Every step of a tick keeps its second. -/
theorem now_of_step
    (h : ((scheduler Storage.memory settings).step t stage).perform w = (.ok (t', next), w')) :
    t'.now = t.now := by
  have hdoes := Scheduler.does_of_step _ h
  clear h
  match stage, hdoes with
  | .selectingDue, ⟨due, _, hselect⟩ =>
      rcases Scheduler.selectDue_cases _ hselect with ⟨-, -, hnow, -⟩ | ⟨-, -, hsame, -⟩ |
        ⟨-, -, hsame, -⟩
      · exact hnow
      · exact hsame.1
      · rw [hsame]
  | .publishing (_ :: _), ⟨_, hpublish⟩ => exact (Scheduler.publishOne_cases _ hpublish).1.1
  | .publishing [], ⟨_, hsame, _⟩ => rw [hsame]
  | .selectingExpired, ⟨_, _, hselect⟩ => exact (Scheduler.selectExpired_cases _ hselect).1.1
  | .purging (_ :: _), ⟨_, hpurge⟩ => exact (Scheduler.purgeOne_cases _ hpurge).1.1
  | .purging [], ⟨_, hsame, _⟩ => rw [hsame]

/-- A step of a tick leaves the memory alone, or it deletes the event in front by its id. -/
theorem store_of_step
    (h : ((scheduler Storage.memory settings).step t stage).perform w = (.ok (t', next), w')) :
    (stage.victim? = none ∧ w'.storage = w.storage) ∨
      ∃ id, stage.victim? = some id ∧
        w'.storage.store.events = w.storage.store.events.erase id := by
  have hdoes := Scheduler.does_of_step _ h
  clear h
  match stage, hdoes with
  | .selectingDue, ⟨due, _, hselect⟩ =>
      refine Or.inl ⟨rfl, ?_⟩
      rcases Scheduler.selectDue_cases _ hselect with ⟨-, hanswer, -⟩ | ⟨-, -, -, e, hanswer, -⟩ |
        ⟨-, -, -, hw⟩
      · cases hanswer
        rfl
      · cases hanswer
      · rw [hw]
  | .publishing (e :: due), ⟨_, hpublish⟩ =>
      obtain ⟨-, r, hannounce⟩ := Scheduler.publishOne_cases _ hpublish
      refine Or.inl ⟨rfl, ?_⟩
      rcases Scheduler.announce_cases _ hannounce with ⟨-, -, -, hw⟩ |
        ⟨body, answer, -, hsent, -⟩
      · rw [hw]
      · cases hsent
        rfl
  | .publishing [], ⟨_, _, hw⟩ => exact Or.inl ⟨rfl, by rw [hw]⟩
  | .selectingExpired, ⟨expired, _, hselect⟩ =>
      obtain ⟨-, r, hanswer⟩ := Scheduler.selectExpired_cases _ hselect
      cases hanswer
      exact Or.inl ⟨rfl, rfl⟩
  | .purging (e :: expired), ⟨_, hpurge⟩ =>
      obtain ⟨-, r, hanswer⟩ := Scheduler.purgeOne_cases _ hpurge
      refine Or.inr ⟨e.id, rfl, ?_⟩
      have hstorage : w'.storage = ((Storage.memory.deleteEvent e.id).perform w.storage).2 :=
        congrArg (fun result => result.2.storage) hanswer.symm
      rw [hstorage, Storage.perform_deleteEvent]
  | .purging [], ⟨_, _, hw⟩ => exact Or.inl ⟨rfl, by rw [hw]⟩

/-- What a tick selects for deletion stands in the store and has expired. -/
theorem expired_of_selection
    (h : ((scheduler Storage.memory settings).step t .selectingExpired).perform w =
      (.ok (t', next), w'))
    (hkeyed : w.storage.store.events.KeyedBy Event.id) {stage' : Stage}
    (hnext : next = some stage') {e : Event} (he : e ∈ stage'.expired) :
    w.storage.store.events.get? e.id = some e ∧
      e.beginning < t.now.monthsEarlier settings.retentionMonths := by
  obtain ⟨expired, hstage, hselect⟩ := Scheduler.does_of_step _ h
  obtain rfl : stage' = .purging expired := Option.some.inj (hnext.symm.trans hstage)
  rcases Scheduler.selectExpired_found _ hselect with rfl | hanswer
  · simp [Stage.expired] at he
  · cases hanswer
    have hlisted := (Store.mem_listWhere_iff hkeyed).mp he
    exact ⟨hlisted.1, of_decide_eq_true hlisted.2⟩

/-- What a tick is still going to delete was so before the step, or has just been selected. -/
theorem pending_of_step
    (h : ((scheduler Storage.memory settings).step t stage).perform w = (.ok (t', next), w'))
    {stage' : Stage} (hnext : next = some stage') {e : Event} (he : e ∈ stage'.expired) :
    e ∈ stage.expired ∨ stage = .selectingExpired := by
  have hdoes := Scheduler.does_of_step _ h
  clear h
  subst hnext
  match stage, hdoes with
  | .selectingDue, ⟨_, hnext, _⟩ => cases hnext; cases he
  | .publishing (_ :: _), ⟨hnext, _⟩ => cases hnext; cases he
  | .publishing [], ⟨hnext, _⟩ => cases hnext; cases he
  | .selectingExpired, _ => exact Or.inr rfl
  | .purging (_ :: _), ⟨hnext, _⟩ =>
      cases hnext
      exact Or.inl (List.mem_cons_of_mem _ he)
  | .purging [], ⟨hnext, _⟩ => cases hnext

end Site

/-! ## The sweep -/

/-- A tick beside other clients of the calendar. -/
structure Sweep where
  site : Site MemoryState
  tick : Tick
  /-- What the tick does next, until it ends. -/
  stage : Option Stage
  /-- The events as they were when the tick selected those to delete, or when it began, as long
      as it has not. -/
  seen : Table Event
  /-- What others have written since then, the latest first. -/
  written : List Event := []

namespace Sweep

/-- The tick begins when the clock reads `clock`. -/
def start (site : Site MemoryState) (settings : Scheduler.Settings) (tally : Scheduler.Tally)
    (clock : Instant) : Sweep where
  site
  tick := Tick.begin settings tally clock
  stage := some .selectingDue
  seen := site.storage.store.events

/-- The last event that others have written under an id. -/
def lastWrite? (s : Sweep) (id : String) : Option Event := s.written.find? (·.id == id)

/-- The event that stands under an id. -/
def stored? (s : Sweep) (id : String) : Option Event := s.site.storage.store.events.get? id

/-- The events that the tick is still going to delete. -/
def pending (s : Sweep) : List Event := (s.stage.map Stage.expired).getD []

/-- The sweep after a request of another client. -/
def asked (s : Sweep) (request : Request) (response : Response) (m : MemoryState) : Sweep :=
  { s with
    site := { s.site with storage := m }
    written := (request.put? response).toList ++ s.written }

/-- The sweep after a call of the tick. Selecting begins new books. -/
def advance (s : Sweep) (stage : Stage) (tick : Tick) (next : Option Stage)
    (site : Site MemoryState) : Sweep :=
  match stage with
  | .selectingExpired => { site, tick, stage := next, seen := s.site.storage.store.events }
  | _ => { s with site, tick, stage := next }

/-- One call: of the tick, of somebody who uses the calendar, or of somebody who uses the
    broker. -/
inductive Step (settings : Scheduler.Settings) : Sweep → Sweep → Prop
  | ask {s : Sweep} {request : Request} {response : Response} {m : MemoryState}
      (hcall : (Calendar.inMemory.serve request).perform s.site.storage = (response, m)) :
      Step settings s (s.asked request response m)
  | interfere {s : Sweep} (broker : Broker.State Bytes) :
      Step settings s { s with site := { s.site with broker } }
  | work {s : Sweep} {stage : Stage} {tick : Tick} {next : Option Stage}
      {site : Site MemoryState} (hstage : s.stage = some stage)
      (hcall : ((Site.scheduler Storage.memory settings).step s.tick stage).perform s.site =
        (.ok (tick, next), site)) :
      Step settings s (s.advance stage tick next site)

/-- Any number of calls. -/
def Run (settings : Scheduler.Settings) : Sweep → Sweep → Prop :=
  Relation.ReflTransGen (Step settings)

/-- What holds all through a sweep whose tick is in the second `now`: what is still to be deleted
    was seen and had expired, and what stands under an id is the last write of somebody else,
    or what was seen there if nobody has written. -/
structure Traced (settings : Scheduler.Settings) (now : Instant) (s : Sweep) : Prop where
  second : s.tick.now = now
  keyed : s.site.storage.store.events.KeyedBy Event.id
  pending : ∀ e ∈ s.pending, s.seen.get? e.id = some e ∧
    e.beginning < now.monthsEarlier settings.retentionMonths
  stored : ∀ id x, s.stored? id = some x →
    s.lastWrite? id = some x ∨ (s.lastWrite? id = none ∧ s.seen.get? id = some x)

namespace Traced

variable {settings : Scheduler.Settings} {now : Instant} {s : Sweep}

theorem start {site : Site MemoryState} (hkeyed : site.storage.store.events.KeyedBy Event.id)
    (tally : Scheduler.Tally) (clock : Instant) :
    Traced settings clock.floorSecond (Sweep.start site settings tally clock) where
  second := rfl
  keyed := hkeyed
  pending e he := by cases he
  stored id x hx := Or.inr ⟨rfl, hx⟩

/-- A request of somebody else writes one event at most, and the books name it. -/
theorem ask (h : Traced settings now s) {request : Request} {response : Response}
    {m : MemoryState}
    (hcall : (Calendar.inMemory.serve request).perform s.site.storage = (response, m)) :
    Traced settings now (s.asked request response m) where
  second := h.second
  keyed := (Calendar.puts_of_serve hcall).keyed h.keyed
  pending := h.pending
  stored id x hx := by
    show ((request.put? response).toList ++ s.written).find? (·.id == id) = some x ∨
      (((request.put? response).toList ++ s.written).find? (·.id == id) = none ∧ _)
    rcases (Calendar.puts_of_serve hcall).get? hx with ⟨hput, hid⟩ | ⟨hother, hold⟩
    · rw [hput]
      exact Or.inl (by simp [hid])
    · -- What was put, if anything, stands under another id.
      have hskip : ((request.put? response).toList ++ s.written).find? (·.id == id) =
          s.lastWrite? id := by
        rcases hput : request.put? response with - | y
        · rfl
        · exact List.find?_cons_of_neg (by simpa using hother y hput)
      rw [hskip]
      exact h.stored id x hold

/-- The selection begins new books, with what stands in the store. -/
theorem select (h : Traced settings now s) {tick : Tick} {next : Option Stage}
    {site : Site MemoryState}
    (hcall : ((Site.scheduler Storage.memory settings).step s.tick .selectingExpired).perform
      s.site = (.ok (tick, next), site)) :
    Traced settings now (s.advance .selectingExpired tick next site) := by
  have hstorage : site.storage = s.site.storage := by
    rcases Site.store_of_step hcall with ⟨-, hsame⟩ | ⟨id, hvictim, -⟩
    · exact hsame
    · simp [Stage.victim?] at hvictim
  exact
    { second := (Site.now_of_step hcall).trans h.second
      keyed := by
        show site.storage.store.events.KeyedBy Event.id
        rw [hstorage]
        exact h.keyed
      pending := fun e he => by
        rcases hnext : next with - | stage'
        · rw [hnext] at he
          cases he
        · rw [hnext] at he
          rw [← h.second]
          exact Site.expired_of_selection hcall h.keyed hnext he
      stored := fun id x hx => by
        refine Or.inr ⟨rfl, ?_⟩
        rw [← hx, stored?]
        exact congrArg (fun m => m.store.events.get? id) hstorage.symm }

/-- Other calls of the tick keep the books; one may delete an event. -/
theorem work (h : Traced settings now s) {stage : Stage} {tick : Tick} {next : Option Stage}
    {site : Site MemoryState} (hstage : s.stage = some stage)
    (hcall : ((Site.scheduler Storage.memory settings).step s.tick stage).perform s.site =
      (.ok (tick, next), site)) :
    Traced settings now (s.advance stage tick next site) := by
  by_cases hselect : stage = .selectingExpired
  · subst hselect
    exact h.select hcall
  have hadvance : s.advance stage tick next site = { s with site, tick, stage := next } := by
    cases stage <;> first | rfl | exact (hselect rfl).elim
  rw [hadvance]
  have hpending : ∀ e ∈ (next.map Stage.expired).getD [], e ∈ s.pending := by
    intro e he
    rcases hnext : next with - | stage'
    · rw [hnext] at he
      cases he
    · rw [hnext] at he
      rcases Site.pending_of_step hcall hnext he with hold | hnew
      · rwa [Sweep.pending, hstage]
      · exact (hselect hnew).elim
  rcases Site.store_of_step hcall with ⟨-, hsame⟩ | ⟨gone, -, herase⟩
  · exact
      { second := (Site.now_of_step hcall).trans h.second
        keyed := by
          rw [hsame]
          exact h.keyed
        pending := fun e he => h.pending e (hpending e he)
        stored := fun id x hx => h.stored id x (by rwa [stored?, hsame] at hx) }
  · exact
      { second := (Site.now_of_step hcall).trans h.second
        keyed := by
          rw [herase]
          exact h.keyed.erase gone
        pending := fun e he => h.pending e (hpending e he)
        stored := fun id x hx => by
          rw [stored?, herase, Table.get?_erase] at hx
          split at hx
          · simp at hx
          · exact h.stored id x hx }

theorem step (h : Traced settings now s) {s' : Sweep} (hstep : Step settings s s') :
    Traced settings now s' := by
  cases hstep with
  | ask hcall => exact h.ask hcall
  | interfere broker => exact ⟨h.second, h.keyed, h.pending, h.stored⟩
  | work hstage hcall => exact h.work hstage hcall

theorem run (h : Traced settings now s) {s' : Sweep} (hrun : Run settings s s') :
    Traced settings now s' := by
  induction hrun with
  | refl => exact h
  | tail _ hstep ih => exact ih.step hstep

end Traced

/-! ## What the tick deletes -/

section

variable {settings : Scheduler.Settings} {s : Sweep} {stage : Stage} {tick : Tick}
  {next : Option Stage} {site : Site MemoryState}

/-- An event that a call of the tick removes is the one in front of those to delete. -/
theorem victim_of_gone
    (hcall : ((Site.scheduler Storage.memory settings).step s.tick stage).perform s.site =
      (.ok (tick, next), site))
    {id : String} (hgone : site.storage.store.events.get? id ≠ s.stored? id) :
    stage.victim? = some id ∧ site.storage.store.events.get? id = none := by
  rcases Site.store_of_step hcall with ⟨-, hsame⟩ | ⟨victim, hvictim, herase⟩
  · exact (hgone (by rw [hsame, stored?])).elim
  · rw [herase, Table.get?_erase] at hgone ⊢
    by_cases hid : victim = id
    · rw [if_pos hid]
      exact ⟨hvictim.trans (congrArg some hid), rfl⟩
    · exact (hgone (if_neg hid)).elim

theorem mem_pending_of_victim {id : String} (hstage : s.stage = some stage)
    (hvictim : stage.victim? = some id) : ∃ e ∈ s.pending, e.id = id := by
  match stage, hvictim with
  | .purging (e :: expired), hvictim =>
      refine ⟨e, ?_, Option.some.inj hvictim⟩
      rw [pending, hstage]
      exact List.mem_cons_self

/-- Whatever others do in between, an event that the tick deletes had expired when the tick
    selected it, and it is still the event that was selected unless it is the last write of
    somebody else since. So it begins before the retention time, unless that write has moved
    it. -/
theorem purged_or_overwritten {site₀ : Site MemoryState}
    (hkeyed : site₀.storage.store.events.KeyedBy Event.id) (tally : Scheduler.Tally)
    (clock : Instant) (hrun : Run settings (start site₀ settings tally clock) s)
    (hstage : s.stage = some stage)
    (hcall : ((Site.scheduler Storage.memory settings).step s.tick stage).perform s.site =
      (.ok (tick, next), site))
    {x : Event} (hbefore : s.stored? x.id = some x)
    (hgone : (s.advance stage tick next site).stored? x.id ≠ some x) :
    let cutoff := clock.floorSecond.monthsEarlier settings.retentionMonths
    (s.advance stage tick next site).stored? x.id = none ∧
      (∃ e, s.seen.get? x.id = some e ∧ e.beginning < cutoff ∧
        (s.lastWrite? x.id = some x ∨ (s.lastWrite? x.id = none ∧ x = e))) ∧
      (¬x.beginning < cutoff ↔
        ∃ y, s.lastWrite? x.id = some y ∧ ¬y.beginning < cutoff) := by
  intro cutoff
  have htraced := (Traced.start hkeyed tally clock).run hrun
  have hsite : (s.advance stage tick next site).stored? x.id =
      site.storage.store.events.get? x.id := by
    cases stage <;> rfl
  rw [hsite] at hgone ⊢
  obtain ⟨hvictim, hnone⟩ := victim_of_gone hcall (by rwa [hbefore])
  obtain ⟨e, he, hid⟩ := mem_pending_of_victim hstage hvictim
  obtain ⟨hseen, hexpired⟩ := htraced.pending e he
  rw [hid] at hseen
  have hwhence : s.lastWrite? x.id = some x ∨ (s.lastWrite? x.id = none ∧ x = e) := by
    rcases htraced.stored x.id x hbefore with hwrite | ⟨hwrite, hsame⟩
    · exact Or.inl hwrite
    · exact Or.inr ⟨hwrite, Option.some.inj (hsame.symm.trans hseen)⟩
  refine ⟨hnone, ⟨e, hseen, hexpired, hwhence⟩, fun hlate => ?_, fun ⟨y, hy, hlate⟩ => ?_⟩
  · rcases hwhence with hwrite | ⟨-, rfl⟩
    · exact ⟨x, hwrite, hlate⟩
    · exact (hlate hexpired).elim
  · rcases hwhence with hwrite | ⟨hwrite, -⟩
    · rwa [Option.some.inj (hwrite.symm.trans hy)]
    · simp [hwrite] at hy

end

/-! ## An event that is moved in between -/

open Rehearsal (dueEvent dueWorld dueWorld_keyed secondOf1970)

/-- Without a retention time an event expires when it begins. -/
theorem monthsEarlier_zero (t : Instant) : t.monthsEarlier 0 = t := by
  have hmonths : t.addMonths? (-(0 : Nat)) = some t := by
    rw [Instant.addMonths?, Int.natCast_zero, Int.neg_zero, Instant.date,
      Date.addMonths_zero (valid_ofDay t.day), toDay_ofDay, Instant.of?_parts]
  rw [Instant.monthsEarlier, hmonths]
  rfl

/-- Settings without a retention time. -/
def promptSettings : Scheduler.Settings := { retentionMonths := 0 }

/-- The event of the rehearsal, which begins with 1970, beside a broker that is not started. -/
def promptSite : Site MemoryState := { broker := {}, storage := dueWorld.memory }

/-- The notifications of the first seconds of 1970 have been handled. -/
def promptTally : Scheduler.Tally := { coveredUntil := some (secondOf1970 10) }

def promptTick : Tick := Tick.begin promptSettings promptTally (secondOf1970 10)

/-- The event, moved behind the second of the tick. -/
def movedEvent : Event :=
  { dueEvent with beginning := secondOf1970 20, finish := secondOf1970 20 }

/-- The sweep when the tick has no notifications to publish. -/
def promptSweep : Sweep where
  site := promptSite
  tick := promptTick
  stage := some .selectingExpired
  seen := dueWorld.memory.store.events

/-- The sweep when the tick has selected the event. -/
def selectedSweep : Sweep :=
  { promptSweep with
    tick := promptTick.reporting fun r => { r with expired := 1 }
    stage := some (.purging [dueEvent]) }

/-- The sweep when the event has been moved since. -/
def movedSweep : Sweep :=
  selectedSweep.asked (.updateEvent movedEvent) (Response.answer .done)
    { dueWorld.memory with store := { events := [("e", movedEvent)] } }

theorem promptTick_selects :
    ((Site.scheduler Storage.memory promptSettings).step promptTick .selectingExpired).perform
      promptSite = (.ok (selectedSweep.tick, some (.purging [dueEvent])), promptSite) := by
  have hcutoff : promptTick.now.monthsEarlier promptSettings.retentionMonths = promptTick.now :=
    monthsEarlier_zero _
  have hanswer : ((Site.scheduler Storage.memory promptSettings).calendar.eventsBefore
      (promptTick.now.monthsEarlier promptSettings.retentionMonths)).perform promptSite =
        (.ok (.ok [dueEvent]), promptSite) := by
    rw [hcutoff, ← Store.eventsBefore_single (s := dueWorld.memory.store) (t := promptTick.now) rfl
      (by decide)]
    rfl
  exact (Scheduler.step_of_call _ (Scheduler.call?_selectingExpired _ _) hanswer).1

theorem run_selectedSweep :
    Run promptSettings (start promptSite promptSettings promptTally (secondOf1970 10))
      selectedSweep := by
  have hdue : ((Site.scheduler Storage.memory promptSettings).step promptTick
      .selectingDue).perform promptSite =
        (.ok (promptTick, some (.publishing [])), promptSite) := by
    have hwindow : promptTick.hasWindow = false := by decide
    unfold Scheduler.step Scheduler.selectDue
    rw [hwindow]
    rfl
  have hnone : ((Site.scheduler Storage.memory promptSettings).step promptTick
      (.publishing [])).perform promptSite =
        (.ok (promptTick, some .selectingExpired), promptSite) := rfl
  have hselect : Step promptSettings promptSweep selectedSweep :=
    .work (s := promptSweep) rfl promptTick_selects
  exact .head (.work rfl hdue) (.head (.work rfl hnone) (.single hselect))

/-- The request to move the event is accepted. -/
theorem movedEvent_accepted :
    (Calendar.inMemory.serve (.updateEvent movedEvent)).perform selectedSweep.site.storage =
      (Response.answer .done, movedSweep.site.storage) := by
  rw [Calendar.serve_updateEvent_of_valid (by decide)]
  rfl

theorem run_movedSweep :
    Run promptSettings (start promptSite promptSettings promptTally (secondOf1970 10))
      movedSweep :=
  .tail run_selectedSweep (.ask movedEvent_accepted)

/-- The tick when it has deleted the event. -/
def purgedTick : Tick := movedSweep.tick.reporting fun r => { r with purged := 1 }

/-- The site without the event. -/
def purgedSite : Site MemoryState :=
  { promptSite with storage := { dueWorld.memory with store := {} } }

theorem movedSweep_deletes :
    ((Site.scheduler Storage.memory promptSettings).step movedSweep.tick
      (.purging [dueEvent])).perform movedSweep.site =
        (.ok (purgedTick, some (.purging [])), purgedSite) := rfl

/-- The event is moved behind the retention time, which is acknowledged, and then the tick
    deletes it. -/
theorem moved_event_is_lost :
    Run promptSettings (start promptSite promptSettings promptTally (secondOf1970 10))
        movedSweep ∧
      movedSweep.stage = some (.purging [dueEvent]) ∧
      (Calendar.inMemory.serve (.updateEvent movedEvent)).perform selectedSweep.site.storage =
        (Response.answer .done, movedSweep.site.storage) ∧
      movedSweep.stored? "e" = some movedEvent ∧
      ¬movedEvent.beginning <
        (secondOf1970 10).floorSecond.monthsEarlier promptSettings.retentionMonths ∧
      ((Site.scheduler Storage.memory promptSettings).step movedSweep.tick
        (.purging [dueEvent])).perform movedSweep.site =
          (.ok (purgedTick, some (.purging [])), purgedSite) ∧
      purgedSite.storage.store.events.get? "e" = none := by
  refine ⟨run_movedSweep, rfl, movedEvent_accepted, rfl, ?_, movedSweep_deletes, rfl⟩
  have hcutoff : (secondOf1970 10).floorSecond.monthsEarlier promptSettings.retentionMonths =
      (secondOf1970 10).floorSecond := monthsEarlier_zero _
  rw [hcutoff]
  decide

theorem moved_event_was_overwritten :
    ∃ e, movedSweep.seen.get? "e" = some e ∧
      e.beginning < (secondOf1970 10).floorSecond.monthsEarlier promptSettings.retentionMonths ∧
      (movedSweep.lastWrite? "e" = some movedEvent ∨
        (movedSweep.lastWrite? "e" = none ∧ movedEvent = e)) := by
  have hgone : (movedSweep.advance (.purging [dueEvent]) purgedTick (some (.purging []))
      purgedSite).stored? movedEvent.id ≠ some movedEvent :=
    (Option.some_ne_none movedEvent).symm
  have hkeyed : promptSite.storage.store.events.KeyedBy Event.id := dueWorld_keyed
  obtain ⟨-, hselected, -⟩ := purged_or_overwritten hkeyed promptTally (secondOf1970 10)
    run_movedSweep rfl movedSweep_deletes (x := movedEvent) rfl hgone
  exact hselected

end Sweep

end Almanac
