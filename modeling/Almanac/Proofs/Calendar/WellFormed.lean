/-
  Almanac.Proofs.Calendar.WellFormed

  What the storage in memory holds. Only the calendar writes events, and it writes one that it
  has checked and rounded, under an id that has just been given or that is taken already; so
  every stored event stands under its own id and is well-formed (`Event.WellFormed`). Every
  operation of the calendar keeps that (`preserves_wellFormed`), hence every visit
  (`stored_events_well_formed`).
-/
import Almanac.Proofs.Calendar.Visits

namespace Almanac

open Storage (Keeps MemoryState)

/-! ## Events -/

/-- An event as the calendar stores it. -/
structure Event.WellFormed (e : Event) : Prop where
  titled : ∃ ch ∈ e.title.toList, isBlank ch = false
  ordered : e.beginning ≤ e.finish
  /-- The notification stands at the start of its second. -/
  whole : e.notification.floorSecond = e.notification

/-- An event without a fault is well-formed when it has been rounded. -/
theorem Event.wellFormed_rounded {e : EventDraft} (h : e.fault? = none) (id : String) :
    (e.rounded.identified id).WellFormed := by
  rcases Calendar.fault?_cases e with ⟨-, hfault⟩ | ⟨-, -, hfault⟩ | ⟨htitle, horder, -⟩
  · simp [h] at hfault
  · simp [h] at hfault
  · refine ⟨?_, Instant.not_lt.mp horder, Instant.floorSecond_floorSecond _⟩
    -- A title that is not all blank has a character that is not.
    have hsome : ∃ ch ∈ e.title.toList, ¬isBlank ch = true := by simpa [isAllBlank] using htitle
    obtain ⟨ch, hmem, hblank⟩ := hsome
    exact ⟨ch, hmem, Bool.eq_false_iff.mpr hblank⟩

/-- What has been rounded is rounded already. -/
theorem Event.WellFormed.rounded_eq {e : Event} (h : e.WellFormed) : e.rounded = e := by
  obtain ⟨⟨title, description, beginning, finish, notification, userId⟩, id⟩ := e
  have hwhole : notification.floorSecond = notification := h.whole
  simp only [Event.rounded, EventDraft.rounded, EventDraft.identified, hwhole]

/-- The checks find nothing to say about a well-formed event. -/
theorem Event.WellFormed.fault?_eq_none {e : Event} (h : e.WellFormed) :
    e.toEventDraft.fault? = none := by
  obtain ⟨ch, hmem, hblank⟩ := h.titled
  rcases Calendar.fault?_cases e.toEventDraft with
    ⟨htitle, -⟩ | ⟨-, horder, -⟩ | ⟨-, -, hnone⟩
  · have hall := List.all_eq_true.mp htitle ch hmem
    simp [hall] at hblank
  · exact (Instant.not_lt.mpr h.ordered horder).elim
  · exact hnone

/-! ## Stores -/

/-- An id is never the empty text. -/
theorem IdSource.next_ne_empty (ids : IdSource) : ids.next.1 ≠ "" := by
  have htext : ∀ bytes, identifierText bytes ≠ "" := by
    intro bytes h
    -- There are four hyphens at least.
    have hnil := congrArg String.toList h
    simp [identifierText] at hnil
  unfold next
  split <;> exact htext _

/-- A store that only holds what the calendar may have put there: events under their own ids,
    no id of them empty, and users whose ages have 32 bits. -/
structure Store.WellFormed (s : Store) : Prop where
  keyed : s.events.KeyedBy Event.id
  events : s.events.All fun key e => e.id = key ∧ key ≠ "" ∧ e.WellFormed
  users : s.users.All fun _ u => u.age ≤ maxAge

namespace Store.WellFormed

variable {s s' : Store}

theorem empty : ({} : Store).WellFormed := ⟨.empty, .empty, .empty⟩

theorem createUser (hs : s.WellFormed) (id : String) {u : UserDraft} (hage : u.age ≤ maxAge) :
    (s.createUser id u).WellFormed :=
  ⟨hs.keyed, hs.events, hs.users.insert hage⟩

theorem deleteUser (hs : s.WellFormed) {id : String} (h : s.deleteUser id = .ok s') :
    s'.WellFormed := by
  obtain ⟨-, rfl⟩ := Store.deleteUser_eq_ok h
  exact ⟨hs.keyed, hs.events, hs.users.erase id⟩

theorem createEvent (hs : s.WellFormed) (ids : IdSource) {e : EventDraft}
    (hfault : e.fault? = none) : (s.createEvent ids.next.1 e.rounded).WellFormed := by
  refine ⟨hs.keyed.insert rfl, hs.events.insert ?_, hs.users⟩
  exact ⟨rfl, ids.next_ne_empty, Event.wellFormed_rounded hfault _⟩

/-- An event only takes the place of one with its id, so the id is not empty. -/
theorem updateEvent (hs : s.WellFormed) {e : Event} (hfault : e.toEventDraft.fault? = none)
    (h : s.updateEvent e.rounded = .ok s') : s'.WellFormed := by
  obtain ⟨hthere, rfl⟩ := Store.updateEvent_eq_ok h
  obtain ⟨old, hold⟩ := Option.isSome_iff_exists.mp hthere
  obtain ⟨-, hname, -⟩ := hs.events _ old (Table.mem_of_get? hold)
  refine ⟨hs.keyed.insert rfl, hs.events.insert ?_, hs.users⟩
  exact ⟨rfl, hname, Event.wellFormed_rounded hfault e.id⟩

theorem deleteEvent (hs : s.WellFormed) {id : String} (h : s.deleteEvent id = .ok s') :
    s'.WellFormed := by
  obtain ⟨-, rfl⟩ := Store.deleteEvent_eq_ok h
  exact ⟨hs.keyed.erase id, hs.events.erase id, hs.users⟩

/-- An event of a listing is stored under its id, and well-formed. -/
theorem of_mem_listWhere (hs : s.WellFormed) {p : Event → Bool} {e : Event}
    (he : e ∈ s.listWhere p) : s.events.get? e.id = some e ∧ e.id ≠ "" ∧ e.WellFormed := by
  obtain ⟨hstored, -⟩ := (Store.mem_listWhere_iff hs.keyed).mp he
  obtain ⟨-, hname, hwell⟩ := hs.events _ e (Table.mem_of_get? hstored)
  exact ⟨hstored, hname, hwell⟩

end Store.WellFormed

/-! ## Operations -/

namespace Calendar

/-- What becomes of the stores in a memory. -/
def KeepsWellFormed {α : Type} (act : Action MemoryState α) : Prop :=
  Keeps (fun m => m.store.WellFormed) act

theorem KeepsWellFormed.respond {α : Type} {act : StorageAction MemoryState α}
    (h : KeepsWellFormed act) (wrap : α → Answer) : KeepsWellFormed (respond wrap act) :=
  h.bind fun _ => .answer _ _

theorem KeepsWellFormed.create {f : Store → String → Store}
    (hf : ∀ s (ids : IdSource), s.WellFormed → (f s ids.next.1).WellFormed) :
    KeepsWellFormed (Calendar.respond .created (Storage.create f)) :=
  KeepsWellFormed.respond (Storage.keeps_create hf) _

theorem KeepsWellFormed.change {f : Store → Except StorageError Store}
    (hf : ∀ s s', s.WellFormed → f s = .ok s' → s'.WellFormed) :
    KeepsWellFormed (Calendar.respond (fun _ => .done) (Storage.change f)) :=
  KeepsWellFormed.respond (Storage.keeps_change hf) _

/-- Every operation of the calendar leaves a well-formed store well-formed. -/
theorem preserves_wellFormed : inMemory.Preserves fun m => m.store.WellFormed := by
  intro request hsized
  show KeepsWellFormed _
  cases request with
  | createUser u =>
      exact .create (f := (·.createUser · u)) fun s ids hs => hs.createUser ids.next.1 hsized
  | deleteUser id => exact .change (f := (·.deleteUser id)) fun s s' hs h => hs.deleteUser h
  | listUsers => exact KeepsWellFormed.respond (Storage.keeps_look _ _) _
  | createEvent e =>
      cases hfault : e.fault? with
      | some error =>
          rw [serve_createEvent_of_fault hfault]
          exact KeepsWellFormed.respond (.refuse error) _
      | none =>
          rw [serve_createEvent_of_valid hfault]
          exact .create fun s ids hs => hs.createEvent ids hfault
  | updateEvent e =>
      cases hfault : e.toEventDraft.fault? with
      | some error =>
          rw [serve_updateEvent_of_fault hfault]
          exact KeepsWellFormed.respond (.refuse error) _
      | none =>
          rw [serve_updateEvent_of_valid hfault]
          exact .change fun s s' hs h => hs.updateEvent hfault h
  | deleteEvent id => exact .change (f := (·.deleteEvent id)) fun s s' hs h => hs.deleteEvent h
  | select which =>
      -- Listings look at the store; one of a window that does not exist crashes.
      have hwindow : ∀ window, KeepsWellFormed (Storage.memory.eventsOfWindow window) := by
        intro window m hm
        cases window <;> exact hm
      apply KeepsWellFormed.respond
      cases which with
      | day t => exact hwindow (Window.day? t)
      | week t => exact hwindow (Window.week? t)
      | month t => exact hwindow (Window.month? t)
      | _ => exact fun m hm => hm

end Calendar

/-! ## Visits -/

variable {β : Type}

/-- What visitors leave behind is well-formed. -/
theorem Visit.wellFormed_reached (broker : Broker.Client β) (b : β) (ids : IdSource)
    (visits : List Visit) : (reached broker b ids visits).store.WellFormed :=
  keeps_reached Calendar.preserves_wellFormed broker b Store.WellFormed.empty visits

/-- Whatever requests, calls and ticks have come to an empty storage in memory, each event in it
    is stored under its own id, has a title that is not blank, does not finish before it begins,
    and has a notification at the start of a second. Rounding down to that keeps the second of an
    instant, and a leap second stays one. -/
theorem stored_events_well_formed (broker : Broker.Client β) (b : β) (ids : IdSource)
    (visits : List Visit) :
    (∀ key e, (key, e) ∈ (Visit.reached broker b ids visits).store.events →
      e.id = key ∧ (∃ ch ∈ e.title.toList, isBlank ch = false) ∧ e.beginning ≤ e.finish ∧
      e.notification.floorSecond = e.notification ∧
      (e.notification.frac = 0 ∨ e.notification.frac = 1000000000)) ∧
    ∀ t : Instant, t.floorSecond.day = t.day ∧ t.floorSecond.second = t.second ∧
      (1000000000 ≤ t.floorSecond.frac ↔ 1000000000 ≤ t.frac) := by
  constructor
  · intro key e hmem
    obtain ⟨hkey, -, hwell⟩ := (Visit.wellFormed_reached broker b ids visits).events key e hmem
    have hfrac : e.notification.frac = 0 ∨ e.notification.frac = 1000000000 := by
      rw [← hwell.whole]
      simp only [Instant.floorSecond]
      split
      · exact Or.inr rfl
      · exact Or.inl rfl
    exact ⟨hkey, hwell.titled, hwell.ordered, hwell.whole, hfrac⟩
  · intro t
    refine ⟨rfl, rfl, ?_⟩
    simp only [Instant.floorSecond]
    split <;> omega

/-! ### A meeting -/

/-- A meeting of an hour, with a notification in the middle of a second. -/
def plannedMeeting : EventDraft where
  title := "planning"
  description := ""
  beginning := (Instant.of? 20000 36000 0).getD Instant.first
  finish := (Instant.of? 20000 39600 0).getD Instant.first
  notification := (Instant.of? 20000 35100 500000000).getD Instant.first
  userId := "u-1"

/-- The meeting as it is stored under the first id. -/
def storedMeeting : Event :=
  plannedMeeting.rounded.identified "00000000-0000-4000-8000-000000000001"

/-- Somebody has created the meeting. -/
def plannedMemory : MemoryState :=
  Visit.reached Broker.Client.memory {} {} [.direct (.createEvent plannedMeeting) trivial]

theorem plannedMemory_events :
    plannedMemory.store.events = [(storedMeeting.id, storedMeeting)] := by
  decide +kernel

/-- The meeting is stored, and its notification has been rounded down. -/
theorem storedMeeting_well_formed :
    (storedMeeting.id, storedMeeting) ∈ plannedMemory.store.events ∧
      (∃ ch ∈ storedMeeting.title.toList, isBlank ch = false) ∧
      storedMeeting.beginning ≤ storedMeeting.finish ∧
      storedMeeting.notification.floorSecond = storedMeeting.notification ∧
      plannedMeeting.notification.frac = 500000000 ∧ storedMeeting.notification.frac = 0 := by
  have hmem : (storedMeeting.id, storedMeeting) ∈ plannedMemory.store.events := by
    rw [plannedMemory_events]
    exact List.mem_singleton.mpr rfl
  obtain ⟨hall, -⟩ := stored_events_well_formed Broker.Client.memory {} {}
    [.direct (.createEvent plannedMeeting) trivial]
  obtain ⟨-, htitled, hordered, hwhole, -⟩ := hall _ _ hmem
  exact ⟨hmem, htitled, hordered, hwhole, rfl, rfl⟩

end Almanac
