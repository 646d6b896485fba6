/-
  Almanac.Proofs.Calendar.Refinement

  The calendar over the storage in memory does to its store what a directory does. `serve` is
  the calendar's own operation for a request, `Holds` says that a store has the contents of a
  directory, and `serve_agrees` that whatever the calendar answers from such a store, a
  directory may answer, and that the store still has its contents afterwards.
-/
import Almanac.Proofs.Calendar.Directory

namespace Almanac

open Storage (MemoryState)

/-! ## Serving a request -/

namespace Calendar

variable {σ : Type}

/-- The response of an operation whose result is wrapped as an answer. -/
def respond {α : Type} (wrap : α → Answer) (act : Action σ (Except StorageError α)) :
    Action σ (Except StorageError Answer) := do
  let result ← act
  return result.map wrap

/-- The events of a selection. -/
def select (c : Calendar σ) : Selection → StorageAction σ (List Event)
  | .all => c.listEvents
  | .day t => c.eventsOfDay t
  | .week t => c.eventsOfWeek t
  | .month t => c.eventsOfMonth t
  | .notifiedIn t => c.eventsAt t
  | .notifiedBetween after limit => c.eventsDueBetween after limit
  | .before t => c.eventsBefore t

/-- What the calendar does for a request. -/
def serve (c : Calendar σ) : Request → StorageAction σ Answer
  | .createUser u => respond .created (c.createUser u)
  | .deleteUser id => respond (fun _ => .done) (c.deleteUser id)
  | .listUsers => respond .users c.listUsers
  | .createEvent e => respond .created (c.createEvent e)
  | .updateEvent e => respond (fun _ => .done) (c.updateEvent e)
  | .deleteEvent id => respond (fun _ => .done) (c.deleteEvent id)
  | .select which => respond .events (c.select which)

/-- The calendar over the storage in memory. -/
def inMemory : Calendar MemoryState := ⟨Storage.memory⟩

/-- The response to an operation that does not stall. -/
theorem perform_respond {α : Type} (wrap : α → Answer)
    {act : Action σ (Except StorageError α)} {s s' : σ} {result : Except StorageError α}
    (h : act.perform s = (.ok result, s')) :
    (respond wrap act).perform s = (.ok (result.map wrap), s') := by
  rw [respond, Action.perform_bind_of_ok h, Action.perform_pure]

/-- The response to an operation that crashes. -/
theorem perform_respond_crash {α : Type} (wrap : α → Answer) (message : String) (s : σ) :
    (respond wrap (Action.crash message : Action σ (Except StorageError α))).perform s =
      (Response.crash message, s) := rfl

/-- The response to a change of the store that is accepted. -/
theorem perform_change {f : Store → Except StorageError Store} {m : MemoryState} {store : Store}
    (h : f m.store = .ok store) :
    (respond (fun _ => .done) (Storage.change f)).perform m =
      (Response.answer .done, { m with store }) := by
  have hchange : (Storage.change f).perform m = (.ok (.ok ()), { m with store }) := by
    rw [Storage.change, Action.perform_update, h]
  rw [perform_respond _ hchange]
  rfl

/-- The response to a change of the store that is refused. -/
theorem perform_change_refused {f : Store → Except StorageError Store} {m : MemoryState}
    {e : StorageError} (h : f m.store = .error e) :
    (respond (fun _ => .done) (Storage.change f)).perform m = (Response.failure e, m) := by
  have hchange : (Storage.change f).perform m = (.ok (.error e), m) := by
    rw [Storage.change, Action.perform_update, h]
  rw [perform_respond _ hchange]
  rfl

end Calendar

/-! ## Contents -/

namespace Table

variable {α : Type} {t : Table α} {m : Finmap fun _ : String => α}

/-- A table and a finite map with the same entries still have the same ones after an entry was
    put into both. -/
theorem lookup_insert (h : ∀ id, t.get? id = m.lookup id) (id : String) (v : α) (other : String) :
    (t.insert id v).get? other = (m.insert id v).lookup other := by
  rw [get?_insert]
  by_cases hid : id = other
  · subst hid
    rw [if_pos rfl, Finmap.lookup_insert]
  · rw [if_neg hid, Finmap.lookup_insert_of_ne _ (Ne.symm hid)]
    exact h other

theorem lookup_erase (h : ∀ id, t.get? id = m.lookup id) (id other : String) :
    (t.erase id).get? other = (m.erase id).lookup other := by
  rw [get?_erase]
  by_cases hid : id = other
  · subst hid
    rw [if_pos rfl, Finmap.lookup_erase]
  · rw [if_neg hid, Finmap.lookup_erase_ne (Ne.symm hid)]
    exact h other

end Table

/-- A store has the contents of a directory, each record once and under its own id. -/
structure Store.Holds (s : Store) (d : Calendar.Directory) : Prop where
  userKeys : s.users.KeyedBy User.id
  eventKeys : s.events.KeyedBy Event.id
  users : ∀ id, s.users.get? id = d.users.lookup id
  events : ∀ id, s.events.get? id = d.events.lookup id

namespace Store.Holds

open Calendar

variable {s : Store} {d : Directory}

/-- An empty store has the contents of an empty directory. -/
theorem empty : ({} : Store).Holds {} where
  userKeys := .empty
  eventKeys := .empty
  users _ := rfl
  events _ := rfl

theorem isSome_user (h : s.Holds d) (id : String) :
    (s.users.get? id).isSome = true ↔ id ∈ d.users := by
  rw [h.users, Finmap.lookup_isSome]

theorem isSome_event (h : s.Holds d) (id : String) :
    (s.events.get? id).isSome = true ↔ id ∈ d.events := by
  rw [h.events, Finmap.lookup_isSome]

theorem addUser (h : s.Holds d) (id : String) (u : UserDraft) :
    (s.createUser id u).Holds (d.addUser id u) where
  userKeys := h.userKeys.insert rfl
  eventKeys := h.eventKeys
  users := Table.lookup_insert h.users id { u with id }
  events := h.events

theorem eraseUser (h : s.Holds d) (id : String) :
    Store.Holds { s with users := s.users.erase id } { d with users := d.users.erase id } where
  userKeys := h.userKeys.erase id
  eventKeys := h.eventKeys
  users := Table.lookup_erase h.users id
  events := h.events

theorem putEvent (h : s.Holds d) (e : Event) :
    Store.Holds { s with events := s.events.insert e.id e } (d.putEvent e) where
  userKeys := h.userKeys
  eventKeys := h.eventKeys.insert rfl
  users := h.users
  events := Table.lookup_insert h.events e.id e

theorem eraseEvent (h : s.Holds d) (id : String) :
    Store.Holds { s with events := s.events.erase id }
      { d with events := d.events.erase id } where
  userKeys := h.userKeys
  eventKeys := h.eventKeys.erase id
  users := h.users
  events := Table.lookup_erase h.events id

/-- The ids that have been given are no contents. -/
theorem congr (h : s.Holds d) {d' : Directory} (husers : d'.users = d.users)
    (hevents : d'.events = d.events) : s.Holds d' where
  userKeys := h.userKeys
  eventKeys := h.eventKeys
  users := by rw [husers]; exact h.users
  events := by rw [hevents]; exact h.events

/-- The events of a condition, as they are listed, are those of the directory. -/
theorem listWhere (h : s.Holds d) {p : Event → Bool} {condition : Event → Prop}
    (hp : ∀ e, p e = true ↔ condition e) :
    (s.listWhere p).Pairwise Event.Precedes ∧
      ∀ e, e ∈ s.listWhere p ↔ d.events.lookup e.id = some e ∧ condition e := by
  refine ⟨s.pairwise_listWhere h.eventKeys p, fun e => ?_⟩
  rw [s.mem_listWhere_iff h.eventKeys, h.events, hp]

end Store.Holds

/-! ## Checks -/

namespace Calendar

/-- The checks of an event, in their order. -/
theorem fault?_cases (e : EventDraft) :
    (isAllBlank e.title = true ∧
        e.fault? = some ⟨.validation, "event title must not be empty", false⟩) ∨
      (¬isAllBlank e.title = true ∧ e.finish < e.beginning ∧
        e.fault? = some ⟨.validation, "event finish precedes its beginning", false⟩) ∨
      (¬isAllBlank e.title = true ∧ ¬e.finish < e.beginning ∧ e.fault? = none) := by
  unfold EventDraft.fault?
  by_cases htitle : isAllBlank e.title = true
  · rw [if_pos htitle]
    exact Or.inl ⟨htitle, rfl⟩
  · rw [if_neg htitle]
    by_cases horder : e.finish < e.beginning
    · rw [if_pos horder]
      exact Or.inr (Or.inl ⟨htitle, horder, rfl⟩)
    · rw [if_neg horder]
      exact Or.inr (Or.inr ⟨htitle, horder, rfl⟩)

/-- An event that the checks refuse does not reach the storage. -/
theorem serve_createEvent_of_fault {e : EventDraft} {error : StorageError}
    (hfault : e.fault? = some error) :
    inMemory.serve (.createEvent e) = respond .created (refuse error) := by
  rw [serve, createEvent, hfault]

theorem serve_updateEvent_of_fault {e : Event} {error : StorageError}
    (hfault : e.toEventDraft.fault? = some error) :
    inMemory.serve (.updateEvent e) =
      respond (fun _ : Unit => .done) (refuse error) := by
  rw [serve, updateEvent, hfault]

/-- An event without a fault is rounded and goes to the storage. -/
theorem serve_createEvent_of_valid {e : EventDraft} (hfault : e.fault? = none) :
    inMemory.serve (.createEvent e) =
      respond .created (Storage.create fun s id => s.createEvent id e.rounded) := by
  rw [serve, createEvent, hfault]
  rfl

theorem serve_updateEvent_of_valid {e : Event} (hfault : e.toEventDraft.fault? = none) :
    inMemory.serve (.updateEvent e) =
      respond (fun _ => .done) (Storage.change (·.updateEvent e.rounded)) := by
  rw [serve, updateEvent, hfault]
  rfl

/-! ## One request -/

variable {m : MemoryState} {d : Directory}

/-- The result of serving a request from a memory is what a directory may do, and the memory
    afterwards has the contents of the directory afterwards. Only the id of a new record is
    taken from the source. -/
def Agrees (m : MemoryState) (d : Directory) (request : Request)
    (result : Response × MemoryState) : Prop :=
  ∃ e, d.Serves request result.1 e ∧ result.2.store.Holds e ∧
    ((result.2.ids = m.ids ∧ e.issued = d.issued) ∨
      (result.2.ids = m.ids.next.2 ∧ e.issued = d.issued ++ [m.ids.next.1]))

namespace Agrees

variable {request : Request}

/-- Requests that are refused before the storage is asked. -/
theorem refused {α : Type} {wrap : α → Answer} {error : StorageError} (h : m.store.Holds d)
    (hserve : inMemory.serve request = respond wrap (refuse error))
    (hserves : d.Serves request (Response.failure error) d) :
    Agrees m d request ((inMemory.serve request).perform m) := by
  rw [hserve]
  exact ⟨d, hserves, h, Or.inl ⟨rfl, rfl⟩⟩

/-- Requests that look at the store. -/
theorem look {α : Type} {wrap : α → Answer} {f : Store → α} (h : m.store.Holds d)
    (hserve : inMemory.serve request = respond wrap (Storage.look f))
    (hserves : d.Serves request (Response.answer (wrap (f m.store))) d) :
    Agrees m d request ((inMemory.serve request).perform m) := by
  rw [hserve]
  exact ⟨d, hserves, h, Or.inl ⟨rfl, rfl⟩⟩

/-- Requests that put a new record into the store. -/
theorem create {f : Store → String → Store} {e : Directory}
    (hserve : inMemory.serve request = respond .created (Storage.create f))
    (hserves : d.Serves request (Response.answer (.created m.ids.next.1)) e)
    (hholds : (f m.store m.ids.next.1).Holds e)
    (hissued : e.issued = d.issued ++ [m.ids.next.1]) :
    Agrees m d request ((inMemory.serve request).perform m) := by
  rw [hserve]
  exact ⟨e, hserves, hholds, Or.inr ⟨rfl, hissued⟩⟩

variable {f : Store → Except StorageError Store}

/-- Requests that change a record of the store, which is there. -/
theorem changed {store : Store} {e : Directory}
    (hserve : inMemory.serve request = respond (fun _ => .done) (Storage.change f))
    (hstore : f m.store = .ok store) (hserves : d.Serves request (Response.answer .done) e)
    (hholds : store.Holds e) (hissued : e.issued = d.issued) :
    Agrees m d request ((inMemory.serve request).perform m) := by
  rw [hserve, perform_change hstore]
  exact ⟨e, hserves, hholds, Or.inl ⟨rfl, hissued⟩⟩

/-- Requests that would change a record, which is not there. -/
theorem missing {error : StorageError} (h : m.store.Holds d)
    (hserve : inMemory.serve request = respond (fun _ => .done) (Storage.change f))
    (hstore : f m.store = .error error)
    (hserves : d.Serves request (Response.failure error) d) :
    Agrees m d request ((inMemory.serve request).perform m) := by
  rw [hserve, perform_change_refused hstore]
  exact ⟨d, hserves, h, Or.inl ⟨rfl, rfl⟩⟩

theorem createUser (h : m.store.Holds d) (u : UserDraft) (hfresh : m.ids.next.1 ∉ d.issued) :
    Agrees m d (.createUser u) ((inMemory.serve (.createUser u)).perform m) :=
  create (f := fun s id => s.createUser id u) rfl ⟨m.ids.next.1, hfresh, rfl, rfl⟩
    (h.addUser m.ids.next.1 u) rfl

theorem deleteUser (h : m.store.Holds d) (id : String) :
    Agrees m d (.deleteUser id) ((inMemory.serve (.deleteUser id)).perform m) := by
  by_cases hthere : id ∈ d.users
  · refine changed (f := (·.deleteUser id)) rfl
      (if_pos ((h.isSome_user id).mpr hthere)) ?_ (h.eraseUser id) rfl
    rw [Directory.Serves, if_pos hthere]
    exact ⟨rfl, rfl⟩
  · refine missing (f := (·.deleteUser id)) h rfl
      (if_neg (mt (h.isSome_user id).mp hthere)) ?_
    rw [Directory.Serves, if_neg hthere]
    exact ⟨rfl, rfl⟩

theorem listUsers (h : m.store.Holds d) :
    Agrees m d .listUsers ((inMemory.serve .listUsers).perform m) := by
  refine look (f := Store.listUsers) h rfl ⟨rfl, m.store.listUsers, rfl, ?_, fun u => ?_⟩
  · exact Store.pairwise_listUsers h.userKeys
  · rw [Store.mem_listUsers h.userKeys, h.users]

theorem createEvent (h : m.store.Holds d) (e : EventDraft)
    (hfresh : e.fault? = none → m.ids.next.1 ∉ d.issued) :
    Agrees m d (.createEvent e) ((inMemory.serve (.createEvent e)).perform m) := by
  rcases fault?_cases e with ⟨htitle, hfault⟩ | ⟨htitle, horder, hfault⟩ | ⟨htitle, horder, hfault⟩
  · refine refused h (serve_createEvent_of_fault hfault) ?_
    rw [Directory.Serves, if_pos htitle]
    exact ⟨rfl, rfl⟩
  · refine refused h (serve_createEvent_of_fault hfault) ?_
    rw [Directory.Serves, if_neg htitle, if_pos horder]
    exact ⟨rfl, rfl⟩
  · have hput : (m.store.createEvent m.ids.next.1 e.rounded).Holds
        (d.addEvent m.ids.next.1 e) :=
      (h.putEvent (e.rounded.identified m.ids.next.1)).congr rfl rfl
    refine create (serve_createEvent_of_valid hfault) ?_ hput rfl
    rw [Directory.Serves, if_neg htitle, if_neg horder]
    exact ⟨m.ids.next.1, hfresh hfault, rfl, rfl⟩

theorem updateEvent (h : m.store.Holds d) (e : Event) :
    Agrees m d (.updateEvent e) ((inMemory.serve (.updateEvent e)).perform m) := by
  rcases fault?_cases e.toEventDraft with
    ⟨htitle, hfault⟩ | ⟨htitle, horder, hfault⟩ | ⟨htitle, horder, hfault⟩
  · refine refused h (serve_updateEvent_of_fault hfault) ?_
    rw [Directory.Serves, if_pos htitle]
    exact ⟨rfl, rfl⟩
  · refine refused h (serve_updateEvent_of_fault hfault) ?_
    rw [Directory.Serves, if_neg htitle, if_pos horder]
    exact ⟨rfl, rfl⟩
  · have hserve := serve_updateEvent_of_valid hfault
    by_cases hthere : e.id ∈ d.events
    · refine changed hserve (if_pos ((h.isSome_event e.id).mpr hthere)) ?_
        (h.putEvent e.rounded) rfl
      rw [Directory.Serves, if_neg htitle, if_neg horder, if_pos hthere]
      exact ⟨rfl, rfl⟩
    · refine missing h hserve (if_neg (mt (h.isSome_event e.id).mp hthere)) ?_
      rw [Directory.Serves, if_neg htitle, if_neg horder, if_neg hthere]
      exact ⟨rfl, rfl⟩

theorem deleteEvent (h : m.store.Holds d) (id : String) :
    Agrees m d (.deleteEvent id) ((inMemory.serve (.deleteEvent id)).perform m) := by
  by_cases hthere : id ∈ d.events
  · refine changed (f := (·.deleteEvent id)) rfl
      (if_pos ((h.isSome_event id).mpr hthere)) ?_ (h.eraseEvent id) rfl
    rw [Directory.Serves, if_pos hthere]
    exact ⟨rfl, rfl⟩
  · refine missing (f := (·.deleteEvent id)) h rfl
      (if_neg (mt (h.isSome_event id).mp hthere)) ?_
    rw [Directory.Serves, if_neg hthere]
    exact ⟨rfl, rfl⟩

/-- A listing of the events that satisfy the condition of a selection. -/
theorem listed (h : m.store.Holds d) {which : Selection} {condition : Event → Prop}
    (hcondition : which.condition? = some condition) {p : Event → Bool}
    (hserve : inMemory.serve (.select which) = respond .events (Storage.look (·.listWhere p)))
    (hp : ∀ e, p e = true ↔ condition e) :
    Agrees m d (.select which) ((inMemory.serve (.select which)).perform m) := by
  refine look h hserve ⟨rfl, ?_⟩
  rw [hcondition]
  exact ⟨m.store.listWhere p, rfl, h.listWhere hp⟩

/-- A listing of the events of a window, which may not exist. -/
theorem windowed (h : m.store.Holds d) {which : Selection} (window : Option Window)
    (hcondition : which.condition? =
      window.map fun w e => w.start ≤ e.beginning ∧ e.beginning < w.finish)
    (hselect : inMemory.select which = Storage.memory.eventsOfWindow window) :
    Agrees m d (.select which) ((inMemory.serve (.select which)).perform m) := by
  cases window with
  | none =>
      have hserve : inMemory.serve (.select which) =
          respond .events (Action.crash Window.reversedMessage) := by
        rw [serve, hselect]
        rfl
      rw [hserve, perform_respond_crash]
      refine ⟨d, ⟨rfl, ?_⟩, h, Or.inl ⟨rfl, rfl⟩⟩
      rw [hcondition]
      rfl
  | some w =>
      refine listed h hcondition (p := fun e => w.contains e.beginning) ?_ fun e => ?_
      · rw [serve, hselect]
        rfl
      · exact decide_eq_true_iff

theorem select (h : m.store.Holds d) (which : Selection) :
    Agrees m d (.select which) ((inMemory.serve (.select which)).perform m) := by
  cases which with
  | all => exact listed h rfl (p := fun _ => true) rfl fun e => by simp
  | day t => exact windowed h (Window.day? t) rfl rfl
  | week t => exact windowed h (Window.week? t) rfl rfl
  | month t => exact windowed h (Window.month? t) rfl rfl
  | notifiedIn t =>
      exact listed h rfl (p := fun e => e.notification.floorSecond == t.floorSecond) rfl
        fun e => beq_iff_eq
  | notifiedBetween after limit =>
      exact listed h rfl
        (p := fun e => decide (after.floorSecond < e.notification.floorSecond) &&
          decide (e.notification.floorSecond ≤ limit.floorSecond)) rfl
        fun e => by simp
  | before t =>
      exact listed h rfl (p := fun e => decide (e.beginning < t)) rfl
        fun e => decide_eq_true_iff

end Agrees

/-- Serving a request from a memory is what a directory with its contents does, provided that
    an id is new if one is taken. -/
theorem serve_agrees (h : m.store.Holds d) (request : Request)
    (hfresh : ((inMemory.serve request).perform m).2.ids = m.ids.next.2 →
      m.ids.next.1 ∉ d.issued) :
    Agrees m d request ((inMemory.serve request).perform m) := by
  cases request with
  | createUser u => exact .createUser h u (hfresh rfl)
  | deleteUser id => exact .deleteUser h id
  | listUsers => exact .listUsers h
  | createEvent e =>
      refine .createEvent h e fun hfault => hfresh ?_
      rw [serve_createEvent_of_valid hfault]
      rfl
  | updateEvent e => exact .updateEvent h e
  | deleteEvent id => exact .deleteEvent h id
  | select which => exact .select h which

end Calendar

end Almanac
