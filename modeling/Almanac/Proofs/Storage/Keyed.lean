/-
  Almanac.Proofs.Storage.Keyed

  A store keeps each record once, under its own id (`Table.KeyedBy`), and every change of a store
  keeps it so, hence whatever the storage in memory reaches (`Reached.events_keyed`,
  `Reached.users_keyed`). A listing of such a store shows each of its events once.
-/
import Almanac.Proofs.Action
import Almanac.Proofs.Table
import Almanac.Storage.Backend

namespace Almanac

/-! ## Changes -/

namespace Store

variable {s s' : Store}

theorem eq_of_ite_ok {p : Prop} [Decidable p] {fault : StorageError}
    (h : (if p then .ok s else .error fault) = Except.ok s') : p ∧ s' = s := by
  split at h
  · next hp => exact ⟨hp, (Except.ok.inj h).symm⟩
  · simp at h

/-- Only a stored user is deleted. -/
theorem deleteUser_eq_ok {id : String} (h : s.deleteUser id = .ok s') :
    (s.users.get? id).isSome = true ∧ s' = { s with users := s.users.erase id } :=
  eq_of_ite_ok h

/-- An event only takes the place of a stored one. -/
theorem updateEvent_eq_ok {e : Event} (h : s.updateEvent e = .ok s') :
    (s.events.get? e.id).isSome = true ∧ s' = { s with events := s.events.insert e.id e } :=
  eq_of_ite_ok h

/-- Only a stored event is deleted. -/
theorem deleteEvent_eq_ok {id : String} (h : s.deleteEvent id = .ok s') :
    (s.events.get? id).isSome = true ∧ s' = { s with events := s.events.erase id } :=
  eq_of_ite_ok h

end Store

/-! ## Listings -/

namespace Store

variable {s : Store}

theorem mem_listWhere {p : Event → Bool} {e : Event} :
    e ∈ s.listWhere p ↔ e ∈ s.events.values ∧ p e = true := by
  rw [listWhere, List.mem_mergeSort, List.mem_filter]

/-- A listing shows an event at most once. -/
theorem nodup_listWhere (hs : s.events.KeyedBy Event.id) (p : Event → Bool) :
    ((s.listWhere p).map (·.id)).Nodup :=
  hs.nodup_sorted p Event.listedBefore

/-- A store of one event lists it, or nothing. -/
theorem listWhere_single {id : String} {e : Event} (hs : s.events = [(id, e)])
    (p : Event → Bool) : s.listWhere p = if p e then [e] else [] := by
  have hfilter : s.events.values.filter p = if p e then [e] else [] := by
    rw [hs]
    exact List.filter_cons
  rw [listWhere, hfilter]
  split
  · exact List.mergeSort_singleton e
  · exact List.mergeSort_nil

/-- A single event is due in a window that holds its second. -/
theorem eventsDueBetween_single {id : String} {e : Event} (hs : s.events = [(id, e)])
    {after limit : Instant} (hafter : after.floorSecond < e.notification.floorSecond)
    (hlimit : e.notification.floorSecond ≤ limit.floorSecond) :
    s.eventsDueBetween after limit = [e] := by
  rw [eventsDueBetween, listWhere_single hs]
  simp [hafter, hlimit]

/-- A single event that has begun lies before the limit. -/
theorem eventsBefore_single {id : String} {e : Event} (hs : s.events = [(id, e)]) {t : Instant}
    (hbegun : e.beginning < t) : s.eventsBefore t = [e] := by
  rw [eventsBefore, listWhere_single hs]
  simp [hbegun]

end Store

/-! ## Storages -/

namespace Storage

variable {σ τ : Type}

/-- Whether an action leaves every good state good, also when it stalls. -/
def Keeps {α : Type} (good : σ → Prop) (act : Action σ α) : Prop :=
  ∀ w, good w → good (act.perform w).2

theorem Keeps.refuse {α : Type} {good : σ → Prop} (e : StorageError) :
    Keeps good (refuse e : StorageAction σ α) := fun _ h => h

theorem Keeps.answer {α : Type} (good : σ → Prop) (a : α) : Keeps good (pure a : Action σ α) :=
  fun _ h => h

/-- Looking changes nothing. -/
theorem Keeps.look {α : Type} (good : σ → Prop) (f : σ → α) : Keeps good (Action.look f) :=
  fun _ h => h

/-- An action after another one, or none when the first one stalls. -/
theorem Keeps.bind {α β : Type} {good : σ → Prop} {act : Action σ α} {f : α → Action σ β}
    (hact : Keeps good act) (hf : ∀ a, Keeps good (f a)) : Keeps good (act >>= f) := by
  intro w hw
  have hgood := hact w hw
  rw [Action.perform_bind]
  rcases hperform : act.perform w with ⟨answer, w₁⟩
  rw [hperform] at hgood
  cases answer with
  | ok a => exact hf a w₁ hgood
  | error _ => exact hgood

/-- One action for each item of a list, up to the first that stalls. -/
theorem Keeps.foldlM {α β : Type} {good : σ → Prop} {f : α → β → Action σ α}
    (hf : ∀ a b, Keeps good (f a b)) (items : List β) (a : α) :
    Keeps good (items.foldlM f a) := by
  induction items generalizing a with
  | nil => exact .answer _ _
  | cons item items ih =>
      rw [List.foldlM_cons]
      exact (hf a item).bind ih

/-- An action on a part of the state keeps whatever does not depend on that part. -/
theorem Keeps.zoom_of_set {α : Type} {good : σ → Prop} {get : σ → τ} {set : τ → σ → σ}
    (hset : ∀ t w, good w → good (set t w)) (act : Action τ α) :
    Keeps good (Action.zoom get set act) := fun w hw => hset _ w hw

theorem Keeps.zoom {α : Type} {good : τ → Prop} {act : Action τ α} (h : Keeps good act)
    {get : σ → τ} {set : τ → σ → σ} (hget : ∀ t w, get (set t w) = t) :
    Keeps (fun w => good (get w)) (Action.zoom get set act) := by
  intro w hw
  rw [Action.perform_zoom]
  dsimp only
  rw [hget]
  exact h (get w) hw

/-- Whether every operation of a storage leaves every good state good. -/
structure KeepsAll (good : σ → Prop) (storage : Storage σ) : Prop where
  createUser : ∀ u, Keeps good (storage.createUser u)
  listUsers : Keeps good storage.listUsers
  deleteUser : ∀ id, Keeps good (storage.deleteUser id)
  createEvent : ∀ e, Keeps good (storage.createEvent e)
  listEvents : Keeps good storage.listEvents
  updateEvent : ∀ e, Keeps good (storage.updateEvent e)
  deleteEvent : ∀ id, Keeps good (storage.deleteEvent id)
  eventsIn : ∀ window, Keeps good (storage.eventsIn window)
  eventsAt : ∀ t, Keeps good (storage.eventsAt t)
  eventsDueBetween : ∀ after limit, Keeps good (storage.eventsDueBetween after limit)
  eventsBefore : ∀ t, Keeps good (storage.eventsBefore t)

theorem keeps_look {α : Type} (good : MemoryState → Prop) (f : Store → α) :
    Keeps good (look f) := fun _ h => h

theorem keeps_change {good : Store → Prop} {f : Store → Except StorageError Store}
    (hf : ∀ s s', good s → f s = .ok s' → good s') :
    Keeps (fun m => good m.store) (change f) := by
  intro m hm
  rw [change, Action.perform_update]
  split
  · -- The change was accepted.
    next store heq => exact hf m.store store hm heq
  · exact hm

theorem keeps_create {good : Store → Prop} {f : Store → String → Store}
    (hf : ∀ s (ids : IdSource), good s → good (f s ids.next.1)) :
    Keeps (fun m => good m.store) (create f) :=
  fun m hm => hf m.store m.ids hm

/-- What every change of a store keeps is kept by every operation of the storage in memory. -/
theorem keepsAll_memory (good : Store → Prop)
    (hcreateUser : ∀ s id u, good s → good (s.createUser id u))
    (hdeleteUser : ∀ s s' id, good s → s.deleteUser id = .ok s' → good s')
    (hcreateEvent : ∀ s id e, good s → good (s.createEvent id e))
    (hupdateEvent : ∀ s s' e, good s → s.updateEvent e = .ok s' → good s')
    (hdeleteEvent : ∀ s s' id, good s → s.deleteEvent id = .ok s' → good s') :
    memory.KeepsAll fun m => good m.store where
  createUser u := keeps_create fun s _ => hcreateUser s _ u
  listUsers := keeps_look _ _
  deleteUser id := keeps_change fun s s' => hdeleteUser s s' id
  createEvent e := keeps_create fun s _ => hcreateEvent s _ e
  listEvents := keeps_look _ _
  updateEvent e := keeps_change fun s s' => hupdateEvent s s' e
  deleteEvent id := keeps_change fun s s' => hdeleteEvent s s' id
  eventsIn _ := keeps_look _ _
  eventsAt _ := keeps_look _ _
  eventsDueBetween _ _ := keeps_look _ _
  eventsBefore _ := keeps_look _ _

/-- Every operation of the storage in memory keeps each event under its id. -/
theorem keepsAll_memory_events :
    memory.KeepsAll fun m => m.store.events.KeyedBy Event.id := by
  refine keepsAll_memory (fun s => s.events.KeyedBy Event.id) (fun _ _ _ hs => hs)
    (fun _ _ _ hs h => ?_) (fun _ _ _ hs => hs.insert rfl) (fun _ _ _ hs h => ?_)
    (fun _ _ id hs h => ?_)
  · obtain ⟨-, rfl⟩ := Store.deleteUser_eq_ok h
    exact hs
  · obtain ⟨-, rfl⟩ := Store.updateEvent_eq_ok h
    exact hs.insert rfl
  · obtain ⟨-, rfl⟩ := Store.deleteEvent_eq_ok h
    exact hs.erase id

/-- Every operation of the storage in memory keeps each user under its id. -/
theorem keepsAll_memory_users :
    memory.KeepsAll fun m => m.store.users.KeyedBy User.id := by
  refine keepsAll_memory (fun s => s.users.KeyedBy User.id) (fun _ _ _ hs => hs.insert rfl)
    (fun _ _ id hs h => ?_) (fun _ _ _ hs => hs) (fun _ _ _ hs h => ?_) (fun _ _ _ hs h => ?_)
  · obtain ⟨-, rfl⟩ := Store.deleteUser_eq_ok h
    exact hs.erase id
  · obtain ⟨-, rfl⟩ := Store.updateEvent_eq_ok h
    exact hs
  · obtain ⟨-, rfl⟩ := Store.deleteEvent_eq_ok h
    exact hs

/-- What the operations of the storage in memory reach from an empty store, whatever its ids are. -/
inductive Reached : MemoryState → Prop
  | empty (ids : IdSource) : Reached { ids }
  | createUser {m : MemoryState} (h : Reached m) (u : UserDraft) :
      Reached ((memory.createUser u).perform m).2
  | listUsers {m : MemoryState} (h : Reached m) : Reached (memory.listUsers.perform m).2
  | deleteUser {m : MemoryState} (h : Reached m) (id : String) :
      Reached ((memory.deleteUser id).perform m).2
  | createEvent {m : MemoryState} (h : Reached m) (e : EventDraft) :
      Reached ((memory.createEvent e).perform m).2
  | listEvents {m : MemoryState} (h : Reached m) : Reached (memory.listEvents.perform m).2
  | updateEvent {m : MemoryState} (h : Reached m) (e : Event) :
      Reached ((memory.updateEvent e).perform m).2
  | deleteEvent {m : MemoryState} (h : Reached m) (id : String) :
      Reached ((memory.deleteEvent id).perform m).2
  | eventsIn {m : MemoryState} (h : Reached m) (w : Window) :
      Reached ((memory.eventsIn w).perform m).2
  | eventsAt {m : MemoryState} (h : Reached m) (t : Instant) :
      Reached ((memory.eventsAt t).perform m).2
  | eventsDueBetween {m : MemoryState} (h : Reached m) (after limit : Instant) :
      Reached ((memory.eventsDueBetween after limit).perform m).2
  | eventsBefore {m : MemoryState} (h : Reached m) (t : Instant) :
      Reached ((memory.eventsBefore t).perform m).2

/-- What holds of an empty store and is kept by every operation holds of all they reach. -/
theorem Reached.of_keepsAll {good : MemoryState → Prop} (hempty : ∀ ids, good { ids })
    (hkeeps : memory.KeepsAll good) {m : MemoryState} (h : Reached m) : good m := by
  induction h with
  | empty ids => exact hempty ids
  | createUser _ u ih => exact hkeeps.createUser u _ ih
  | listUsers _ ih => exact hkeeps.listUsers _ ih
  | deleteUser _ id ih => exact hkeeps.deleteUser id _ ih
  | createEvent _ e ih => exact hkeeps.createEvent e _ ih
  | listEvents _ ih => exact hkeeps.listEvents _ ih
  | updateEvent _ e ih => exact hkeeps.updateEvent e _ ih
  | deleteEvent _ id ih => exact hkeeps.deleteEvent id _ ih
  | eventsIn _ w ih => exact hkeeps.eventsIn w _ ih
  | eventsAt _ t ih => exact hkeeps.eventsAt t _ ih
  | eventsDueBetween _ after limit ih => exact hkeeps.eventsDueBetween after limit _ ih
  | eventsBefore _ t ih => exact hkeeps.eventsBefore t _ ih

theorem Reached.events_keyed {m : MemoryState} (h : Reached m) :
    m.store.events.KeyedBy Event.id :=
  h.of_keepsAll (fun _ => Table.KeyedBy.empty) keepsAll_memory_events

theorem Reached.users_keyed {m : MemoryState} (h : Reached m) : m.store.users.KeyedBy User.id :=
  h.of_keepsAll (fun _ => Table.KeyedBy.empty) keepsAll_memory_users

/-- A storage on a part of a state keeps what it keeps there. -/
theorem KeepsAll.zoom {good : τ → Prop} {storage : Storage τ} (h : storage.KeepsAll good)
    {get : σ → τ} {set : τ → σ → σ} (hget : ∀ t w, get (set t w) = t) :
    (storage.zoom get set).KeepsAll fun w => good (get w) where
  createUser u := (h.createUser u).zoom hget
  listUsers := h.listUsers.zoom hget
  deleteUser id := (h.deleteUser id).zoom hget
  createEvent e := (h.createEvent e).zoom hget
  listEvents := h.listEvents.zoom hget
  updateEvent e := (h.updateEvent e).zoom hget
  deleteEvent id := (h.deleteEvent id).zoom hget
  eventsIn window := (h.eventsIn window).zoom hget
  eventsAt t := (h.eventsAt t).zoom hget
  eventsDueBetween after limit := (h.eventsDueBetween after limit).zoom hget
  eventsBefore t := (h.eventsBefore t).zoom hget

/-- A storage on a part of a state keeps whatever does not depend on that part. -/
theorem keepsAll_zoom_of_set {good : σ → Prop} (storage : Storage τ) {get : σ → τ}
    {set : τ → σ → σ} (hset : ∀ t w, good w → good (set t w)) :
    (storage.zoom get set).KeepsAll good where
  createUser _ := .zoom_of_set hset _
  listUsers := .zoom_of_set hset _
  deleteUser _ := .zoom_of_set hset _
  createEvent _ := .zoom_of_set hset _
  listEvents := .zoom_of_set hset _
  updateEvent _ := .zoom_of_set hset _
  deleteEvent _ := .zoom_of_set hset _
  eventsIn _ := .zoom_of_set hset _
  eventsAt _ := .zoom_of_set hset _
  eventsDueBetween _ _ := .zoom_of_set hset _
  eventsBefore _ := .zoom_of_set hset _

/-- A closed database changes nothing. -/
theorem keepsAll_closedDatabase (good : σ → Prop) : closedDatabase.KeepsAll good where
  createUser u := by
    intro w hw
    simp only [closedDatabase]
    split <;> exact hw
  listUsers := Keeps.refuse _
  deleteUser _ := Keeps.refuse _
  createEvent _ := Keeps.refuse _
  listEvents := Keeps.refuse _
  updateEvent _ := Keeps.refuse _
  deleteEvent _ := Keeps.refuse _
  eventsIn _ := Keeps.refuse _
  eventsAt _ := Keeps.refuse _
  eventsDueBetween _ _ := Keeps.refuse _
  eventsBefore _ := Keeps.refuse _

end Storage

end Almanac
