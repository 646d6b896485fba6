/-
  Almanac.Proofs.Calendar.Directory

  What the calendar is, without its tables and its gate: a directory of one finite map of users
  and one of events, and of the ids that have been given to records so far. `Serves` says what
  a directory answers to a request and what it is afterwards, request by request, and `Run`
  strings such requests together.

  A request that is not answered well changes nothing, and one that is changes at most the entry
  it is about (`Serves.framed`). Apart from the id of a new record, a directory has no choice
  (`Serves.unique`); in a run it gives no id twice (`Run.issued`).
-/
import Almanac.Calendar
import Almanac.Proofs.Storage.Listing
import Mathlib.Data.Finmap

namespace Almanac.Calendar

/-! ## Requests -/

/-- Which events are asked for. -/
inductive Selection
  | all
  | day (t : Instant)
  | week (t : Instant)
  | month (t : Instant)
  | notifiedIn (t : Instant)
  | notifiedBetween (after limit : Instant)
  | before (t : Instant)

/-- What a client can ask of the calendar. -/
inductive Request
  | createUser (u : UserDraft)
  | deleteUser (id : String)
  | listUsers
  | createEvent (e : EventDraft)
  | updateEvent (e : Event)
  | deleteEvent (id : String)
  | select (which : Selection)

/-- What a request is answered with if all goes well. -/
inductive Answer
  /-- The id of a new record. -/
  | created (id : String)
  | done
  | users (us : List User)
  | events (es : List Event)

/-- An answer or an error, or the caller crashes. -/
abbrev Response := Except Stall (Except StorageError Answer)

namespace Response

def answer (a : Answer) : Response := .ok (.ok a)

def failure (e : StorageError) : Response := .ok (.error e)

def crash (message : String) : Response := .error (.crash message)

/-- The id that a response gives to a new record. -/
def createdId? : Response → Option String
  | .ok (.ok (.created id)) => some id
  | _ => none

end Response

/-- The events that a selection is about. A window that would end before it starts has none. -/
def Selection.condition? : Selection → Option (Event → Prop)
  | .all => some fun _ => True
  | .day t => (Window.day? t).map fun w e => w.start ≤ e.beginning ∧ e.beginning < w.finish
  | .week t => (Window.week? t).map fun w e => w.start ≤ e.beginning ∧ e.beginning < w.finish
  | .month t => (Window.month? t).map fun w e => w.start ≤ e.beginning ∧ e.beginning < w.finish
  | .notifiedIn t => some fun e => e.notification.floorSecond = t.floorSecond
  | .notifiedBetween after limit => some fun e =>
    after.floorSecond < e.notification.floorSecond ∧
      e.notification.floorSecond ≤ limit.floorSecond
  | .before t => some fun e => e.beginning < t

/-! ## The directory -/

/-- Users and events by their ids, and all ids given so far. -/
structure Directory where
  users : Finmap fun _ : String => User := ∅
  events : Finmap fun _ : String => Event := ∅
  issued : List String := []

namespace Directory

/-- The directory with a new user. -/
def addUser (d : Directory) (id : String) (u : UserDraft) : Directory :=
  { d with users := d.users.insert id { u with id }, issued := d.issued ++ [id] }

/-- The directory with an event under its id. -/
def putEvent (d : Directory) (e : Event) : Directory :=
  { d with events := d.events.insert e.id e }

/-- The directory with a new event, whose notification is cut to the second. -/
def addEvent (d : Directory) (id : String) (e : EventDraft) : Directory :=
  { d.putEvent { e with id, notification := e.notification.floorSecond } with
    issued := d.issued ++ [id] }

/-- What a directory answers to a request, and what it is afterwards. -/
def Serves (d : Directory) : Request → Response → Directory → Prop
  | .createUser u, response, after =>
    ∃ id, id ∉ d.issued ∧ response = .answer (.created id) ∧ after = d.addUser id u
  | .deleteUser id, response, after =>
    if id ∈ d.users then response = .answer .done ∧ after = { d with users := d.users.erase id }
    else response = .failure ⟨.notFound, "user " ++ id, false⟩ ∧ after = d
  | .listUsers, response, after =>
    after = d ∧ ∃ us : List User, response = .answer (.users us) ∧ us.Pairwise User.Precedes ∧
      ∀ u, u ∈ us ↔ d.users.lookup u.id = some u
  | .createEvent e, response, after =>
    if isAllBlank e.title then
      response = .failure ⟨.validation, "event title must not be empty", false⟩ ∧ after = d
    else if e.finish < e.beginning then
      response = .failure ⟨.validation, "event finish precedes its beginning", false⟩ ∧ after = d
    else ∃ id, id ∉ d.issued ∧ response = .answer (.created id) ∧ after = d.addEvent id e
  | .updateEvent e, response, after =>
    if isAllBlank e.title then
      response = .failure ⟨.validation, "event title must not be empty", false⟩ ∧ after = d
    else if e.finish < e.beginning then
      response = .failure ⟨.validation, "event finish precedes its beginning", false⟩ ∧ after = d
    else if e.id ∈ d.events then
      response = .answer .done ∧
        after = d.putEvent { e with notification := e.notification.floorSecond }
    else response = .failure ⟨.notFound, "event " ++ e.id, false⟩ ∧ after = d
  | .deleteEvent id, response, after =>
    if id ∈ d.events then
      response = .answer .done ∧ after = { d with events := d.events.erase id }
    else response = .failure ⟨.notFound, "event " ++ id, false⟩ ∧ after = d
  | .select which, response, after =>
    after = d ∧
      match which.condition? with
      | none => response = .crash "TimeWindow start must be <= end"
      | some condition => ∃ es : List Event, response = .answer (.events es) ∧
          es.Pairwise Event.Precedes ∧
          ∀ e, e ∈ es ↔ d.events.lookup e.id = some e ∧ condition e

/-- A directory serves requests one after the other. -/
inductive Run : Directory → List (Request × Response) → Directory → Prop
  | nil (d : Directory) : Run d [] d
  | snoc {d e f : Directory} {served : List (Request × Response)} {request : Request}
      {response : Response} (hrun : Run d served e) (hserves : e.Serves request response f) :
      Run d (served ++ [(request, response)]) f

variable {d e f : Directory} {request : Request} {response : Response}

/-! ## What changes -/

/-- How serving a request can change a directory. -/
inductive Change (d : Directory) : Request → Response → Directory → Prop
  | none {request : Request} {response : Response} (hnone : response.createdId? = none) :
      Change d request response d
  | userAdded {u : UserDraft} {id : String} (hfresh : id ∉ d.issued) :
      Change d (.createUser u) (.answer (.created id)) (d.addUser id u)
  | userErased {id : String} :
      Change d (.deleteUser id) (.answer .done) { d with users := d.users.erase id }
  | eventAdded {draft : EventDraft} {id : String} (hfresh : id ∉ d.issued) :
      Change d (.createEvent draft) (.answer (.created id)) (d.addEvent id draft)
  | eventReplaced {event : Event} (hthere : event.id ∈ d.events) :
      Change d (.updateEvent event) (.answer .done)
        (d.putEvent { event with notification := event.notification.floorSecond })
  | eventErased {id : String} :
      Change d (.deleteEvent id) (.answer .done) { d with events := d.events.erase id }

theorem Serves.change (h : d.Serves request response e) : d.Change request response e := by
  cases request with
  | createUser u =>
      obtain ⟨id, hfresh, rfl, rfl⟩ := h
      exact .userAdded hfresh
  | deleteUser id =>
      rw [Serves] at h
      split at h <;> obtain ⟨rfl, rfl⟩ := h
      · exact .userErased
      · exact .none rfl
  | listUsers =>
      obtain ⟨rfl, us, rfl, -⟩ := h
      exact .none rfl
  | createEvent draft =>
      rw [Serves] at h
      split at h
      · obtain ⟨rfl, rfl⟩ := h
        exact .none rfl
      · split at h
        · obtain ⟨rfl, rfl⟩ := h
          exact .none rfl
        · obtain ⟨id, hfresh, rfl, rfl⟩ := h
          exact .eventAdded hfresh
  | updateEvent event =>
      rw [Serves] at h
      split at h
      · obtain ⟨rfl, rfl⟩ := h
        exact .none rfl
      · split at h
        · obtain ⟨rfl, rfl⟩ := h
          exact .none rfl
        · split at h
          · next hthere =>
            obtain ⟨rfl, rfl⟩ := h
            exact .eventReplaced hthere
          · obtain ⟨rfl, rfl⟩ := h
            exact .none rfl
  | deleteEvent id =>
      rw [Serves] at h
      split at h <;> obtain ⟨rfl, rfl⟩ := h
      · exact .eventErased
      · exact .none rfl
  | select which =>
      obtain ⟨rfl, hlisting⟩ := h
      split at hlisting
      · rw [hlisting]
        exact .none rfl
      · obtain ⟨es, rfl, -⟩ := hlisting
        exact .none rfl

/-- A response that is not a good answer leaves the directory as it was. -/
theorem Serves.unchanged (h : d.Serves request response e)
    (hbad : ∀ a, response ≠ .answer a) : e = d := by
  cases h.change with
  | none => rfl
  | _ => exact (hbad _ rfl).elim

/-- The users change where one is created, which is where there was none, or deleted. -/
theorem Serves.users_changed (h : d.Serves request response e) {id : String}
    (hne : e.users.lookup id ≠ d.users.lookup id) :
    (∃ u, request = .createUser u ∧ response = .answer (.created id)) ∨
      request = .deleteUser id := by
  cases h.change with
  | @userAdded u new =>
      by_cases hid : id = new
      · exact Or.inl ⟨u, rfl, hid ▸ rfl⟩
      · exact (hne (Finmap.lookup_insert_of_ne _ hid)).elim
  | @userErased gone =>
      by_cases hid : id = gone
      · exact Or.inr (hid ▸ rfl)
      · exact (hne (Finmap.lookup_erase_ne hid)).elim
  | _ => exact (hne rfl).elim

/-- The events change where one is created, replaced or deleted. -/
theorem Serves.events_changed (h : d.Serves request response e) {id : String}
    (hne : e.events.lookup id ≠ d.events.lookup id) :
    (∃ draft, request = .createEvent draft ∧ response = .answer (.created id)) ∨
      (∃ event : Event, request = .updateEvent event ∧ event.id = id ∧ id ∈ d.events) ∨
      request = .deleteEvent id := by
  cases h.change with
  | @eventAdded draft new =>
      by_cases hid : id = new
      · exact Or.inl ⟨draft, rfl, hid ▸ rfl⟩
      · exact (hne (Finmap.lookup_insert_of_ne _ hid)).elim
  | @eventReplaced event hthere =>
      by_cases hid : id = event.id
      · exact Or.inr (Or.inl ⟨event, rfl, hid.symm, hid ▸ hthere⟩)
      · exact (hne (Finmap.lookup_insert_of_ne _ hid)).elim
  | @eventErased gone =>
      by_cases hid : id = gone
      · exact Or.inr (Or.inr (hid ▸ rfl))
      · exact (hne (Finmap.lookup_erase_ne hid)).elim
  | _ => exact (hne rfl).elim

/-- What a request may touch: nothing if it is not answered well, and otherwise the entry of the
    id that it creates, replaces or deletes. -/
structure Framed (d : Directory) (request : Request) (response : Response) (e : Directory) :
    Prop where
  unchanged : (∀ a, response ≠ .answer a) → e = d
  users : ∀ id, e.users.lookup id ≠ d.users.lookup id →
    (∃ u, request = .createUser u ∧ response = .answer (.created id)) ∨ request = .deleteUser id
  events : ∀ id, e.events.lookup id ≠ d.events.lookup id →
    (∃ draft, request = .createEvent draft ∧ response = .answer (.created id)) ∨
      (∃ event : Event, request = .updateEvent event ∧ event.id = id ∧ id ∈ d.events) ∨
      request = .deleteEvent id

theorem Serves.framed (h : d.Serves request response e) : d.Framed request response e where
  unchanged := h.unchanged
  users _ := h.users_changed
  events _ := h.events_changed

/-- Two ways of serving one request differ in the id of a new record only. -/
theorem Serves.unique {response' : Response} {e' : Directory} (h : d.Serves request response e)
    (h' : d.Serves request response' e') (hid : response.createdId? = response'.createdId?) :
    response = response' ∧ e = e' := by
  cases request with
  | createUser u =>
      obtain ⟨id, -, rfl, rfl⟩ := h
      obtain ⟨id', -, rfl, rfl⟩ := h'
      obtain rfl : id = id' := Option.some.inj hid
      exact ⟨rfl, rfl⟩
  | createEvent draft =>
      rw [Serves] at h h'
      split at h
      · next htitle =>
        rw [if_pos htitle] at h'
        exact ⟨h.1.trans h'.1.symm, h.2.trans h'.2.symm⟩
      · next htitle =>
        rw [if_neg htitle] at h'
        split at h
        · next horder =>
          rw [if_pos horder] at h'
          exact ⟨h.1.trans h'.1.symm, h.2.trans h'.2.symm⟩
        · next horder =>
          rw [if_neg horder] at h'
          obtain ⟨id, -, rfl, rfl⟩ := h
          obtain ⟨id', -, rfl, rfl⟩ := h'
          obtain rfl : id = id' := Option.some.inj hid
          exact ⟨rfl, rfl⟩
  | listUsers =>
      obtain ⟨rfl, us, rfl, hus, hmem⟩ := h
      obtain ⟨rfl, us', rfl, hus', hmem'⟩ := h'
      have hsame : us = us' :=
        User.listing_unique hus hus' fun u => (hmem u).trans (hmem' u).symm
      rw [hsame]
      exact ⟨rfl, rfl⟩
  | select which =>
      obtain ⟨rfl, hlisting⟩ := h
      obtain ⟨rfl, hlisting'⟩ := h'
      cases hcondition : which.condition? with
      | none =>
          rw [hcondition] at hlisting hlisting'
          exact ⟨hlisting.trans hlisting'.symm, rfl⟩
      | some condition =>
          rw [hcondition] at hlisting hlisting'
          obtain ⟨es, rfl, hes, hmem⟩ := hlisting
          obtain ⟨es', rfl, hes', hmem'⟩ := hlisting'
          have hsame : es = es' :=
            Event.listing_unique hes hes' fun e => (hmem e).trans (hmem' e).symm
          rw [hsame]
          exact ⟨rfl, rfl⟩
  -- The other requests leave nothing open.
  | deleteUser | updateEvent | deleteEvent =>
      rw [Serves] at h h'
      grind

/-! ## Ids -/

/-- The ids given by a response are those that the directory counts as given since. -/
theorem Serves.issued (h : d.Serves request response e) :
    e.issued = d.issued ++ response.createdId?.toList := by
  cases h.change with
  | none hnone => rw [hnone, Option.toList_none, List.append_nil]
  | userAdded => rfl
  | eventAdded => rfl
  | _ => exact (List.append_nil _).symm

/-- No id is given twice. -/
theorem Serves.nodup_issued (h : d.Serves request response e) (hd : d.issued.Nodup) :
    e.issued.Nodup := by
  have hmore {id : String} (hfresh : id ∉ d.issued) : (d.issued ++ [id]).Nodup := by
    rw [← List.concat_eq_append]
    exact hd.concat hfresh
  cases h.change with
  | userAdded hfresh => exact hmore hfresh
  | eventAdded hfresh => exact hmore hfresh
  | _ => exact hd

/-- Records only stand under ids that have been given. -/
def Accounted (d : Directory) : Prop :=
  ∀ id, id ∈ d.users ∨ id ∈ d.events → id ∈ d.issued

theorem Serves.accounted (h : d.Serves request response e) (hd : d.Accounted) :
    e.Accounted := by
  intro id hid
  cases h.change with
  | none => exact hd id hid
  | userAdded =>
      rw [addUser, Finmap.mem_insert, or_assoc] at hid
      rcases hid with rfl | hold
      · exact List.mem_append_right _ (List.mem_singleton.mpr rfl)
      · exact List.mem_append_left _ (hd id hold)
  | userErased => exact hd id (hid.imp_left fun h => (Finmap.mem_erase.mp h).2)
  | eventAdded =>
      rw [addEvent, putEvent, Finmap.mem_insert] at hid
      rcases hid with hold | rfl | hold
      · exact List.mem_append_left _ (hd id (Or.inl hold))
      · exact List.mem_append_right _ (List.mem_singleton.mpr rfl)
      · exact List.mem_append_left _ (hd id (Or.inr hold))
  | @eventReplaced event hthere =>
      rw [putEvent, Finmap.mem_insert] at hid
      rcases hid with hold | rfl | hold
      · exact hd id (Or.inl hold)
      · exact hd event.id (Or.inr hthere)
      · exact hd id (Or.inr hold)
  | eventErased => exact hd id (hid.imp_right fun h => (Finmap.mem_erase.mp h).2)

/-- A run from an empty directory gives each id once, and only to records. -/
theorem Run.issued {served : List (Request × Response)} (h : Run {} served d) :
    d.issued = served.filterMap (·.2.createdId?) ∧ d.issued.Nodup ∧ d.Accounted := by
  induction h with
  | nil =>
      refine ⟨rfl, List.nodup_nil, fun id hid => ?_⟩
      rcases hid with huser | hevent
      · exact (Finmap.notMem_empty huser).elim
      · exact (Finmap.notMem_empty hevent).elim
  | @snoc e f served request response hrun hserves ih =>
      obtain ⟨hissued, hnodup, haccounted⟩ := ih
      refine ⟨?_, hserves.nodup_issued hnodup, hserves.accounted haccounted⟩
      rw [hserves.issued, hissued, List.filterMap_append]
      cases hid : response.createdId? <;> simp [hid]

end Directory

end Almanac.Calendar
