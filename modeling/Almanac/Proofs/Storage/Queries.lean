/-
  Almanac.Proofs.Storage.Queries

  What the storage in memory answers when it is asked for records. The answer lists the records
  that are wanted, each of them once and in strict order (`Table.Lists`), and there is one such
  list for what a table holds under its keys. So it is the same for every order in which the
  tables keep their keys (`MemoryState.Shuffles`), and for all memories that hold the same.

  The queries for events differ in their condition only (`Query.ask_memory`), so each fact about
  them is proved once. That there are no ties in the order rests on each record standing under its
  own id, which every operation keeps (`Reached.events_keyed`, `Reached.users_keyed`).
-/
import Almanac.Proofs.Storage.Listing

namespace Almanac

/-! ## Listings of a table -/

namespace Table

variable {α : Type} {idOf : α → String} {t t' : Table α} {before : α → α → Prop}
  {wanted : α → Prop} {listing : List α}

/-- The records of a table that are wanted, each of them once and in strict order. -/
structure Lists (t : Table α) (before : α → α → Prop) (wanted : α → Prop)
    (listing : List α) : Prop where
  once : listing.Nodup
  sorted : listing.Pairwise before
  mem_iff : ∀ v, v ∈ listing ↔ (∃ key, t.get? key = some v) ∧ wanted v

/-- Only what a table holds under its keys counts. -/
theorem Lists.congr (h : t.Lists before wanted listing) (hsame : ∀ key, t.get? key = t'.get? key) :
    t'.Lists before wanted listing where
  once := h.once
  sorted := h.sorted
  mem_iff v := by simp only [h.mem_iff, hsame]

/-- There is one such list for what tables hold under their keys. -/
theorem Lists.unique [Std.Asymm before] {listing' : List α} (h : t.Lists before wanted listing)
    (h' : t'.Lists before wanted listing') (hsame : ∀ key, t.get? key = t'.get? key) :
    listing = listing' :=
  h.sorted.eq_of_mem_iff h'.sorted fun v => by rw [(h.congr hsame).mem_iff, h'.mem_iff]

namespace KeyedBy

/-- A record is in a table when it stands there under its own id. -/
theorem get?_own_iff (ht : t.KeyedBy idOf) {v : α} :
    t.get? (idOf v) = some v ↔ ∃ key, t.get? key = some v := by
  constructor
  · intro h
    exact ⟨_, h⟩
  · rintro ⟨key, h⟩
    rw [ht.own key v h]
    exact h

/-- Another order of the keys. -/
theorem perm (ht : t.KeyedBy idOf) (h : t.Perm t') : t'.KeyedBy idOf where
  names := nodup_keys_perm ht.names h
  own key v hget := ht.own key v ((get?_perm ht.names h key).symm.trans hget)

end KeyedBy

end Table

namespace Store

variable {s : Store}

theorem lists_listWhere (hs : s.events.KeyedBy Event.id) {p : Event → Bool}
    {wanted : Event → Prop} (hp : ∀ e, p e = true ↔ wanted e) :
    s.events.Lists Event.Precedes wanted (s.listWhere p) where
  once := (pairwise_listWhere hs p).nodup
  sorted := pairwise_listWhere hs p
  mem_iff e := by rw [mem_listWhere_iff hs, hs.get?_own_iff, hp]

theorem lists_listUsers (hs : s.users.KeyedBy User.id) :
    s.users.Lists User.Precedes (fun _ => True) s.listUsers where
  once := (pairwise_listUsers hs).nodup
  sorted := pairwise_listUsers hs
  mem_iff u := by rw [mem_listUsers hs, hs.get?_own_iff, and_true]

end Store

namespace Storage

/-! ## Queries -/

/-- What a storage can be asked about its events. -/
inductive Query
  | all
  | beginningIn (w : Window)
  | notifiedIn (t : Instant)
  | notifiedBetween (after limit : Instant)
  | beginningBefore (t : Instant)

/-- The operation of a storage that answers a query. -/
def Query.ask {σ : Type} (storage : Storage σ) : Query → StorageAction σ (List Event)
  | .all => storage.listEvents
  | .beginningIn w => storage.eventsIn w
  | .notifiedIn t => storage.eventsAt t
  | .notifiedBetween after limit => storage.eventsDueBetween after limit
  | .beginningBefore t => storage.eventsBefore t

/-- The events that a query is about. -/
def Query.Wants : Query → Event → Prop
  | .all, _ => True
  | .beginningIn w, e => w.start ≤ e.beginning ∧ e.beginning < w.finish
  | .notifiedIn t, e => e.notification.floorSecond = t.floorSecond
  | .notifiedBetween after limit, e =>
    after.floorSecond < e.notification.floorSecond ∧
      e.notification.floorSecond ≤ limit.floorSecond
  | .beginningBefore t, e => e.beginning < t

/-- In memory every query is a listing with a condition of its own. -/
theorem Query.ask_memory (q : Query) :
    ∃ p : Event → Bool, q.ask memory = look (·.listWhere p) ∧ ∀ e, p e = true ↔ q.Wants e := by
  cases q with
  | all => exact ⟨_, rfl, fun e => by simp only [Query.Wants]⟩
  | beginningIn w =>
      exact ⟨_, rfl, fun e => by simp only [Query.Wants, Window.contains, decide_eq_true_eq]⟩
  | notifiedIn t => exact ⟨_, rfl, fun e => by simp only [Query.Wants, beq_iff_eq]⟩
  | notifiedBetween after limit =>
      exact ⟨_, rfl, fun e => by simp only [Query.Wants, Bool.and_eq_true, decide_eq_true_eq]⟩
  | beginningBefore t => exact ⟨_, rfl, fun e => by simp only [Query.Wants, decide_eq_true_eq]⟩

/-! ## The order of the tables -/

/-- Two memories with the same records, each with an order of its own. -/
structure MemoryState.Shuffles (s m : MemoryState) : Prop where
  users : s.store.users.Perm m.store.users
  events : s.store.events.Perm m.store.events

theorem perform_look {α : Type} (f : Store → α) (m : MemoryState) :
    (look f).perform m = (.ok (.ok (f m.store)), m) := rfl

variable {m s : MemoryState}

/-- A query lists the events that it is about, whatever their order in the table is. -/
theorem Reached.lists_events (hm : Reached m) (hs : s.Shuffles m) (q : Query) :
    ∃ events, (q.ask memory).perform s = (.ok (.ok events), s) ∧
      m.store.events.Lists Event.Precedes q.Wants events := by
  obtain ⟨p, hask, hp⟩ := q.ask_memory
  have hkeyed : s.store.events.KeyedBy Event.id := hm.events_keyed.perm hs.events.symm
  refine ⟨s.store.listWhere p, by rw [hask, perform_look], ?_⟩
  exact (Store.lists_listWhere hkeyed hp).congr (Table.get?_perm hkeyed.names hs.events · |>.symm)

theorem Reached.lists_users (hm : Reached m) (hs : s.Shuffles m) :
    ∃ users, memory.listUsers.perform s = (.ok (.ok users), s) ∧
      m.store.users.Lists User.Precedes (fun _ => True) users := by
  have hkeyed : s.store.users.KeyedBy User.id := hm.users_keyed.perm hs.users.symm
  refine ⟨s.store.listUsers, rfl, ?_⟩
  exact (Store.lists_listUsers hkeyed).congr (Table.get?_perm hkeyed.names hs.users · |>.symm)

/-- Whatever the operations of the storage in memory have come to, and in whatever order its
    tables keep their keys, every query for events answers those events that it is about, each of
    them once, in strict order of their beginnings and then of their ids; all users are listed
    once, in strict order of their ids. Nothing changes thereby. Memories that hold the same
    events, or the same users, answer the same. -/
theorem listings_exact_in_any_order (hm : Reached m) (hs : s.Shuffles m) :
    (∀ q : Query, ∃ events, (q.ask memory).perform s = (.ok (.ok events), s) ∧
      m.store.events.Lists Event.Precedes q.Wants events) ∧
    (∃ users, memory.listUsers.perform s = (.ok (.ok users), s) ∧
      m.store.users.Lists User.Precedes (fun _ => True) users) ∧
    ∀ m' s', Reached m' → MemoryState.Shuffles s' m' →
      ((∀ id, m.store.events.get? id = m'.store.events.get? id) →
        ∀ q : Query, ((q.ask memory).perform s).1 = ((q.ask memory).perform s').1) ∧
      ((∀ id, m.store.users.get? id = m'.store.users.get? id) →
        (memory.listUsers.perform s).1 = (memory.listUsers.perform s').1) := by
  refine ⟨hm.lists_events hs, hm.lists_users hs, fun m' s' hm' hs' => ⟨fun hsame q => ?_,
    fun hsame => ?_⟩⟩
  · obtain ⟨events, hanswer, hlists⟩ := hm.lists_events hs q
    obtain ⟨events', hanswer', hlists'⟩ := hm'.lists_events hs' q
    rw [hanswer, hanswer', hlists.unique hlists' hsame]
  · obtain ⟨users, hanswer, hlists⟩ := hm.lists_users hs
    obtain ⟨users', hanswer', hlists'⟩ := hm'.lists_users hs'
    rw [hanswer, hanswer', hlists.unique hlists' hsame]

/-! ## Two events that begin together -/

/-- An event at the beginning of time. -/
def earliestDraft : EventDraft :=
  ⟨"first light", "", Instant.first, Instant.first, Instant.first, "nobody"⟩

/-- A memory in which that event has been created twice. -/
def twinMemory : MemoryState :=
  ((memory.createEvent earliestDraft).perform
    ((memory.createEvent earliestDraft).perform {}).2).2

/-- The same memory with its events the other way round. -/
def shuffledTwins : MemoryState :=
  { twinMemory with store := { twinMemory.store with events := twinMemory.store.events.reverse } }

theorem shuffledTwins_listed_alike :
    Reached twinMemory ∧ shuffledTwins.Shuffles twinMemory ∧
      shuffledTwins.store.events ≠ twinMemory.store.events ∧
      (∃ events, (Query.all.ask memory).perform shuffledTwins =
          (.ok (.ok events), shuffledTwins) ∧ events.length = 2 ∧
        events.Pairwise Event.Precedes) ∧
      ∀ q : Query, ((q.ask memory).perform shuffledTwins).1 =
        ((q.ask memory).perform twinMemory).1 := by
  have hreached : Reached twinMemory := .createEvent (.createEvent (.empty {}) _) _
  have hshuffles : shuffledTwins.Shuffles twinMemory :=
    ⟨List.Perm.refl _, List.reverse_perm _⟩
  have hself : twinMemory.Shuffles twinMemory := ⟨List.Perm.refl _, List.Perm.refl _⟩
  obtain ⟨hlists, -, hsame⟩ := listings_exact_in_any_order hreached hshuffles
  obtain ⟨events, hanswer, hevents⟩ := hlists .all
  refine ⟨hreached, hshuffles, by decide, ⟨events, hanswer, ?_, hevents.sorted⟩,
    (hsame twinMemory twinMemory hreached hself).1 fun _ => rfl⟩
  cases hanswer
  rw [Store.listEvents, Store.listWhere, List.length_mergeSort, List.filter_true]
  rfl

end Storage

end Almanac
