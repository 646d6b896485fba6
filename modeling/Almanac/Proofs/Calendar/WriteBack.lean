/-
  Almanac.Proofs.Calendar.WriteBack

  A listed event that is written back changes nothing. What is listed is stored as it is
  listed and well-formed, so it passes the checks, has nothing to round, and takes its own
  place (`update_of_stored`). Both front ends write events in a form that they read back as
  they were, and hence `writing_back_changes_nothing`.
-/
import Almanac.Proofs.Calendar.WellFormed
import Almanac.Proofs.Calendar.Windowed
import Almanac.Proofs.Http.Routed
import Almanac.Proofs.Json.Domain

namespace Almanac

open Storage (MemoryState)

/-- An entry that takes its own place leaves the table as it was. -/
theorem Table.insert_of_get? {α : Type} {t : Table α} {key : String} {v : α}
    (h : t.get? key = some v) : t.insert key v = t := by
  induction t with
  | nil => simp at h
  | cons entry t ih =>
      obtain ⟨k, w⟩ := entry
      rw [Table.get?_cons] at h
      unfold Table.insert
      split at h
      · next hkey =>
        obtain rfl := Option.some.inj h
        rw [hkey, if_pos (beq_self_eq_true key)]
      · next hkey => rw [if_neg (by simpa using hkey), ih h]

namespace Calendar

variable {m m' : MemoryState}

/-- Updating an event to what is stored. -/
theorem update_of_stored {e : Event} (hstored : m.store.events.get? e.id = some e)
    (hwell : e.WellFormed) : (inMemory.updateEvent e).perform m = (.ok (.ok ()), m) := by
  have hsame : m.store.updateEvent e = .ok m.store := by
    rw [Store.updateEvent, hstored, Table.insert_of_get? hstored]
    rfl
  rw [updateEvent, hwell.fault?_eq_none, hwell.rounded_eq]
  show (Storage.change (·.updateEvent e)).perform m = _
  rw [Storage.change, Action.perform_update, hsame]

/-- Listings show the events of some condition, and leave the memory alone. -/
def Lists (act : StorageAction MemoryState (List Event)) : Prop :=
  ∀ m, (∃ p, act.perform m = (.ok (.ok (m.store.listWhere p)), m)) ∨
    ∃ message, act.perform m = (.error (.crash message), m)

theorem lists_listEvents : Lists inMemory.listEvents := fun _ => Or.inl ⟨_, rfl⟩

theorem lists_eventsOfWindow (window : Option Window) :
    Lists (Storage.memory.eventsOfWindow window) := by
  intro m
  cases window with
  | some w => exact Or.inl ⟨_, rfl⟩
  | none => exact Or.inr ⟨_, rfl⟩

end Calendar

open Calendar (Lists)

/-! ## Over HTTP -/

namespace Http

variable {m m' : MemoryState}

/-- A request for a listing of events, all of them or those of a period. -/
def Request.ListsEvents (r : Request) : Prop :=
  r.method = "GET" ∧ (r.route? = some .listEvents ∨ ∃ p, r.route? = some (.listPeriod p))

/-- A request to put the event that is written in a JSON text in the place of the stored one. -/
def Request.Updates (r : Request) (text : Bytes) : Prop :=
  r.method = "PUT" ∧ r.route? = some .updateEvent ∧
    (r.contentType.map isJsonType).getD false = true ∧ r.body = text ∧ text.length ≤ maxBody

theorem listing_of_ask {act : StorageAction MemoryState (List Event)} (h : Lists act)
    {answer : Response}
    (hask : (ask act (.listing Event.layout)).perform m = (.ok answer, m')) :
    m' = m ∧ ∃ p, answer = .listing Event.layout (m.store.listWhere p) := by
  rcases h m with ⟨p, hperform⟩ | ⟨message, hperform⟩
  · rw [perform_ask hperform] at hask
    cases hask
    exact ⟨rfl, p, rfl⟩
  · rw [ask, Action.perform_bind, hperform] at hask
    cases hask

/-- A listing of events is answered well with events of the store. -/
theorem listing_of_respond {r : Request} (hlists : r.ListsEvents) {answer : Response}
    (hrespond : (respond Calendar.inMemory r).perform m = (.ok answer, m'))
    (hstatus : answer.status = 200) :
    m' = m ∧ ∃ p, answer = .listing Event.layout (m.store.listWhere p) := by
  obtain ⟨hmethod, hroute⟩ := hlists
  have hwhole : r.method ≠ "HEAD" := by rw [hmethod]; decide
  rcases hroute with hroute | ⟨period, hroute⟩
  · rw [respond_of_route hroute (by rw [hmethod]; decide) hwhole] at hrespond
    exact listing_of_ask Calendar.lists_listEvents hrespond
  · rw [respond_of_route hroute (by rw [hmethod]; rfl) hwhole] at hrespond
    unfold serve given at hrespond
    dsimp only at hrespond
    split at hrespond
    · next q _ =>
      rw [eventsOfPeriod_eq] at hrespond
      exact listing_of_ask (Calendar.lists_eventsOfWindow _) hrespond
    · next rejection hdate =>
      -- A date that cannot be read is turned away.
      cases hrespond
      unfold readDate at hdate
      split at hdate
      · simp at hdate
      · cases hdate
        simp [Response.rejected] at hstatus

theorem respond_update {put : Request} {e : Event} (hput : put.Updates (Event.layout.encode e))
    (hstored : m.store.events.get? e.id = some e) (hwell : e.WellFormed) :
    (respond Calendar.inMemory put).perform m = (.ok .done, m) := by
  obtain ⟨hmethod, hroute, htype, hbody, hlength⟩ := hput
  have hread : readBody Event.lenientLayout put = .ok e :=
    readBody_of_decode htype (by rw [hbody]; exact hlength)
      (by rw [hbody]; exact e.decode_lenient)
  rw [respond_of_route hroute (by rw [hmethod]; decide) (by rw [hmethod]; decide)]
  unfold serve
  dsimp only
  rw [given_ok hread, perform_ask (Calendar.update_of_stored hstored hwell)]

end Http

/-! ## As remote calls -/

namespace Rpc

variable {m m' : MemoryState}

/-- The methods that list events. -/
def listingMethods : List String :=
  ["EventService/SelectEvents", "EventService/SelectEventsForDay",
    "EventService/SelectEventsForWeek", "EventService/SelectEventsForMonth"]

theorem listing_of_ask {act : StorageAction MemoryState (List Event)} (h : Lists act)
    {reply : Bytes} (hask : (ask act eventListing).perform m = (.ok (.ok reply), m')) :
    m' = m ∧ ∃ p, reply = Message.encode (eventListing (m.store.listWhere p)) := by
  rcases h m with ⟨p, hperform⟩ | ⟨message, hperform⟩
  · rw [perform_ask hperform] at hask
    cases hask
    exact ⟨rfl, p, rfl⟩
  · rw [ask, Action.perform_bind, hperform] at hask
    cases hask

theorem listing_of_listFrom {list : Instant → StorageAction MemoryState (List Event)}
    (h : ∀ t, Lists (list t)) {body reply : Bytes}
    (hlist : (listFrom body list).perform m = (.ok (.ok reply), m')) :
    m' = m ∧ ∃ p, reply = Message.encode (eventListing (m.store.listWhere p)) := by
  by_cases hrefers : ∃ t, Refers body t
  · obtain ⟨t, ht⟩ := hrefers
    rw [listFrom_of_refers ht] at hlist
    exact listing_of_ask (h t) hlist
  · obtain ⟨refusal, heq⟩ := listFrom_of_not_refers (not_exists.mp hrefers) list
    rw [heq] at hlist
    cases hlist

/-- A listing of events is answered well with events of the store. -/
theorem listing_of_call {method : String} (hmethod : method ∈ listingMethods) {body reply : Bytes}
    (hcall : (call Calendar.inMemory method body).perform m = (.ok (.ok reply), m')) :
    m' = m ∧ ∃ p, reply = Message.encode (eventListing (m.store.listWhere p)) := by
  have hwindow : ∀ window? : Instant → Option Window,
      ∀ t, Lists (Storage.memory.eventsOfWindow (window? t)) :=
    fun window? t => Calendar.lists_eventsOfWindow (window? t)
  simp only [listingMethods, List.mem_cons, List.not_mem_nil, or_false] at hmethod
  rcases hmethod with rfl | rfl | rfl | rfl
  · change (given body fun (_ : Void) => ask Calendar.inMemory.listEvents eventListing).perform m =
      _ at hcall
    unfold given at hcall
    split at hcall
    · exact listing_of_ask Calendar.lists_listEvents hcall
    · cases hcall
  · exact listing_of_listFrom (hwindow Window.day?) hcall
  · exact listing_of_listFrom (hwindow Window.week?) hcall
  · exact listing_of_listFrom (hwindow Window.month?) hcall

theorem call_update {e : Event}
    (hlength : (Message.encode (EventMessage.ofEvent e)).length ≤ maxMessage) (hname : e.id ≠ "")
    (hstored : m.store.events.get? e.id = some e) (hwell : e.WellFormed) :
    (call Calendar.inMemory "EventService/UpdateEvent"
      (frame (Message.encode (EventMessage.ofEvent e)))).perform m =
        (.ok (.ok (Message.encode Void.mk)), m) := by
  have hmax : maxMessage = 4194304 := rfl
  have hargument := readArgument_frame hlength (decodeAt_encode_event 0 (by omega))
  have hnamed : ¬e.id.isEmpty = true := fun h => hname (String.isEmpty_iff.mp h)
  show (carryOut Calendar.inMemory _ .updateEvent).perform m = _
  unfold carryOut
  dsimp only
  rw [given_ok hargument, toEvent_ofEvent]
  unfold taken
  dsimp only
  rw [if_neg hnamed, perform_ask (Calendar.update_of_stored hstored hwell)]

end Rpc

/-! ## Both front ends -/

/-- Whatever visits an empty storage in memory has seen, a listed event that is written back
    changes nothing. Over HTTP the body of a listing is an array of events, and putting the text of
    one of them is answered with 204; a remote call replies with a list of event messages, and
    updating to one of them succeeds. Each time the storage stays exactly as it was. -/
theorem writing_back_changes_nothing {β : Type} (broker : Broker.Client β) (b : β) (ids : IdSource)
    (visits : List Visit) (m : MemoryState) (hm : Visit.reached broker b ids visits = m) :
    (∀ r answer m', r.ListsEvents →
      (Http.respond Calendar.inMemory r).perform m = (.ok answer, m') → answer.status = 200 →
      m' = m ∧ ∃ es : List Event, answer.content = .json (Event.layout.encodeList es) ∧
        Event.layout.decodeList (Event.layout.encodeList es) = .ok es ∧
        ∀ e ∈ es, ∀ put : Http.Request, put.Updates (Event.layout.encode e) →
          (Http.respond Calendar.inMemory put).perform m = (.ok { status := 204 }, m)) ∧
    ∀ method body reply m', method ∈ Rpc.listingMethods →
      (Rpc.call Calendar.inMemory method body).perform m = (.ok (.ok reply), m') →
      m' = m ∧ ∃ messages : List Rpc.EventMessage,
        reply = Rpc.Message.encode (Rpc.Listing.mk messages) ∧
        (reply.length < 2 ^ 64 →
          Rpc.Message.decode reply = some (Rpc.Listing.mk messages)) ∧
        ∀ message ∈ messages, (Rpc.Message.encode message).length ≤ Rpc.maxMessage →
          (Rpc.call Calendar.inMemory "EventService/UpdateEvent"
            (Rpc.frame (Rpc.Message.encode message))).perform m =
              (.ok (.ok (Rpc.Message.encode Rpc.Void.mk)), m) := by
  have hstore : m.store.WellFormed := hm ▸ Visit.wellFormed_reached broker b ids visits
  constructor
  · intro r answer m' hlists hrespond hstatus
    obtain ⟨rfl, p, rfl⟩ := Http.listing_of_respond hlists hrespond hstatus
    refine ⟨rfl, m'.store.listWhere p, rfl, ?_, ?_⟩
    · exact Json.Layout.decodeList_encodeList fun e _ => e.faithful
    · intro e he put hput
      obtain ⟨hstored, -, hwell⟩ := hstore.of_mem_listWhere he
      exact Http.respond_update hput hstored hwell
  · intro method body reply m' hmethod hcall
    obtain ⟨rfl, p, rfl⟩ := Rpc.listing_of_call hmethod hcall
    refine ⟨rfl, (m'.store.listWhere p).map .ofEvent, rfl, ?_, ?_⟩
    · intro hlength
      refine Rpc.decode_encode_listing (fun message hmem hshort => ?_) hlength
      obtain ⟨e, -, rfl⟩ := List.mem_map.mp hmem
      exact Rpc.decodeAt_encode_event 1 hshort
    · intro message hmem hlength
      obtain ⟨e, he, rfl⟩ := List.mem_map.mp hmem
      obtain ⟨hstored, hname, hwell⟩ := hstore.of_mem_listWhere he
      exact Rpc.call_update hlength hname hstored hwell

/-! ### The meeting -/

theorem plannedMemory_lists : plannedMemory.store.listEvents = [storedMeeting] :=
  Store.listWhere_single plannedMemory_events _

/-- The meeting is listed and written back, through both front ends. -/
theorem storedMeeting_written_back :
    (Http.respond Calendar.inMemory
        { method := "PUT", target := "/update/event", contentType := some "application/json",
          body := Event.layout.encode storedMeeting }).perform plannedMemory =
      (.ok { status := 204 }, plannedMemory) ∧
    (Rpc.call Calendar.inMemory "EventService/UpdateEvent"
        (Rpc.frame (Rpc.Message.encode (Rpc.EventMessage.ofEvent storedMeeting)))).perform
          plannedMemory =
      (.ok (.ok (Rpc.Message.encode Rpc.Void.mk)), plannedMemory) := by
  obtain ⟨hhttp, hrpc⟩ := writing_back_changes_nothing Broker.Client.memory {} {}
    [.direct (.createEvent plannedMeeting) trivial] plannedMemory rfl
  constructor
  · let r : Http.Request := { method := "GET", target := "/select/events" }
    have hroute : r.route? = some .listEvents := by decide
    have hlisted : (Http.respond Calendar.inMemory r).perform plannedMemory =
        (.ok (.listing Event.layout [storedMeeting]), plannedMemory) := by
      rw [Http.respond_of_route hroute (by decide) (by decide), ← plannedMemory_lists]
      rfl
    obtain ⟨-, es, hcontent, hes, hput⟩ := hhttp r _ _ ⟨rfl, Or.inl hroute⟩ hlisted rfl
    have hread := Json.Layout.decodeList_encodeList fun e (_ : e ∈ [storedMeeting]) => e.faithful
    -- The body of the response holds the meeting and nothing else.
    have hsame : Event.layout.encodeList [storedMeeting] = Event.layout.encodeList es := by
      injection hcontent
    rw [← hsame, hread] at hes
    obtain rfl := Except.ok.inj hes
    refine hput storedMeeting (List.mem_singleton.mpr rfl) _ ⟨rfl, by decide, by decide, rfl, ?_⟩
    decide +kernel
  · have hlisted : (Rpc.call Calendar.inMemory "EventService/SelectEvents" (Rpc.frame [])).perform
        plannedMemory =
          (.ok (.ok (Rpc.Message.encode (Rpc.eventListing [storedMeeting]))), plannedMemory) := by
      rw [← plannedMemory_lists]
      rfl
    obtain ⟨-, messages, hreply, hread, hupdate⟩ := hrpc _ _ _ _ (by decide) hlisted
    have hshort : (Rpc.Message.encode (Rpc.eventListing [storedMeeting])).length < 2 ^ 64 := by
      decide +kernel
    have hitems : ∀ message ∈ [Rpc.EventMessage.ofEvent storedMeeting],
        (Rpc.Message.encode message).length < 18446744073709551616 →
          Rpc.Message.decodeAt 1 (Rpc.Message.encode message) = some message := by
      intro message hmem hsmall
      obtain rfl := List.mem_singleton.mp hmem
      exact Rpc.decodeAt_encode_event 1 hsmall
    have hmessages := (Rpc.decode_encode_listing hitems hshort).symm.trans (hread hshort)
    obtain rfl : [Rpc.EventMessage.ofEvent storedMeeting] = messages :=
      Rpc.Listing.mk.inj (Option.some.inj hmessages)
    refine hupdate _ (List.mem_singleton.mpr rfl) ?_
    decide +kernel

end Almanac
