/-
  Almanac.Proofs.Calendar.FrontEnds

  The two front ends of a calendar are one service. Whatever storage is behind it, a request over
  HTTP and a remote call that bring the same request leave the same state, and what they are
  answered with reads the same (`SameAnswer`): the same id, the same list of records in the same
  order, or errors with the same message and codes that correspond.
-/
import Almanac.Proofs.Calendar.Sent
import Almanac.Proofs.Calendar.WriteBack

namespace Almanac

open Calendar (Answer)
open Storage (MemoryState)

/-! ## Answers -/

/-- The codes of the two front ends for one kind of error: there is no such record, the record was
    refused, the storage could not be reached, and anything else. -/
def correspondingCodes : List (Nat × Nat) := [(404, 5), (400, 3), (503, 14), (500, 13)]

/-- A response and a reply in which a client reads the same. -/
inductive SameAnswer : Http.Response → Except Rpc.Refusal Bytes → Prop
  | created {id : String} {text reply : Bytes}
      (hresponse : Http.Created.layout.decode text = .ok ⟨id⟩)
      (hreply : Rpc.Message.decode reply = some (Rpc.Id.mk id)) :
      SameAnswer { status := 201, content := .json text } (.ok reply)
  | done {reply : Bytes} (hreply : Rpc.Message.decode reply = some Rpc.Void.mk) :
      SameAnswer { status := 204 } (.ok reply)
  | users {us : List User} {text reply : Bytes}
      (hresponse : User.layout.decodeList text = .ok us)
      (hreply : Rpc.Message.decode reply = some (Rpc.Listing.mk us)) :
      SameAnswer { status := 200, content := .json text } (.ok reply)
  /-- Messages of events stand for the events one by one. -/
  | events {es : List Event} {messages : List Rpc.EventMessage} {text reply : Bytes}
      (hresponse : Event.layout.decodeList text = .ok es)
      (hreply : Rpc.Message.decode reply = some (Rpc.Listing.mk messages))
      (hsame : messages.map Rpc.EventMessage.toEvent = es.map .ok) :
      SameAnswer { status := 200, content := .json text } (.ok reply)
  | failure {refusal : Rpc.Refusal} {status : Nat} {code : String} {text : Bytes}
      (hcodes : (status, refusal.code) ∈ correspondingCodes)
      (hresponse : Http.Failure.layout.decode text = .ok ⟨code, refusal.message⟩) :
      SameAnswer { status, content := .json text } (.error refusal)

/-- A reply whose bytes can be counted with 64 bits. -/
def Rpc.Countable (reply : Except Rpc.Refusal Bytes) : Prop :=
  ∀ bytes, reply = .ok bytes → bytes.length < 2 ^ 64

theorem corresponding_codes (code : StorageCode) :
    (code.httpStatus, code.rpcCode) ∈ correspondingCodes := by
  cases code <;> decide

/-- Both front ends put what the calendar says into a form that reads the same. -/
theorem sameAnswer_of_result {result : Except StorageError Answer}
    (hages : ∀ us, result = .ok (.users us) → ∀ u ∈ us, u.age ≤ maxAge)
    (hcountable : Rpc.Countable (Rpc.replyOf result)) :
    SameAnswer (Http.answerOf result) (Rpc.replyOf result) := by
  obtain ⟨-, hevents, husers, -, -⟩ := Rpc.domain_values_survive
  cases result with
  | error e => exact .failure (corresponding_codes e.code) (Http.Failure.decode_encode _)
  | ok answer =>
      cases answer with
      | created id =>
          exact .created (Http.Created.decode_encode _) (Rpc.decode_encode_id (hcountable _ rfl))
      | done => exact .done Rpc.decode_encode_void
      | users us =>
          have hsmall := hages us rfl
          refine .users (Json.Layout.decodeList_encodeList fun u hu => User.faithful (hsmall u hu))
            (husers us (fun u hu => ?_) (hcountable _ rfl))
          exact Nat.lt_succ_of_le (hsmall u hu)
      | events es =>
          obtain ⟨⟨messages⟩, hreply, hsame⟩ := hevents es (hcountable _ rfl)
          exact .events (Json.Layout.decodeList_encodeList fun e _ => e.faithful) hreply hsame

/-! ## States -/

namespace Calendar

/-- The users that a calendar lists in a state have ages of 32 bits. -/
def ListsAges {σ : Type} (c : Calendar σ) (s : σ) : Prop :=
  ∀ us s', c.listUsers.perform s = (.ok (.ok us), s') → ∀ u ∈ us, u.age ≤ maxAge

/-- Only the listing of users answers with users. -/
theorem ListsAges.of_serve {σ : Type} {c : Calendar σ} {s s' : σ} (h : c.ListsAges s)
    {request : Request} {us : List User}
    (hserve : (c.serve request).perform s = (.ok (.ok (.users us)), s')) :
    ∀ u ∈ us, u.age ≤ maxAge := by
  -- An operation whose results are wrapped otherwise is not answered with users.
  have hother : ∀ {α : Type} (wrap : α → Answer) (act : StorageAction σ α),
      (∀ a, wrap a ≠ .users us) →
      (respond wrap act).perform s ≠ (.ok (.ok (.users us)), s') := by
    intro α wrap act hwrap hrespond
    obtain ⟨result, s₁, -, hresult⟩ := Action.perform_bind_eq_ok.mp hrespond
    cases result with
    | ok a =>
        have hfound : wrap a = .users us := by
          injection hresult with hresult
          injection hresult with hresult
          injection hresult
        exact hwrap a hfound
    | error e => cases hresult
  cases request with
  | listUsers =>
      obtain ⟨result, s₁, hlist, hresult⟩ := Action.perform_bind_eq_ok.mp hserve
      cases result with
      | ok found =>
          cases hresult
          exact h _ _ hlist
      | error e => cases hresult
  | createUser u => exact (hother Answer.created _ (fun _ => nofun) hserve).elim
  | deleteUser id => exact (hother (fun _ => Answer.done) _ (fun _ => nofun) hserve).elim
  | createEvent e => exact (hother Answer.created _ (fun _ => nofun) hserve).elim
  | updateEvent e => exact (hother (fun _ => Answer.done) _ (fun _ => nofun) hserve).elim
  | deleteEvent id => exact (hother (fun _ => Answer.done) _ (fun _ => nofun) hserve).elim
  | select which => exact (hother Answer.events _ (fun _ => nofun) hserve).elim

variable {m : MemoryState}

/-- Well-formed stores list such users. -/
theorem listsAges_of_wellFormed (h : m.store.WellFormed) : inMemory.ListsAges m := by
  intro us m' hlist u hu
  have husers : m.store.listUsers = us := by
    injection hlist with hlist
    injection hlist with hlist
    injection hlist
  rw [← husers, Store.listUsers, List.mem_mergeSort] at hu
  obtain ⟨⟨key, v⟩, hmem, rfl⟩ := List.mem_map.mp hu
  exact h.users key v hmem

/-- A calendar in memory answers every request that can be made on either way. -/
theorem answersFrom_serve {request : Request} (hoffered : request.Offered) :
    (inMemory.serve request).AnswersFrom m := by
  have hrespond : ∀ {α : Type} (wrap : α → Answer) {act : StorageAction MemoryState α},
      act.AnswersFrom m → (respond wrap act).AnswersFrom m :=
    fun wrap act hact => hact.bind fun _ _ => Action.answersFrom_answer _ _
  have hwindow : ∀ window : Option Window, (∃ w, window = some w) →
      (respond .events (Storage.memory.eventsOfWindow window)).AnswersFrom m := by
    rintro window ⟨w, rfl⟩
    exact hrespond _ (Storage.answersWindows_memory w m)
  cases request with
  | createUser u => exact hrespond _ ⟨_, _, rfl⟩
  | deleteUser id => exact hrespond _ ⟨_, _, rfl⟩
  | listUsers => exact hrespond _ ⟨_, _, rfl⟩
  | createEvent e =>
      cases hfault : e.fault? with
      | some error =>
          rw [serve_createEvent_of_fault hfault]
          exact hrespond _ (Action.answersFrom_answer _ _)
      | none =>
          rw [serve_createEvent_of_valid hfault]
          exact hrespond _ ⟨_, _, rfl⟩
  | updateEvent e =>
      cases hfault : e.toEventDraft.fault? with
      | some error =>
          rw [serve_updateEvent_of_fault hfault]
          exact hrespond _ (Action.answersFrom_answer _ _)
      | none =>
          rw [serve_updateEvent_of_valid hfault]
          exact hrespond _ ⟨_, _, rfl⟩
  | deleteEvent id => exact hrespond _ ⟨_, _, rfl⟩
  | select which =>
      have hmidnight : ∀ t : Instant, t = t.dayStart → t ≤ Instant.last := fun t ht => by
        rw [ht]
        exact t.dayStart_le_last
      cases which with
      | all => exact hrespond _ ⟨_, _, rfl⟩
      | day t =>
          obtain ⟨w, hw, -⟩ := Window.day?_eq t
          exact hwindow _ ⟨w, hw⟩
      | week t => exact hwindow _ (Http.Period.week.window?_of_le (hmidnight t hoffered))
      | month t => exact hwindow _ (Http.Period.month.window?_of_le (hmidnight t hoffered))
      | notifiedIn _ | notifiedBetween _ _ | before _ => exact hoffered.elim

end Calendar

/-! ## Both front ends -/

/-- What the calendar does for a request, and then the same in the forms of both front ends. -/
theorem answered_alike {σ : Type} {c : Calendar σ} {s s' : σ} {request : Calendar.Request}
    (hoffered : request.Offered) {r : Http.Request} (hr : r.Brings request) {method : String}
    {body : Bytes} (hcall : Rpc.Brings method body request) (hages : c.ListsAges s)
    {result : Except StorageError Answer}
    (hserve : (c.serve request).perform s = (.ok result, s')) :
    ∃ response reply, (Http.respond c r).perform s = (.ok response, s') ∧
      (Rpc.call c method body).perform s = (.ok reply, s') ∧
      (Rpc.Countable reply → SameAnswer response reply) := by
  rw [Http.respond_of_brings hr hoffered, Rpc.call_of_brings hcall hoffered]
  refine ⟨Http.answerOf result, Rpc.replyOf result, ?_, ?_, fun hcountable => ?_⟩
  · exact Action.perform_bind_of_ok hserve _
  · exact Action.perform_bind_of_ok hserve _
  · refine sameAnswer_of_result (fun us hus => ?_) hcountable
    subst hus
    exact hages.of_serve hserve

/-- HTTP and remote calls are the same service. Take any request of the calendar that can be made
    on either way, an HTTP request that brings it, and a remote call that brings it. From any state
    of any storage both leave the same state, and either both stall or both answer the same: the
    same id, nothing but success, the same records in the same order, or errors with the same
    message and corresponding codes. Behind a storage in memory, whatever visits it has had, both
    answer. What a client writes for the request brings it, over HTTP and as a call, unless it is
    longer than the front ends allow. -/
theorem front_ends_agree {request : Calendar.Request} (hoffered : request.Offered) :
    (∀ (σ : Type) (c : Calendar σ) (s : σ) (r : Http.Request) (method : String) (body : Bytes),
      r.Brings request → Rpc.Brings method body request → c.ListsAges s →
      (∃ stall s', (Http.respond c r).perform s = (.error stall, s') ∧
        (Rpc.call c method body).perform s = (.error stall, s')) ∨
      ∃ response reply s', (Http.respond c r).perform s = (.ok response, s') ∧
        (Rpc.call c method body).perform s = (.ok reply, s') ∧
        (Rpc.Countable reply → SameAnswer response reply)) ∧
    (∀ (β : Type) (broker : Broker.Client β) (b : β) (ids : IdSource) (visits : List Visit)
      (m : MemoryState) (r : Http.Request) (method : String) (body : Bytes),
      Visit.reached broker b ids visits = m → r.Brings request → Rpc.Brings method body request →
      ∃ response reply m', (Http.respond Calendar.inMemory r).perform m = (.ok response, m') ∧
        (Rpc.call Calendar.inMemory method body).perform m = (.ok reply, m') ∧
        (Rpc.Countable reply → SameAnswer response reply)) ∧
    (request.overHttp.body.length ≤ Http.maxBody → request.overHttp.Brings request) ∧
    (request.message.length ≤ Rpc.maxMessage →
      Rpc.Brings request.method (Rpc.frame request.message) request) := by
  refine ⟨?_, ?_, Http.brings_overHttp hoffered, Rpc.brings_message hoffered⟩
  · intro σ c s r method body hr hcall hages
    rcases hserve : (c.serve request).perform s with ⟨outcome, s'⟩
    cases outcome with
    | ok result =>
        obtain ⟨response, reply, halike⟩ := answered_alike hoffered hr hcall hages hserve
        exact Or.inr ⟨response, reply, s', halike⟩
    | error stall =>
        refine Or.inl ⟨stall, s', ?_, ?_⟩
        · rw [Http.respond_of_brings hr hoffered, Calendar.answerIn, Action.perform_bind, hserve]
        · rw [Rpc.call_of_brings hcall hoffered, Calendar.answerIn, Action.perform_bind, hserve]
  · intro β broker b ids visits m r method body hm hr hcall
    have hstore : m.store.WellFormed := hm ▸ Visit.wellFormed_reached broker b ids visits
    obtain ⟨result, m', hserve⟩ := Calendar.answersFrom_serve (m := m) hoffered
    obtain ⟨response, reply, halike⟩ :=
      answered_alike hoffered hr hcall (Calendar.listsAges_of_wellFormed hstore) hserve
    exact ⟨response, reply, m', halike⟩

/-- The meeting is planned once more, with the same id on either way. -/
theorem plannedMeeting_created_alike :
    (Calendar.Request.createEvent plannedMeeting).Offered ∧
    ∃ response reply m',
      (Http.respond Calendar.inMemory
          (Calendar.Request.createEvent plannedMeeting).overHttp).perform plannedMemory =
        (.ok response, m') ∧
      (Rpc.call Calendar.inMemory "EventService/CreateEvent"
          (Rpc.frame (Calendar.Request.createEvent plannedMeeting).message)).perform plannedMemory =
        (.ok reply, m') ∧
      SameAnswer response reply := by
  have hoffered : (Calendar.Request.createEvent plannedMeeting).Offered := trivial
  obtain ⟨-, hmemory, hhttp, hrpc⟩ := front_ends_agree hoffered
  have hr := hhttp (by decide +kernel)
  have hcall := hrpc (by decide +kernel)
  obtain ⟨response, reply, m', hresponse, hreply, hsame⟩ :=
    hmemory _ Broker.Client.memory {} {} [.direct (.createEvent plannedMeeting) trivial]
      plannedMemory _ _ _ rfl hr hcall
  refine ⟨hoffered, response, reply, m', hresponse, hreply, hsame ?_⟩
  -- The reply is the message of the second id.
  have hreplied : ((Rpc.call Calendar.inMemory "EventService/CreateEvent"
      (Rpc.frame (Calendar.Request.createEvent plannedMeeting).message)).perform plannedMemory).1 =
        .ok (.ok (Rpc.Message.encode (Rpc.Id.mk plannedMemory.ids.next.1))) := by
    have hvalid : plannedMeeting.fault? = none := by decide +kernel
    have hbrings : Rpc.Brings "EventService/CreateEvent" _ _ := hcall
    rw [Rpc.call_of_brings hbrings hoffered, Calendar.serve_createEvent_of_valid hvalid]
    rfl
  have hlength : (Rpc.Message.encode (Rpc.Id.mk plannedMemory.ids.next.1)).length < 2 ^ 64 := by
    decide +kernel
  have hsecond : reply = .ok (Rpc.Message.encode (Rpc.Id.mk plannedMemory.ids.next.1)) :=
    Except.ok.inj ((congrArg Prod.fst hreply).symm.trans hreplied)
  rintro bytes hbytes
  obtain rfl := Except.ok.inj (hsecond.symm.trans hbytes)
  exact hlength

end Almanac
