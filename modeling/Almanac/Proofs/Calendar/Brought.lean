/-
  Almanac.Proofs.Calendar.Brought

  What a front end brings to the calendar. `Brings` reads a request over HTTP, or a remote call,
  as a request to the calendar: it has found its route or method, and its parameters could be
  read. Such a request is served by the calendar, and only what the calendar says is put into
  the form of the front end (`respond_of_brings`, `call_of_brings`).
-/
import Almanac.Proofs.Calendar.Visits
import Almanac.Proofs.Calendar.Windowed
import Almanac.Proofs.Http.Routed

namespace Almanac

open Calendar (Answer)

/-- What a client can ask for on either way. Dates have no time of day, and a remote call does
    not update an event without an id. -/
def Calendar.Request.Offered : Calendar.Request → Prop
  | .createUser u => u.age ≤ maxAge
  | .deleteUser id => id ≠ ""
  | .listUsers => True
  | .createEvent _ => True
  | .updateEvent e => e.id ≠ ""
  | .deleteEvent id => id ≠ ""
  | .select .all => True
  | .select (.day _) => True
  | .select (.week t) => t = t.dayStart
  | .select (.month t) => t = t.dayStart
  | .select _ => False

/-- What the calendar says, in the form of a front end. -/
def Calendar.answerIn {σ β : Type} (form : Except StorageError Answer → β)
    (served : StorageAction σ Answer) : Action σ β := do
  let result ← served
  return form result

/-- Wrapping a result first leaves one form to put it into. -/
theorem Calendar.answerIn_respond {σ α β : Type} (form : Except StorageError Answer → β)
    (wrap : α → Answer) (act : StorageAction σ α) :
    Calendar.answerIn form (Calendar.respond wrap act) = do
      let result ← act
      return form (result.map wrap) := by
  rw [Calendar.answerIn, Calendar.respond, bind_assoc]
  rfl

/-! ## Over HTTP -/

namespace Http

variable {σ : Type} {c : Calendar σ} {r : Request}

/-- The response to what the calendar says. -/
def answerOf : Except StorageError Answer → Response
  | .ok (.created id) => .created id
  | .ok .done => .done
  | .ok (.users us) => .listing User.layout us
  | .ok (.events es) => .listing Event.layout es
  | .error e => .failure e

/-- A request with a method for a route. -/
def Request.Asks (r : Request) (method : String) (route : Route) : Prop :=
  r.method = method ∧ r.route? = some route

/-- The date of a request for a period is the one of an instant. -/
def Request.Dates (r : Request) (period : Period) (t : Instant) : Prop :=
  ∃ q, readDate period.field r.query = .ok q ∧ q.date.toDay = t.day

/-- What a request brings to the calendar. -/
def Request.Brings (r : Request) : Calendar.Request → Prop
  | .createUser u => r.Asks "POST" .createUser ∧ readBody UserDraft.layout r = .ok u
  | .deleteUser id =>
    ∃ escaped, r.Asks "DELETE" (.deleteUser escaped) ∧ readId escaped = .ok id
  | .listUsers => r.Asks "GET" .listUsers
  | .createEvent e => r.Asks "POST" .createEvent ∧ readBody EventDraft.lenientLayout r = .ok e
  | .updateEvent e => r.Asks "PUT" .updateEvent ∧ readBody Event.lenientLayout r = .ok e
  | .deleteEvent id =>
    ∃ escaped, r.Asks "DELETE" (.deleteEvent escaped) ∧ readId escaped = .ok id
  | .select .all => r.Asks "GET" .listEvents
  | .select (.day t) => r.Asks "GET" (.listPeriod .day) ∧ r.Dates .day t
  | .select (.week t) => r.Asks "GET" (.listPeriod .week) ∧ r.Dates .week t
  | .select (.month t) => r.Asks "GET" (.listPeriod .month) ∧ r.Dates .month t
  | .select _ => False

theorem ask_eq {α : Type} (act : StorageAction σ α) {answer : α → Response} {wrap : α → Answer}
    (hwrap : ∀ a, answerOf (.ok (wrap a)) = answer a) :
    ask act answer = Calendar.answerIn answerOf (Calendar.respond wrap act) := by
  rw [Calendar.answerIn_respond, ask]
  refine bind_congr (m := Action σ) fun result => ?_
  cases result with
  | ok a => exact congrArg (Action.answer (σ := σ)) (hwrap a).symm
  | error _ => rfl

/-- A request of a method that its route has is served. -/
theorem Request.Asks.respond_eq {method : String} {route : Route} (h : r.Asks method route)
    (hmethod : route.methods.contains method = true) (hwhole : method ≠ "HEAD") :
    respond c r = serve c r r.query route := by
  obtain ⟨rfl, hroute⟩ := h
  exact respond_of_route hroute hmethod hwhole

theorem valid_of_readDate {field query : String} {q : DateChoice field}
    (h : readDate field query = .ok q) : q.date.Valid := by
  unfold readDate at h
  split at h
  · next date hdate =>
    obtain rfl := Except.ok.inj h
    obtain ⟨text, -, hparse⟩ := Option.bind_eq_some_iff.mp hdate
    obtain ⟨⟨found, rest⟩, -, hchecked⟩ := Option.bind_eq_some_iff.mp hparse
    dsimp only at hchecked
    split at hchecked
    · next hvalid =>
      obtain rfl := Option.some.inj hchecked
      exact hvalid.1
    · simp at hchecked
  · simp at h

/-- A date stands for the midnight that begins its day. -/
theorem reference_eq_dayStart {field : String} {q : DateChoice field} {t : Instant}
    (hvalid : q.date.Valid) (hday : q.date.toDay = t.day) : q.reference = t.dayStart := by
  have hmidnight : Instant.of? t.day 0 0 = some t.dayStart := t.dayStart.of?_parts
  rw [DateChoice.reference, Instant.ofDate?, if_pos hvalid, hday, hmidnight, Option.getD_some]

theorem serve_period {p : Period} {t : Instant} (h : r.Dates p t) :
    serve c r r.query (.listPeriod p) =
      ask (eventsOfPeriod c t.dayStart p) (.listing Event.layout) := by
  obtain ⟨q, hread, hday⟩ := h
  unfold serve
  dsimp only
  rw [given_ok hread, reference_eq_dayStart (valid_of_readDate hread) hday]

/-- A request is answered with what the calendar says to the request that it brings. -/
theorem respond_of_brings {request : Calendar.Request} (h : r.Brings request)
    (hoffered : request.Offered) :
    respond c r = Calendar.answerIn answerOf (c.serve request) := by
  cases request with
  | createUser u =>
      obtain ⟨hasks, hread⟩ := h
      rw [hasks.respond_eq (by decide) (by decide)]
      exact (given_ok hread _).trans (ask_eq _ fun _ => rfl)
  | deleteUser id =>
      obtain ⟨escaped, hasks, hread⟩ := h
      rw [hasks.respond_eq (by rfl) (by decide)]
      exact (given_ok hread _).trans (ask_eq _ fun _ => rfl)
  | listUsers =>
      rw [Request.Asks.respond_eq h (by decide) (by decide)]
      exact ask_eq _ fun _ => rfl
  | createEvent e =>
      obtain ⟨hasks, hread⟩ := h
      rw [hasks.respond_eq (by decide) (by decide)]
      exact (given_ok hread _).trans (ask_eq _ fun _ => rfl)
  | updateEvent e =>
      obtain ⟨hasks, hread⟩ := h
      rw [hasks.respond_eq (by decide) (by decide)]
      exact (given_ok hread _).trans (ask_eq _ fun _ => rfl)
  | deleteEvent id =>
      obtain ⟨escaped, hasks, hread⟩ := h
      rw [hasks.respond_eq (by rfl) (by decide)]
      exact (given_ok hread _).trans (ask_eq _ fun _ => rfl)
  | select which =>
      cases which with
      | all =>
          rw [Request.Asks.respond_eq h (by decide) (by decide)]
          exact ask_eq _ fun _ => rfl
      | day t =>
          obtain ⟨hasks, hdate⟩ := h
          rw [hasks.respond_eq (by decide) (by decide), serve_period hdate]
          -- The day of an instant is the day of the midnight before it.
          have hday : eventsOfPeriod c t.dayStart .day = c.eventsOfDay t := rfl
          rw [hday]
          exact ask_eq _ fun _ => rfl
      | week t =>
          obtain ⟨hasks, hdate⟩ := h
          have hmidnight : t.dayStart = t := hoffered.symm
          rw [hasks.respond_eq (by decide) (by decide), serve_period hdate, hmidnight]
          exact ask_eq _ fun _ => rfl
      | month t =>
          obtain ⟨hasks, hdate⟩ := h
          have hmidnight : t.dayStart = t := hoffered.symm
          rw [hasks.respond_eq (by decide) (by decide), serve_period hdate, hmidnight]
          exact ask_eq _ fun _ => rfl
      | notifiedIn _ | notifiedBetween _ _ | before _ => exact h.elim

end Http

/-! ## As remote calls -/

namespace Rpc

variable {σ : Type} {c : Calendar σ} {method : String} {body : Bytes}

/-- The reply to what the calendar says. -/
def replyOf : Except StorageError Answer → Except Refusal Bytes
  | .ok (.created id) => .ok (Message.encode (Id.mk id))
  | .ok .done => .ok (Message.encode Void.mk)
  | .ok (.users us) => .ok (Message.encode (Listing.mk us))
  | .ok (.events es) => .ok (Message.encode (eventListing es))
  | .error e => .error (.storage e)

/-- What a call of a method brings to the calendar. -/
def Brings (method : String) (body : Bytes) : Calendar.Request → Prop
  | .createUser u =>
    method = "UserService/CreateUser" ∧ ∃ v : User, readArgument body = .ok v ∧ v.toUserDraft = u
  | .deleteUser id => method = "UserService/DeleteUser" ∧ readArgument body = .ok (Id.mk id)
  | .listUsers => method = "UserService/SelectUsers" ∧ readArgument body = .ok Void.mk
  | .createEvent e =>
    method = "EventService/CreateEvent" ∧
      ∃ v : EventMessage, readArgument body = .ok v ∧ v.toEventDraft = .ok e
  | .updateEvent e =>
    method = "EventService/UpdateEvent" ∧
      ∃ v : EventMessage, readArgument body = .ok v ∧ v.toEvent = .ok e
  | .deleteEvent id => method = "EventService/DeleteEvent" ∧ readArgument body = .ok (Id.mk id)
  | .select .all => method = "EventService/SelectEvents" ∧ readArgument body = .ok Void.mk
  | .select (.day t) => method = "EventService/SelectEventsForDay" ∧ Refers body t
  | .select (.week t) => method = "EventService/SelectEventsForWeek" ∧ Refers body t
  | .select (.month t) => method = "EventService/SelectEventsForMonth" ∧ Refers body t
  | .select _ => False

theorem ask_eq {α β : Type} [Message β] (act : StorageAction σ α) {reply : α → β}
    {wrap : α → Answer} (hwrap : ∀ a, replyOf (.ok (wrap a)) = .ok (Message.encode (reply a))) :
    ask act reply = Calendar.answerIn replyOf (Calendar.respond wrap act) := by
  rw [Calendar.answerIn_respond, ask]
  refine bind_congr (m := Action σ) fun result => ?_
  cases result with
  | ok a => exact congrArg (Action.answer (σ := σ)) (hwrap a).symm
  | error _ => rfl

theorem taken_ok {α : Type} {value : Except WireError α} {a : α} (h : value = .ok a)
    (next : α → Reply σ) : taken value next = next a := by
  subst h
  rfl

/-- A call is answered with what the calendar says to the request that it brings. -/
theorem call_of_brings {request : Calendar.Request} (h : Brings method body request)
    (hoffered : request.Offered) :
    call c method body = Calendar.answerIn replyOf (c.serve request) := by
  cases request with
  | createUser u =>
      obtain ⟨rfl, v, hread, rfl⟩ := h
      exact (given_ok hread _).trans (ask_eq _ fun _ => rfl)
  | deleteUser id =>
      obtain ⟨rfl, hread⟩ := h
      exact (given_ok hread _).trans (ask_eq _ fun _ => rfl)
  | listUsers =>
      obtain ⟨rfl, hread⟩ := h
      exact (given_ok hread _).trans (ask_eq _ fun _ => rfl)
  | createEvent e =>
      obtain ⟨rfl, v, hread, hvalue⟩ := h
      refine (given_ok hread _).trans ?_
      rw [taken_ok hvalue]
      exact ask_eq _ fun _ => rfl
  | updateEvent e =>
      obtain ⟨rfl, v, hread, hvalue⟩ := h
      have hnamed : ¬e.id.isEmpty = true := fun hempty => hoffered (String.isEmpty_iff.mp hempty)
      refine (given_ok hread _).trans ?_
      rw [taken_ok hvalue, if_neg hnamed]
      exact ask_eq _ fun _ => rfl
  | deleteEvent id =>
      obtain ⟨rfl, hread⟩ := h
      exact (given_ok hread _).trans (ask_eq _ fun _ => rfl)
  | select which =>
      cases which with
      | all =>
          obtain ⟨rfl, hread⟩ := h
          exact (given_ok hread _).trans (ask_eq _ fun _ => rfl)
      | day t =>
          obtain ⟨rfl, hrefers⟩ := h
          exact (listFrom_of_refers hrefers c.eventsOfDay).trans (ask_eq _ fun _ => rfl)
      | week t =>
          obtain ⟨rfl, hrefers⟩ := h
          exact (listFrom_of_refers hrefers c.eventsOfWeek).trans (ask_eq _ fun _ => rfl)
      | month t =>
          obtain ⟨rfl, hrefers⟩ := h
          exact (listFrom_of_refers hrefers c.eventsOfMonth).trans (ask_eq _ fun _ => rfl)
      | notifiedIn _ | notifiedBetween _ _ | before _ => exact h.elim

end Rpc

end Almanac
