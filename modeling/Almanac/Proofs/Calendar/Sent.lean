/-
  Almanac.Proofs.Calendar.Sent

  How a client sends a request to the calendar: over HTTP as a JSON body, a path with an escaped
  id or a query with a date (`Request.overHttp`), and as a remote call of one message
  (`Request.method`, `Request.message`). Either way it brings the request that was meant, as long
  as it is not too long (`brings_overHttp`, `brings_message`).
-/
import Almanac.Proofs.Calendar.Brought
import Almanac.Proofs.Http.Escape
import Almanac.Proofs.Json.Domain

namespace Almanac

/-! ## Over HTTP -/

namespace Http

/-- A request with a JSON body. -/
def jsonRequest (method target : String) (body : Bytes) : Request where
  method := method
  target := target
  contentType := some "application/json"
  body := body

/-- The request for the events of a period from the day of an instant. -/
def periodRequest (name : String) (period : Period) (t : Instant) : Request where
  method := "GET"
  target := queryTarget ["select", "events", name] period.field t.date.text

/-- The request to delete what has an id. -/
def deleteRequest (kind id : String) : Request where
  method := "DELETE"
  target := pathTarget ["delete", kind, escapedText id]

theorem readBody_jsonRequest {α : Type} {layout : Json.Layout α} {method target : String}
    {body : Bytes} {value : α} (hlength : body.length ≤ maxBody)
    (hdecode : layout.decode body = .ok value) :
    readBody layout (jsonRequest method target body) = .ok value := by
  have htype : isJsonType "application/json" = true := by decide
  exact readBody_of_decode htype hlength hdecode

theorem asks_jsonRequest {method target : String} (body : Bytes) {route : Route}
    (hroute : Route.ofPath? (Target.parse target).path = some route) :
    (jsonRequest method target body).Asks method route := ⟨rfl, hroute⟩

theorem plain_field (period : Period) : Plain period.field := by cases period <;> decide

section

variable {name : String} (hname : Plain name)

include hname

/-- The escaped id is a piece of the path as it stands. -/
theorem parse_deleteRequest (id : String) :
    Target.parse (deleteRequest name id).target =
      { path := ["delete", name, escapedText id], query := "" } := by
  refine parse_pathTarget (fun piece hpiece => ?_) (List.cons_ne_nil _ _)
  simp only [List.mem_cons, List.not_mem_nil, or_false] at hpiece
  rcases hpiece with rfl | rfl | rfl
  · decide
  · exact hname
  · exact plain_escapedText id

theorem parse_periodRequest (period : Period) (t : Instant) :
    Target.parse (periodRequest name period t).target =
      { path := ["select", "events", name],
        query := String.ofList (queryChars period.field t.date.text) } := by
  refine parse_queryTarget (fun piece hpiece => ?_) (List.cons_ne_nil _ _) (plain_field period) _
  simp only [List.mem_cons, List.not_mem_nil, or_false] at hpiece
  rcases hpiece with rfl | rfl | rfl
  · decide
  · decide
  · exact hname

/-- The date of the request is read back. -/
theorem dates_periodRequest (period : Period) (t : Instant) :
    (periodRequest name period t).Dates period t := by
  have hkey : queryText? period.field = some period.field := by cases period <;> decide +kernel
  have hvalue := queryValue?_queryChars (plain_field period) hkey t.date.text
  refine ⟨⟨t.date⟩, ?_, toDay_ofDay t.day⟩
  rw [Request.query, parse_periodRequest hname period t, readDate, hvalue, Option.bind_some,
    t.parse?_dateText]

end

end Http

open Http in
/-- A request as a client sends it over HTTP. -/
def Calendar.Request.overHttp : Calendar.Request → Http.Request
  | .createUser u => jsonRequest "POST" "/create/user" (UserDraft.layout.encode u)
  | .deleteUser id => deleteRequest "user" id
  | .listUsers => { method := "GET", target := "/select/users" }
  | .createEvent e => jsonRequest "POST" "/create/event" (EventDraft.layout.encode e)
  | .updateEvent e => jsonRequest "PUT" "/update/event" (Event.layout.encode e)
  | .deleteEvent id => deleteRequest "event" id
  | .select (.day t) => periodRequest "day" .day t
  | .select (.week t) => periodRequest "week" .week t
  | .select (.month t) => periodRequest "month" .month t
  | .select _ => { method := "GET", target := "/select/events" }

namespace Http

theorem asks_deleteRequest {name id : String} (hname : Plain name) (hid : id ≠ "")
    {route : String → Route}
    (hroute : ∀ part, Route.ofPath? ["delete", name, part] =
      if part.isEmpty then none else some (route part)) :
    (deleteRequest name id).Asks "DELETE" (route (escapedText id)) := by
  refine ⟨rfl, ?_⟩
  rw [Request.route?, parse_deleteRequest hname id, hroute]
  exact if_neg (by rw [isEmpty_escapedText hid]; decide)

theorem asks_periodRequest {name : String} (hname : Plain name) {period : Period}
    (hroute : Route.ofPath? ["select", "events", name] = some (.listPeriod period)) (t : Instant) :
    (periodRequest name period t).Asks "GET" (.listPeriod period) := by
  refine ⟨rfl, ?_⟩
  rw [Request.route?, parse_periodRequest hname period t]
  exact hroute

theorem readId_escapedText (id : String) : readId (escapedText id) = .ok id := by
  rw [readId, pathText?_escapedText]

/-- What is sent over HTTP is what was meant. -/
theorem brings_overHttp {request : Calendar.Request} (hoffered : request.Offered)
    (hlength : request.overHttp.body.length ≤ maxBody) : request.overHttp.Brings request := by
  cases request with
  | createUser u =>
      have hread := UserDraft.decode_encode hoffered
      exact ⟨asks_jsonRequest _ (by decide), readBody_jsonRequest hlength hread⟩
  | deleteUser id =>
      have hasks : (deleteRequest "user" id).Asks "DELETE" (.deleteUser (escapedText id)) :=
        asks_deleteRequest (by decide) hoffered fun _ => rfl
      exact ⟨_, hasks, readId_escapedText id⟩
  | listUsers => exact ⟨rfl, by decide⟩
  | createEvent e =>
      exact ⟨asks_jsonRequest _ (by decide), readBody_jsonRequest hlength e.decode_lenient⟩
  | updateEvent e =>
      exact ⟨asks_jsonRequest _ (by decide), readBody_jsonRequest hlength e.decode_lenient⟩
  | deleteEvent id =>
      have hasks : (deleteRequest "event" id).Asks "DELETE" (.deleteEvent (escapedText id)) :=
        asks_deleteRequest (by decide) hoffered fun _ => rfl
      exact ⟨_, hasks, readId_escapedText id⟩
  | select which =>
      cases which with
      | all => exact ⟨rfl, by decide⟩
      | day t => exact ⟨asks_periodRequest (by decide) rfl t, dates_periodRequest (by decide) _ t⟩
      | week t => exact ⟨asks_periodRequest (by decide) rfl t, dates_periodRequest (by decide) _ t⟩
      | month t => exact ⟨asks_periodRequest (by decide) rfl t, dates_periodRequest (by decide) _ t⟩
      | notifiedIn _ | notifiedBetween _ _ | before _ => exact hoffered.elim

end Http

/-! ## As remote calls -/

/-- The method that a client calls for a request. -/
def Calendar.Request.method : Calendar.Request → String
  | .createUser _ => "UserService/CreateUser"
  | .deleteUser _ => "UserService/DeleteUser"
  | .listUsers => "UserService/SelectUsers"
  | .createEvent _ => "EventService/CreateEvent"
  | .updateEvent _ => "EventService/UpdateEvent"
  | .deleteEvent _ => "EventService/DeleteEvent"
  | .select (.day _) => "EventService/SelectEventsForDay"
  | .select (.week _) => "EventService/SelectEventsForWeek"
  | .select (.month _) => "EventService/SelectEventsForMonth"
  | .select _ => "EventService/SelectEvents"

open Rpc in
/-- The message of a call; new records go without an id. -/
def Calendar.Request.message : Calendar.Request → Bytes
  | .createUser u => Message.encode (u.identified "")
  | .deleteUser id => Message.encode (Rpc.Id.mk id)
  | .listUsers => Message.encode Rpc.Void.mk
  | .createEvent e => Message.encode (EventMessage.ofEvent (e.identified ""))
  | .updateEvent e => Message.encode (EventMessage.ofEvent e)
  | .deleteEvent id => Message.encode (Rpc.Id.mk id)
  | .select (.day t) => Message.encode (DateMessage.ofInstant t)
  | .select (.week t) => Message.encode (DateMessage.ofInstant t)
  | .select (.month t) => Message.encode (DateMessage.ofInstant t)
  | .select _ => Message.encode Rpc.Void.mk

namespace Rpc

theorem decode_encode_id {i : Id} (hlength : (Message.encode i).length < 18446744073709551616) :
    Message.decode (Message.encode i) = some i := by
  refine decodeAt_encode (fun f hf => ?_) hlength ?_
  · exact proper_of_mem_textField (by omega) (by omega) hf
  · refine foldlM_textField Id.mk ?_
    simp only [Message.merge, if_true, text?_utf8, Option.map_some]

theorem decode_encode_void : Message.decode (Message.encode Void.mk) = some Void.mk := rfl

/-- What is called is what was meant. -/
theorem brings_message {request : Calendar.Request} (hoffered : request.Offered)
    (hlength : request.message.length ≤ maxMessage) :
    Brings request.method (frame request.message) request := by
  have hmax : maxMessage = 4194304 := rfl
  have hshort : request.message.length < 18446744073709551616 := by omega
  cases request with
  | createUser u =>
      have hage : (u.identified "").age ≤ maxAge := hoffered
      exact ⟨rfl, _, readArgument_frame hlength (decodeAt_encode_user 0 hage hshort), rfl⟩
  | deleteUser id => exact ⟨rfl, readArgument_frame hlength (decode_encode_id hshort)⟩
  | listUsers => exact ⟨rfl, readArgument_frame hlength decode_encode_void⟩
  | createEvent e =>
      refine ⟨rfl, _, readArgument_frame hlength (decodeAt_encode_event 0 hshort), ?_⟩
      exact toEventDraft_ofEvent (e.identified "")
  | updateEvent e =>
      exact ⟨rfl, _, readArgument_frame hlength (decodeAt_encode_event 0 hshort), toEvent_ofEvent e⟩
  | deleteEvent id => exact ⟨rfl, readArgument_frame hlength (decode_encode_id hshort)⟩
  | select which =>
      cases which with
      | all => exact ⟨rfl, readArgument_frame hlength decode_encode_void⟩
      | day t => exact ⟨rfl, refers_frame t⟩
      | week t => exact ⟨rfl, refers_frame t⟩
      | month t => exact ⟨rfl, refers_frame t⟩
      | notifiedIn _ | notifiedBetween _ _ | before _ => exact hoffered.elim

end Rpc

end Almanac
