/-
  Almanac.Http.Router

  The HTTP interface of a calendar. A request is matched by path first, then by method,
  and then its parameters are read; each of these can turn it away. What is left is one
  call of the calendar, whose answer or error becomes the response.
-/
import Almanac.Calendar
import Almanac.Http.Body
import Almanac.Http.MediaType
import Almanac.Http.Target

namespace Almanac.Http

structure Request where
  method : String
  target : String
  contentType : Option String := none
  body : Bytes := []

/-- The body of a response. -/
inductive Content
  | empty
  | json (body : Bytes)
  | plain (text : String)
deriving DecidableEq

structure Response where
  status : Nat
  content : Content := .empty
  /-- The methods that the path knows, when the one of the request is not among them. -/
  allow : Option String := none
deriving DecidableEq

/-! ## Routes -/

/-- The period of a windowed listing. -/
inductive Period
  | day
  | week
  | month
deriving DecidableEq

/-- What a path stands for; ids are still escaped. -/
inductive Route
  | health
  | createUser
  | listUsers
  | deleteUser (id : String)
  | createEvent
  | listEvents
  | updateEvent
  | deleteEvent (id : String)
  | listPeriod (period : Period)
deriving DecidableEq

def Route.ofPath? : List String → Option Route
  | ["health"] => some .health
  | ["create", "user"] => some .createUser
  | ["select", "users"] => some .listUsers
  | ["delete", "user", id] => if id.isEmpty then none else some (.deleteUser id)
  | ["create", "event"] => some .createEvent
  | ["select", "events"] => some .listEvents
  | ["update", "event"] => some .updateEvent
  | ["delete", "event", id] => if id.isEmpty then none else some (.deleteEvent id)
  | ["select", "events", "day"] => some (.listPeriod .day)
  | ["select", "events", "week"] => some (.listPeriod .week)
  | ["select", "events", "month"] => some (.listPeriod .month)
  | _ => none

/-- The methods of a route. What can be got can be looked at, too. -/
def Route.methods : Route → List String
  | .createUser => ["POST"]
  | .createEvent => ["POST"]
  | .updateEvent => ["PUT"]
  | .deleteUser _ => ["DELETE"]
  | .deleteEvent _ => ["DELETE"]
  | _ => ["GET", "HEAD"]

/-! ## Responses -/

namespace Response

def record {α : Type} (status : Nat) (layout : Json.Layout α) (value : α) : Response :=
  { status, content := .json (layout.encode value) }

/-- A response without a body. -/
def done : Response := { status := 204 }

def listing {α : Type} (layout : Json.Layout α) (values : List α) : Response :=
  { status := 200, content := .json (layout.encodeList values) }

def created (id : String) : Response := record 201 Created.layout ⟨id⟩

def failure (e : StorageError) : Response :=
  record e.code.httpStatus Failure.layout ⟨e.code.name, e.message⟩

/-- A request that is turned away before the calendar is asked. -/
def rejected (status : Nat) (text : String) : Response := { status, content := .plain text }

/-- The response to a path that nobody knows. -/
def unknownPath : Response := { status := 404 }

/-- The response to a method that a route does not have. -/
def wrongMethod (route : Route) : Response :=
  { status := 405, allow := some (String.intercalate "," route.methods) }

def withoutBody (r : Response) : Response := { r with content := .empty }

end Response

/-- The largest body of a request in bytes. -/
def maxBody : Nat := 2097152

def readBody {α : Type} (layout : Json.Layout α) (r : Request) : Except Response α :=
  if !(r.contentType.map isJsonType).getD false then
    .error (.rejected 415 "Expected request with `Content-Type: application/json`")
  else if maxBody < r.body.length then
    .error (.rejected 413 "Failed to buffer the request body: length limit exceeded")
  else match layout.decode r.body with
    | .ok value => .ok value
    | .error .mismatched =>
      .error (.rejected 422 "Failed to deserialize the JSON body into the target type")
    | .error _ => .error (.rejected 400 "Failed to parse the request body as JSON")

def readId (escaped : String) : Except Response String :=
  match pathText? escaped with
  | some id => .ok id
  | none => .error (.rejected 400 "Invalid URL: Invalid UTF-8 in `id`")

def readDate (field query : String) : Except Response (DateChoice field) :=
  match (queryValue? field query).bind Date.parse? with
  | some date => .ok ⟨date⟩
  | none => .error (.rejected 400 "Failed to deserialize query string")

/-- The name of the date of a windowed listing. -/
def Period.field : Period → String
  | .day => "date"
  | _ => "startDate"

/-! ## Answers -/

variable {σ : Type}

/-- Asks the calendar and answers with what it says. -/
def ask {α : Type} (act : StorageAction σ α) (answer : α → Response) : Action σ Response := do
  match ← act with
  | .ok a => return answer a
  | .error e => return .failure e

/-- Reads the parameter of a request, and goes on if it can be read. -/
def given {α : Type} (parameter : Except Response α) (next : α → Action σ Response) :
    Action σ Response :=
  match parameter with
  | .ok a => next a
  | .error r => Action.answer r

def eventsOfPeriod (c : Calendar σ) (t : Instant) : Period → StorageAction σ (List Event)
  | .day => c.eventsOfDay t
  | .week => c.eventsOfWeek t
  | .month => c.eventsOfMonth t

/-- The response to a request that has found its route. -/
def serve (c : Calendar σ) (r : Request) (query : String) : Route → Action σ Response
  | .health => Action.answer (.record 200 Health.layout Health.current)
  | .createUser => given (readBody UserDraft.layout r) fun u => ask (c.createUser u) .created
  | .listUsers => ask c.listUsers (.listing User.layout)
  | .deleteUser id => given (readId id) fun id => ask (c.deleteUser id) fun _ => .done
  | .createEvent =>
    given (readBody EventDraft.lenientLayout r) fun e => ask (c.createEvent e) .created
  | .listEvents => ask c.listEvents (.listing Event.layout)
  | .updateEvent =>
    given (readBody Event.lenientLayout r) fun e => ask (c.updateEvent e) fun _ => .done
  | .deleteEvent id => given (readId id) fun id => ask (c.deleteEvent id) fun _ => .done
  | .listPeriod period =>
    given (readDate period.field query) fun q =>
      ask (eventsOfPeriod c q.reference period) (.listing Event.layout)

def respond (c : Calendar σ) (r : Request) : Action σ Response :=
  let target := Target.parse r.target
  match Route.ofPath? target.path with
  | none => Action.answer .unknownPath
  | some route =>
    if !route.methods.contains r.method then Action.answer (.wrongMethod route)
    else do
      let response ← serve c r target.query route
      return if r.method == "HEAD" then response.withoutBody else response

end Almanac.Http
