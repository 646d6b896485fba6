/-
  Almanac.Rpc.Service

  The remote calls of a calendar. The body of a call is a row of frames, each of them a
  flag byte, a length of four bytes and a message. The first message is the argument;
  those behind it have to be readable too, but do not count.
-/
import Almanac.Calendar
import Almanac.Rpc.Message

namespace Almanac.Rpc

/-- Why a call fails. -/
inductive Refusal
  | unknownMethod
  /-- The body ends within a frame. -/
  | truncated
  /-- There is no message. -/
  | missing
  /-- A frame says that it is compressed, or has a flag that nobody knows. -/
  | badFlag
  | tooLong (length : Nat)
  | undecodable
  | wire (cause : WireError)
  /-- An event without an id cannot be updated. -/
  | noEventId
  | storage (cause : StorageError)

/-- The longest message in bytes. -/
def maxMessage : Nat := 4194304

namespace Refusal

def code : Refusal → Nat
  | unknownMethod => 12
  | truncated | missing | badFlag | undecodable => 13
  | tooLong _ => 11
  | wire _ | noEventId => 3
  | storage cause => cause.code.rpcCode

def message : Refusal → String
  | unknownMethod => ""
  | truncated => "Unexpected EOF decoding stream."
  | missing => "Missing request message."
  | badFlag => "protocol error: received message with invalid compression flag"
  | tooLong length =>
    "Error, decoded message length too large: found " ++ natText length
      ++ " bytes, the limit is: " ++ natText maxMessage ++ " bytes"
  | undecodable => "failed to decode Protobuf message"
  | wire cause => cause.message ""
  | noEventId => "event id is required"
  | storage cause => cause.message

end Refusal

/-! ## Frames -/

/-- A number of four bytes, the highest first. -/
def bigEndian (bytes : Bytes) : Nat := bytes.foldl (fun n b => 256 * n + b.toNat) 0

def frame (message : Bytes) : Bytes :=
  let n := message.length
  [0, UInt8.ofNat (n / 16777216), UInt8.ofNat (n / 65536), UInt8.ofNat (n / 256), UInt8.ofNat n]
    ++ message

/-- The message of the next frame and what is behind it, if there is one. A body that ends
    behind the head of a frame ends there. -/
def nextFrame : Bytes → Except Refusal (Option (Bytes × Bytes))
  | [] => .ok none
  | flag :: a :: b :: c :: d :: rest =>
    let length := bigEndian [a, b, c, d]
    if flag != 0 then .error .badFlag
    else if maxMessage < length then .error (.tooLong length)
    else
      let message := rest.take length
      if message.length < length then
        if rest.isEmpty then .ok none else .error .truncated
      else .ok (some (message, rest.drop length))
  | _ => .error .truncated

/-- The readable messages of a body; the first number bounds how many frames are looked at. -/
def readMessages {α : Type} [Message α] : Nat → Bytes → Except Refusal (List α)
  | 0, _ => .ok []
  | fuel + 1, body => do
    match ← nextFrame body with
    | none => .ok []
    | some (message, rest) =>
      match Message.decode message with
      | none => .error .undecodable
      | some m => return m :: (← readMessages fuel rest)

/-- The argument of a call. A body of `n` bytes has at most `n` frames. -/
def readArgument {α : Type} [Message α] (body : Bytes) : Except Refusal α := do
  match ← readMessages (body.length + 1) body with
  | m :: _ => .ok m
  | [] => .error .missing

/-! ## Methods -/

/-- The methods that can be called. -/
inductive Method
  | createEvent
  | listEvents
  | updateEvent
  | deleteEvent
  | eventsOfDay
  | eventsOfWeek
  | eventsOfMonth
  | createUser
  | listUsers
  | deleteUser
deriving DecidableEq

/-- The methods by service and name. -/
def Method.table : List (String × Method) :=
  [("EventService/CreateEvent", .createEvent),
   ("EventService/SelectEvents", .listEvents),
   ("EventService/UpdateEvent", .updateEvent),
   ("EventService/DeleteEvent", .deleteEvent),
   ("EventService/SelectEventsForDay", .eventsOfDay),
   ("EventService/SelectEventsForWeek", .eventsOfWeek),
   ("EventService/SelectEventsForMonth", .eventsOfMonth),
   ("UserService/CreateUser", .createUser),
   ("UserService/SelectUsers", .listUsers),
   ("UserService/DeleteUser", .deleteUser)]

variable {σ : Type}

/-- The answer to a call: a message, or why there is none. -/
abbrev Reply (σ : Type) := Action σ (Except Refusal Bytes)

/-- Asks the calendar and replies with what it says. -/
def ask {α β : Type} [Message β] (act : StorageAction σ α) (reply : α → β) :
    Action σ (Except Refusal Bytes) := do
  match ← act with
  | .ok a => return .ok (Message.encode (reply a))
  | .error e => return .error (.storage e)

/-- Reads the argument of a call, and goes on if it can be read. -/
def given {α : Type} [Message α] (body : Bytes) (next : α → Reply σ) : Reply σ :=
  match (readArgument body : Except Refusal α) with
  | .ok a => next a
  | .error r => Action.answer (.error r)

/-- Goes on with a value that could be taken from an argument. -/
def taken {α : Type} (value : Except WireError α) (next : α → Reply σ) : Reply σ :=
  match value with
  | .ok a => next a
  | .error cause => Action.answer (.error (.wire cause))

def eventListing (es : List Event) : Listing EventMessage := ⟨es.map .ofEvent⟩

def listFrom (body : Bytes) (list : Instant → StorageAction σ (List Event)) : Reply σ :=
  given body fun (d : DateMessage) => taken d.reference fun t => ask (list t) eventListing

def carryOut (c : Calendar σ) (body : Bytes) : Method → Reply σ
  | .createEvent =>
    given body fun (e : EventMessage) => taken e.toEventDraft fun e => ask (c.createEvent e) Id.mk
  | .listEvents => given body fun (_ : Void) => ask c.listEvents eventListing
  | .updateEvent =>
    given body fun (e : EventMessage) => taken e.toEvent fun e =>
      if e.id.isEmpty then Action.answer (.error .noEventId)
      else ask (c.updateEvent e) fun _ => Void.mk
  | .deleteEvent => given body fun (i : Id) => ask (c.deleteEvent i.id) fun _ => Void.mk
  | .eventsOfDay => listFrom body c.eventsOfDay
  | .eventsOfWeek => listFrom body c.eventsOfWeek
  | .eventsOfMonth => listFrom body c.eventsOfMonth
  | .createUser => given body fun (u : User) => ask (c.createUser u.toUserDraft) Id.mk
  | .listUsers => given body fun (_ : Void) => ask c.listUsers fun us => Listing.mk us
  | .deleteUser => given body fun (i : Id) => ask (c.deleteUser i.id) fun _ => Void.mk

/-- Answers a call of the method with a name. -/
def call (c : Calendar σ) (method : String) (body : Bytes) : Reply σ :=
  match Method.table.lookup method with
  | some m => carryOut c body m
  | none => Action.answer (.error .unknownMethod)

end Almanac.Rpc
