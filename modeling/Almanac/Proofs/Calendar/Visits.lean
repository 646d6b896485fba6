/-
  Almanac.Proofs.Calendar.Visits

  Whoever comes to the calendar. A `Visit` is a request over HTTP, a remote call, a direct
  call, a tick of a scheduler or a single call of one; visits come one after the other, and
  one that stalls leaves what it did. What every operation of the calendar keeps is kept by
  every visit (`keeps_run`) and by any row of them (`keeps_reached`): the front ends and the
  scheduler have no other way to the storage.

  Ages have 32 bits. Both front ends see to that themselves (`age_le_of_readBody`,
  `age_le_of_readArgument`), so only direct calls have to be told.
-/
import Almanac.Http.Router
import Almanac.Proofs.Calendar.Refinement
import Almanac.Proofs.Json.Admitted
import Almanac.Proofs.Scheduler.Step
import Almanac.Rpc.Service

namespace Almanac

open Storage (Keeps MemoryState)

/-! ## What the calendar keeps -/

namespace Calendar

variable {σ : Type} {good : σ → Prop}

/-- The age that a request brings fits into 32 bits. -/
def Request.Sized : Request → Prop
  | .createUser u => u.age ≤ maxAge
  | _ => True

/-- Every operation of a calendar leaves every good state good. -/
def Preserves (good : σ → Prop) (c : Calendar σ) : Prop :=
  ∀ request : Request, request.Sized → Keeps good (c.serve request)

/-- Wrapping the result of an operation changes nothing. -/
theorem keeps_of_respond {α : Type} {wrap : α → Answer} {act : StorageAction σ α}
    (h : Keeps good (respond wrap act)) : Keeps good act := by
  intro w hw
  have hgood := h w hw
  rw [respond, Action.perform_bind] at hgood
  rcases hperform : act.perform w with ⟨r, w'⟩
  rw [hperform] at hgood
  cases r with
  | ok _ => exact hgood
  | error _ => exact hgood

namespace Preserves

variable {c : Calendar σ} (h : c.Preserves good)

include h

theorem createUser {u : UserDraft} (hage : u.age ≤ maxAge) : Keeps good (c.createUser u) :=
  keeps_of_respond (h (.createUser u) hage)

theorem listUsers : Keeps good c.listUsers := keeps_of_respond (h .listUsers trivial)

theorem deleteUser (id : String) : Keeps good (c.deleteUser id) :=
  keeps_of_respond (h (.deleteUser id) trivial)

theorem createEvent (e : EventDraft) : Keeps good (c.createEvent e) :=
  keeps_of_respond (h (.createEvent e) trivial)

theorem updateEvent (e : Event) : Keeps good (c.updateEvent e) :=
  keeps_of_respond (h (.updateEvent e) trivial)

theorem deleteEvent (id : String) : Keeps good (c.deleteEvent id) :=
  keeps_of_respond (h (.deleteEvent id) trivial)

theorem select (which : Selection) : Keeps good (c.select which) :=
  keeps_of_respond (h (.select which) trivial)

end Preserves

end Calendar

/-! ## Ages -/

/-- A user is built from entries that fill its fields, one of which is its age. -/
theorem UserDraft.age_le_of_decode {s : Bytes} {u : UserDraft}
    (h : UserDraft.layout.decode s = .ok u) : u.age ≤ maxAge := by
  obtain ⟨entries, hfills, hbuild⟩ := Json.Layout.fills_of_decode h
  unfold UserDraft.layout at hfills hbuild
  dsimp only at hfills hbuild
  split at hbuild
  · next age =>
    cases hbuild
    -- The age is the fourth entry.
    cases hfills with | cons _ hfills => cases hfills with | cons _ hfills =>
      cases hfills with | cons _ hfills => cases hfills with | cons hage _ => exact hage _ rfl
  · simp at hbuild

namespace Http

theorem age_le_of_readBody {r : Request} {u : UserDraft}
    (h : readBody UserDraft.layout r = .ok u) : u.age ≤ maxAge := by
  unfold readBody at h
  split at h
  · simp at h
  · split at h
    · simp at h
    · split at h
      · next found hdecode =>
        obtain rfl := Except.ok.inj h
        exact UserDraft.age_le_of_decode hdecode
      · simp at h
      · simp at h

end Http

namespace Rpc

open Protobuf

/-- Only the age field touches the age, and it cuts what it is given to 32 bits. -/
theorem age_le_of_merge {level : Nat} {u v : User} {f : Field} (hu : u.age ≤ maxAge)
    (h : Message.merge level u f = some v) : v.age ≤ maxAge := by
  simp only [Message.merge] at h
  split at h
  · obtain ⟨_, -, rfl⟩ := Option.map_eq_some_iff.mp h
    exact hu
  · obtain ⟨_, -, rfl⟩ := Option.map_eq_some_iff.mp h
    exact hu
  · obtain ⟨_, -, rfl⟩ := Option.map_eq_some_iff.mp h
    exact hu
  · obtain ⟨_, -, rfl⟩ := Option.map_eq_some_iff.mp h
    exact hu
  · next n _ _ =>
    obtain rfl := Option.some.inj h
    have hcut : n % 4294967296 < 4294967296 := Nat.mod_lt n (by decide)
    exact Nat.le_of_lt_succ hcut
  · simp at h
  · obtain rfl := Option.some.inj h
    exact hu

theorem age_le_of_foldlM {level : Nat} {fs : List Field} {u v : User} (hu : u.age ≤ maxAge)
    (h : fs.foldlM (Message.merge level) u = some v) : v.age ≤ maxAge := by
  induction fs generalizing u with
  | nil =>
      obtain rfl := Option.some.inj h
      exact hu
  | cons f fs ih =>
      rw [List.foldlM_cons] at h
      obtain ⟨next, hmerge, h⟩ := Option.bind_eq_some_iff.mp h
      exact ih (age_le_of_merge hu hmerge) h

/-- The argument of a call is one of the messages that were read. -/
theorem decode_of_readArgument {α : Type} [Message α] {body : Bytes} {a : α}
    (h : readArgument body = .ok a) : ∃ message, Message.decode message = some a := by
  unfold readArgument readMessages at h
  obtain ⟨messages, hmessages, h⟩ := Json.bind_eq_ok.mp h
  split at h
  · next m rest =>
    obtain rfl := Except.ok.inj h
    obtain ⟨head, -, hmessages⟩ := Json.bind_eq_ok.mp hmessages
    split at hmessages
    · simp at hmessages
    · split at hmessages
      · simp at hmessages
      · next found hdecode =>
        obtain ⟨others, -, hmessages⟩ := Json.bind_eq_ok.mp hmessages
        obtain ⟨rfl, -⟩ := List.cons.inj (Except.ok.inj hmessages)
        exact ⟨_, hdecode⟩
  · simp at h

theorem age_le_of_readArgument {body : Bytes} {u : User} (h : readArgument body = .ok u) :
    u.age ≤ maxAge := by
  obtain ⟨message, hdecode⟩ := decode_of_readArgument h
  obtain ⟨fs, -, hmerge⟩ := Option.bind_eq_some_iff.mp hdecode
  exact age_le_of_foldlM (Nat.zero_le _) hmerge

end Rpc

/-! ## Front ends -/

section

variable {σ : Type} {good : σ → Prop} {c : Calendar σ}

namespace Http

theorem keeps_ask {α : Type} {act : StorageAction σ α} (h : Keeps good act)
    (answer : α → Response) : Keeps good (ask act answer) := by
  refine h.bind fun result => ?_
  cases result <;> exact .answer _ _

theorem keeps_given {α : Type} {parameter : Except Response α} {next : α → Action σ Response}
    (h : ∀ a, parameter = .ok a → Keeps good (next a)) : Keeps good (given parameter next) := by
  unfold given
  split
  · next a => exact h a rfl
  · exact .answer _ _

/-- A response costs at most one operation of the calendar. -/
theorem keeps_respond (h : c.Preserves good) (r : Request) : Keeps good (respond c r) := by
  have hserve : ∀ query route, Keeps good (serve c r query route) := by
    intro query route
    cases route with
    | health => exact .answer _ _
    | createUser =>
        exact keeps_given fun u hu => keeps_ask (h.createUser (age_le_of_readBody hu)) _
    | listUsers => exact keeps_ask h.listUsers _
    | deleteUser id => exact keeps_given fun id _ => keeps_ask (h.deleteUser id) _
    | createEvent => exact keeps_given fun e _ => keeps_ask (h.createEvent e) _
    | listEvents => exact keeps_ask (h.select .all) _
    | updateEvent => exact keeps_given fun e _ => keeps_ask (h.updateEvent e) _
    | deleteEvent id => exact keeps_given fun id _ => keeps_ask (h.deleteEvent id) _
    | listPeriod period =>
        refine keeps_given fun q _ => keeps_ask ?_ _
        cases period with
        | day => exact h.select (.day q.reference)
        | week => exact h.select (.week q.reference)
        | month => exact h.select (.month q.reference)
  unfold respond
  dsimp only
  split
  · exact .answer _ _
  · split
    · exact .answer _ _
    · exact (hserve _ _).bind fun _ => .answer _ _

end Http

namespace Rpc

theorem keeps_ask {α β : Type} [Message β] {act : StorageAction σ α} (h : Keeps good act)
    (reply : α → β) : Keeps good (ask act reply) := by
  refine h.bind fun result => ?_
  cases result <;> exact .answer _ _

theorem keeps_given {α : Type} [Message α] {body : Bytes} {next : α → Reply σ}
    (h : ∀ a, readArgument body = .ok a → Keeps good (next a)) : Keeps good (given body next) := by
  unfold given
  split
  · next a ha => exact h a ha
  · exact .answer _ _

theorem keeps_taken {α : Type} {value : Except WireError α} {next : α → Reply σ}
    (h : ∀ a, Keeps good (next a)) : Keeps good (taken value next) := by
  unfold taken
  split
  · exact h _
  · exact .answer _ _

theorem keeps_listFrom {list : Instant → StorageAction σ (List Event)}
    (h : ∀ t, Keeps good (list t)) (body : Bytes) : Keeps good (listFrom body list) :=
  keeps_given fun _ _ => keeps_taken fun t => keeps_ask (h t) _

/-- A call costs at most one operation of the calendar. -/
theorem keeps_call (h : c.Preserves good) (method : String) (body : Bytes) :
    Keeps good (call c method body) := by
  have hcarryOut : ∀ m, Keeps good (carryOut c body m) := by
    intro m
    cases m with
    | createEvent => exact keeps_given fun _ _ => keeps_taken fun e => keeps_ask (h.createEvent e) _
    | listEvents => exact keeps_given fun _ _ => keeps_ask (h.select .all) _
    | updateEvent =>
        refine keeps_given fun _ _ => keeps_taken fun e => ?_
        split
        · exact .answer _ _
        · exact keeps_ask (h.updateEvent e) _
    | deleteEvent => exact keeps_given fun i _ => keeps_ask (h.deleteEvent i.id) _
    | eventsOfDay => exact keeps_listFrom (fun t => h.select (.day t)) body
    | eventsOfWeek => exact keeps_listFrom (fun t => h.select (.week t)) body
    | eventsOfMonth => exact keeps_listFrom (fun t => h.select (.month t)) body
    | createUser =>
        exact keeps_given fun u hu => keeps_ask (h.createUser (age_le_of_readArgument hu)) _
    | listUsers => exact keeps_given fun _ _ => keeps_ask h.listUsers _
    | deleteUser => exact keeps_given fun i _ => keeps_ask (h.deleteUser i.id) _
  unfold call
  split
  · exact hcarryOut _
  · exact .answer _ _

end Rpc

end

/-! ## Visits -/

/-- Somebody who comes to the calendar. -/
inductive Visit
  | http (r : Http.Request)
  | rpc (method : String) (body : Bytes)
  | direct (request : Calendar.Request) (hsized : request.Sized)
  /-- A tick of a scheduler as a whole. -/
  | tick (settings : Scheduler.Settings) (tally : Scheduler.Tally) (clock : Instant)
  /-- One call of a tick, for ticks that others come in between of. -/
  | step (settings : Scheduler.Settings) (t : Scheduler.Tick) (stage : Scheduler.Stage)

namespace Visit

section

variable {σ : Type}

/-- What a visit does; its answer does not matter to those who come later. -/
def run (c : Calendar σ) (broker : Broker.Client σ) : Visit → Action σ Unit
  | http r => do let _ ← Http.respond c r
  | rpc method body => do let _ ← Rpc.call c method body
  | direct request _ => do let _ ← c.serve request
  | tick settings tally clock => do let _ ← Scheduler.tick ⟨settings, c, broker⟩ tally clock
  | step settings t stage => do let _ ← Scheduler.step ⟨settings, c, broker⟩ t stage

variable {good : σ → Prop} {c : Calendar σ} {broker : Broker.Client σ}

theorem keeps_run (h : c.Preserves good)
    (hpublish : ∀ settings body, Keeps good (broker.publish settings body)) (v : Visit) :
    Keeps good (v.run c broker) := by
  cases v with
  | http r => exact (Http.keeps_respond h r).bind fun _ => .answer _ _
  | rpc method body => exact (Rpc.keeps_call h method body).bind fun _ => .answer _ _
  | direct request hsized => exact (h request hsized).bind fun _ => .answer _ _
  | tick settings tally clock =>
      refine .bind ?_ fun _ => .answer _ _
      exact Scheduler.keeps_tick _ (fun after limit => h.select (.notifiedBetween after limit))
        (fun t => h.select (.before t)) h.deleteEvent (hpublish settings.publish) tally clock
  | step settings t stage =>
      refine .bind ?_ fun _ => .answer _ _
      exact Scheduler.keeps_step _ (fun after limit => h.select (.notifiedBetween after limit))
        (fun t => h.select (.before t)) h.deleteEvent (hpublish settings.publish) t stage

end

/-! ## The storage in memory, beside some broker -/

variable {β : Type}

/-- The calendar over the storage in memory, with some broker beside it. -/
def calendar : Calendar (MemoryState × β) :=
  ⟨Storage.memory.zoom Prod.fst fun m w => (m, w.2)⟩

/-- A broker beside the storage. -/
def bus (broker : Broker.Client β) : Broker.Client (MemoryState × β) :=
  broker.zoom Prod.snd fun b w => (w.1, b)

/-- What becomes of the storage and the broker when visits come one after the other. -/
def after (broker : Broker.Client β) (w : MemoryState × β) (visits : List Visit) :
    MemoryState × β :=
  visits.foldl (fun w v => ((v.run calendar (bus broker)).perform w).2) w

/-- What an empty storage in memory holds after some visits. -/
def reached (broker : Broker.Client β) (b : β) (ids : IdSource) (visits : List Visit) :
    MemoryState :=
  (after broker ({ ids }, b) visits).1

/-- An action on the storage, which has a broker beside it. -/
abbrev onStorage {α : Type} (act : Action MemoryState α) : Action (MemoryState × β) α :=
  Action.zoom Prod.fst (fun m w => (m, w.2)) act

/-- Wrapping the result of an operation on a part can as well be done on the part. -/
theorem respond_onStorage {α : Type} (wrap : α → Calendar.Answer)
    {act : StorageAction (MemoryState × β) α} {part : StorageAction MemoryState α}
    (h : act = onStorage part) :
    Calendar.respond wrap act = onStorage (Calendar.respond wrap part) := by
  subst h
  funext w
  show (Calendar.respond wrap (onStorage part)).perform w =
    (onStorage (Calendar.respond wrap part)).perform w
  rw [Calendar.respond, Action.perform_bind, Action.perform_zoom, Action.perform_zoom,
    Calendar.respond, Action.perform_bind]
  rcases part.perform w.1 with ⟨r, m⟩
  cases r <;> rfl

/-- Beside a broker the calendar serves as it does alone. -/
theorem serve_calendar (request : Calendar.Request) :
    (calendar (β := β)).serve request = onStorage (Calendar.inMemory.serve request) := by
  have hwindow : ∀ window : Option Window, (calendar (β := β)).storage.eventsOfWindow window =
      onStorage (Storage.memory.eventsOfWindow window) := by
    intro window
    cases window <;> rfl
  cases request with
  | createEvent e =>
      apply respond_onStorage
      unfold Calendar.createEvent
      cases e.fault? <;> rfl
  | updateEvent e =>
      apply respond_onStorage
      unfold Calendar.updateEvent
      cases e.toEventDraft.fault? <;> rfl
  | select which =>
      apply respond_onStorage
      cases which with
      | day t => exact hwindow (Window.day? t)
      | week t => exact hwindow (Window.week? t)
      | month t => exact hwindow (Window.month? t)
      | _ => rfl
  -- The other requests are operations of the storage as they are.
  | createUser | deleteUser | listUsers | deleteEvent => exact respond_onStorage _ rfl

/-- What the calendar keeps of an empty storage in memory is so after any visits. -/
theorem keeps_reached {good : MemoryState → Prop} (h : Calendar.inMemory.Preserves good)
    (broker : Broker.Client β) (b : β) {ids : IdSource} (hempty : good { ids })
    (visits : List Visit) : good (reached broker b ids visits) := by
  have hcalendar : (calendar (β := β)).Preserves fun w => good w.1 := by
    intro request hsized
    rw [serve_calendar]
    exact (h request hsized).zoom fun _ _ => rfl
  have hbus : ∀ settings body,
      Keeps (fun w : MemoryState × β => good w.1) ((bus broker).publish settings body) := by
    intro settings body w hw
    exact hw
  -- One visit after the other, from a good state on.
  have hafter : ∀ (visits : List Visit) (w : MemoryState × β), good w.1 →
      good (after broker w visits).1 := by
    intro visits
    induction visits with
    | nil => exact fun w hw => hw
    | cons v visits ih => exact fun w hw => ih _ (keeps_run hcalendar hbus v w hw)
  exact hafter visits ({ ids }, b) hempty

end Visit

end Almanac
