/-
  Almanac.Scheduler.Tick

  One tick of the scheduler. It selects the events whose notification second lies behind
  the watermark and not after now, and publishes a message for each; then it selects the
  events that began before the retention time and deletes each. A failure of one event
  is counted, and the others go on. When the due events cannot be selected the watermark
  stays where it is.

  `tick` is the tick as a whole. `step` does the same work one call at a time, for runs
  in which others act in between.
-/
import Almanac.Broker.Client
import Almanac.Calendar
import Almanac.Notification
import Almanac.Scheduler.Tally
import Almanac.Service.Error

namespace Almanac

/-- A scheduler over a calendar and a broker. -/
structure Scheduler (σ : Type) where
  settings : Scheduler.Settings
  calendar : Calendar σ
  broker : Broker.Client σ

namespace Scheduler

variable {σ : Type}

/-- A tick under way. -/
structure Tick where
  /-- The second of the tick. -/
  now : Instant
  /-- The notifications up to here have been handled before. -/
  after : Instant
  /-- Through where they have been handled now. -/
  through : Option Instant := none
  report : Report := {}
deriving DecidableEq

/-- The tick that begins when the clock reads `clock`. -/
def Tick.begin (settings : Settings) (tally : Tally) (clock : Instant) : Tick :=
  let now := clock.floorSecond
  { now, after := tally.coveredUntil.getD (settings.firstBound now) }

namespace Tick

def reporting (t : Tick) (f : Report → Report) : Tick := { t with report := f t.report }

def selectionFailed (t : Tick) (e : StorageError) : Tick :=
  t.reporting fun r => { r with lastError := some e.text }

/-- Whether the window of the tick holds a second. -/
def hasWindow (t : Tick) : Bool := decide (t.after < t.now)

/-- What the tally becomes when the tick ends. -/
def recorded (t : Tick) (tally : Tally) : Tally := tally.record t.now t.report t.through

end Tick

variable (s : Scheduler σ)

/-- Publishes the notification of an event. -/
def announce (e : Event) : Action σ (Except Service.Error Unit) :=
  match e.announcement.encode with
  | .error cause => Action.answer (.error (.wire cause))
  | .ok body => do
    match ← s.broker.publish s.settings.publish body with
    | .ok () => Action.answer (.ok ())
    | .error cause => Action.answer (.error (.broker cause))

/-- Selects the due events, if the window holds a second. -/
def selectDue (t : Tick) : Action σ (Tick × List Event) :=
  if t.hasWindow then do
    match ← s.calendar.eventsDueBetween t.after t.now with
    | .ok due =>
      let t := { t with through := some t.now }
      return (t.reporting fun r => { r with due := due.length }, due)
    | .error e => return (t.selectionFailed e, [])
  else return (t, [])

def publishOne (t : Tick) (e : Event) : Action σ Tick := do
  match ← s.announce e with
  | .ok () => return t.reporting fun r => { r with published := r.published + 1 }
  | .error cause =>
    return t.reporting fun r =>
      { r with publishFailures := r.publishFailures + 1, lastError := some cause.text }

/-- Selects the events that began before the retention time. -/
def selectExpired (t : Tick) : Action σ (Tick × List Event) := do
  match ← s.calendar.eventsBefore (t.now.monthsEarlier s.settings.retentionMonths) with
  | .ok expired => return (t.reporting fun r => { r with expired := expired.length }, expired)
  | .error e => return (t.selectionFailed e, [])

/-- Deletes one expired event. -/
def purgeOne (t : Tick) (e : Event) : Action σ Tick := do
  match ← s.calendar.deleteEvent e.id with
  | .ok () => return t.reporting fun r => { r with purged := r.purged + 1 }
  | .error cause =>
    return t.reporting fun r =>
      { r with purgeFailures := r.purgeFailures + 1, lastError := some cause.text }

def work (t : Tick) : Action σ Tick := do
  let (t, due) ← s.selectDue t
  let t ← due.foldlM s.publishOne t
  let (t, expired) ← s.selectExpired t
  expired.foldlM s.purgeOne t

/-- A tick when the clock reads `clock`: its report, and the tally after it. -/
def tick (tally : Tally) (clock : Instant) : Action σ (Report × Tally) := do
  let t ← s.work (Tick.begin s.settings tally clock)
  return (t.report, t.recorded tally)

/-! ## One call at a time -/

/-- What a tick does next. -/
inductive Stage
  | selectingDue
  | publishing (due : List Event)
  | selectingExpired
  | purging (expired : List Event)
deriving DecidableEq

/-- Does what a tick does next; nothing is left to do when the last expired event is gone. -/
def step (t : Tick) : Stage → Action σ (Tick × Option Stage)
  | .selectingDue => do
    let (t, due) ← s.selectDue t
    return (t, some (.publishing due))
  | .publishing (e :: due) => do return (← s.publishOne t e, some (.publishing due))
  | .publishing [] => return (t, some .selectingExpired)
  | .selectingExpired => do
    let (t, expired) ← s.selectExpired t
    return (t, some (.purging expired))
  | .purging (e :: expired) => do return (← s.purgeOne t e, some (.purging expired))
  | .purging [] => return (t, none)

end Scheduler

end Almanac
