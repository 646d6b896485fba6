/-
  Almanac.Scheduler.Tally

  What a scheduler is told, what one tick reports, and what the scheduler remembers of
  all its ticks. The watermark `coveredUntil` is the last second whose notifications
  have been handled; the next tick begins behind it.
-/
import Almanac.Broker.Settings
import Almanac.Time.Instant

namespace Almanac.Scheduler

/-- Settings of a scheduler. -/
structure Settings where
  /-- Milliseconds between ticks. -/
  interval : Nat := 1000
  /-- Events that began more than this many months ago are removed. -/
  retentionMonths : Nat := 12
  /-- How far the first tick looks back, in nanoseconds. -/
  catchUp : Nat := 60000000000
  /-- Where notifications are published. -/
  publish : Broker.PublishSettings := {}
deriving DecidableEq, Inhabited

/-- The lower bound of the first tick at `now`, itself excluded: one second more than the
    catch-up time before, or the first instant if that is before all time. -/
def Settings.firstBound (s : Settings) (now : Instant) : Instant :=
  let catchUp : Span := min s.catchUp Span.longest
  (now.sub? (catchUp.addSaturating (Span.ofSeconds 1))).getD Instant.first

/-- What one tick did. -/
structure Report where
  /-- Events whose notification fell into the window. -/
  due : Nat := 0
  published : Nat := 0
  publishFailures : Nat := 0
  /-- Events older than the retention time. -/
  expired : Nat := 0
  purged : Nat := 0
  purgeFailures : Nat := 0
  lastError : Option String := none
deriving DecidableEq, Inhabited

/-- What all ticks did. -/
structure Tally where
  ticks : Nat := 0
  published : Nat := 0
  publishFailures : Nat := 0
  purged : Nat := 0
  purgeFailures : Nat := 0
  lastTick : Option Instant := none
  /-- Notifications up to this second have been handled. -/
  coveredUntil : Option Instant := none
  lastError : Option String := none
deriving DecidableEq, Inhabited

/-- Adds a tick at `now` whose due events were handled through `through`, if at all. -/
def Tally.record (t : Tally) (now : Instant) (r : Report) (through : Option Instant) : Tally where
  ticks := t.ticks + 1
  published := t.published + r.published
  publishFailures := t.publishFailures + r.publishFailures
  purged := t.purged + r.purged
  purgeFailures := t.purgeFailures + r.purgeFailures
  lastTick := some now
  coveredUntil := through.or t.coveredUntil
  lastError := r.lastError.or t.lastError

end Almanac.Scheduler
