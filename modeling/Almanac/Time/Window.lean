/-
  Almanac.Time.Window

  Half-open windows of time: the day of an instant, and the week and the month that
  start at one.
-/
import Almanac.Time.Instant

namespace Almanac

/-- The instants from `start` up to, but without, `finish`. -/
structure Window where
  start : Instant
  finish : Instant
deriving DecidableEq

namespace Window

/-- The window between two instants; there is none when the first is the later one. -/
def between? (start finish : Instant) : Option Window :=
  if start ≤ finish then some ⟨start, finish⟩ else none

/-- What is said about a window that would end before it starts. -/
def reversedMessage : String := "TimeWindow start must be <= end"

/-- The window of a given length from `start`, cut at the last instant. -/
def ofSpan? (start : Instant) (length : Span) : Option Window :=
  between? start ((start.add? length).getD Instant.last)

def day? (t : Instant) : Option Window := ofSpan? t.dayStart (Span.ofDays 1)

/-- Seven days from an instant. -/
def week? (t : Instant) : Option Window := ofSpan? t (Span.ofDays 7)

/-- From an instant to the same day and time of the next month. -/
def month? (t : Instant) : Option Window :=
  between? t ((t.addMonths? 1).getD Instant.last)

def span (w : Window) : Span := w.finish.since w.start

def contains (w : Window) (t : Instant) : Bool := decide (w.start ≤ t ∧ t < w.finish)

end Window

end Almanac
