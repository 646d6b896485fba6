/-
  Almanac.Rehearsal.Clock

  Letting the tasks run. `settle` lets them run until all of them wait. `pass` moves the
  clock: whenever all tasks wait it goes on to the next time at which one wants to be
  woken, and it stops when it reaches its limit, before the tasks that wake up there.
-/
import Almanac.Rehearsal.Task

namespace Almanac.Rehearsal.World

/-- Lets the tasks make at most so many steps. -/
def steps : Nat → World → World
  | 0, w => w
  | n + 1, w =>
    match w.step with
    | some w => steps n w
    | none => w

/-- How many messages the broker has. -/
def messageCount (w : World) : Nat :=
  (w.broker.queues.flatMap fun (_, q) => q.ready).length
    + (w.broker.queues.flatMap fun (_, q) => q.unacked).length
    + (w.broker.streams.flatMap fun s => s.waiting).length

/-- More steps than the tasks can make while the clock stands still: each task makes a few dozen
    of its own, two for every event, and one for every message, which may come back whenever a
    consumer ends. -/
def effort (w : World) : Nat :=
  let tasks := w.tasks.length + 5
  let events := w.memory.store.events.length + 1
  tasks * (100 + 8 * events + w.messageCount + 2 * events * tasks)

/-- Lets the tasks run until all of them wait. -/
def settle (w : World) : World := steps w.effort w

/-- Moves the clock to a limit, or until something has come true. -/
def pass (isDone : World → Bool) (limit : Nat) (w : World) : World :=
  let settled := w.settle
  if isDone settled then settled
  else match settled.nextWake with
    | some t =>
      if _h : w.clock < t ∧ t < limit then pass isDone limit { settled with clock := t }
      else { settled with clock := max settled.clock limit }
    | none => { settled with clock := max settled.clock limit }
termination_by limit - w.clock
decreasing_by omega

/-- Moves the clock by some milliseconds. -/
def advance (w : World) (milliseconds : Nat) : World :=
  w.pass (fun _ => false) (w.clock + milliseconds)

end Almanac.Rehearsal.World
