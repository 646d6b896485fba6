/-
  Almanac.Rehearsal.Gate

  The lock of the calendar: readers go together, a writer goes alone, and nobody goes
  before one who waits.
-/

namespace Almanac.Rehearsal

/-- What a call needs of the gate. -/
inductive Access
  | read
  | write
deriving DecidableEq, Inhabited

/-- Who wants to pass: a task by its number, or the caller in front. -/
inductive Party
  | task (i : Nat)
  | front
deriving DecidableEq, Inhabited

structure Gate where
  /-- Who is inside. -/
  held : List (Party × Access) := []
  /-- Who waits, in order. -/
  waiting : List (Party × Access) := []
deriving DecidableEq, Inhabited

namespace Gate

/-- Whether a party can go in now. -/
def admits (g : Gate) (p : Party) (a : Access) : Bool :=
  g.held.all (fun (_, b) => a == .read && b == .read) && (g.waiting.takeWhile (·.1 != p)).isEmpty

def hasWaiting (g : Gate) (p : Party) : Bool := g.waiting.any (·.1 == p)

/-- A party starts to wait. -/
def wait (g : Gate) (p : Party) (a : Access) : Gate :=
  if g.hasWaiting p then g else { g with waiting := g.waiting ++ [(p, a)] }

def leave (g : Gate) (p : Party) : Gate where
  held := g.held.filter (·.1 != p)
  waiting := g.waiting.filter (·.1 != p)

def enter (g : Gate) (p : Party) (a : Access) : Gate :=
  let g := g.leave p
  { g with held := g.held ++ [(p, a)] }

end Gate

end Almanac.Rehearsal
