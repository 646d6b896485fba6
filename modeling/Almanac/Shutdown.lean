/-
  Almanac.Shutdown

  Shutdown signals. Handles share a channel that holds a flag; triggering a handle sets
  the flag for good and counts up the channel's version. A waiter alternates two steps:
  it reads the flag, and when the flag is not set it parks until the version differs from
  the one it saw last. A waiter also ends once every handle is gone, since nobody is left
  to trigger the channel.
-/

namespace Almanac.Shutdown

/-- What handles and waiters share. -/
structure Channel where
  triggered : Bool := false
  /-- How often the channel was triggered. -/
  version : Nat := 0
  /-- How many handles there are. -/
  handles : Nat := 1
deriving DecidableEq, Inhabited

namespace Channel

/-- Sets the flag. -/
def trigger (c : Channel) : Channel := { c with triggered := true, version := c.version + 1 }

/-- Makes one more handle. -/
def clone (c : Channel) : Channel := { c with handles := c.handles + 1 }

/-- Gives up one handle. -/
def release (c : Channel) : Channel := { c with handles := c.handles - 1 }

def text (c : Channel) : String :=
  "ShutdownHandle \x7b triggered: " ++ (if c.triggered then "true" else "false") ++ " \x7d"

end Channel

/-- Where a waiter is. -/
inductive Phase
  /-- About to read the flag. -/
  | reading
  /-- Asleep until the version changes or the handles are gone. -/
  | parked
  | done
deriving DecidableEq, Inhabited

/-- A waiter of a channel. -/
structure Waiter where
  /-- The version it saw last. -/
  seen : Nat := 0
  phase : Phase := .reading
deriving DecidableEq, Inhabited

namespace Waiter

/-- Whether a waiter can make a step. -/
def ready (c : Channel) (w : Waiter) : Bool :=
  match w.phase with
  | .reading => true
  | .parked => w.seen != c.version || c.handles == 0
  | .done => false

/-- One step of a waiter; one that cannot make a step stays as it is. -/
def step (c : Channel) (w : Waiter) : Waiter :=
  match w.phase with
  | .reading => { w with phase := if c.triggered then .done else .parked }
  | .parked =>
    if w.seen != c.version then { seen := c.version, phase := .reading }
    else if c.handles == 0 then { w with phase := .done }
    else w
  | .done => w

/-- A waiter after all the steps it can make while the channel stays the same: it reads, it
    may find a new version, it reads again, and it may find the handles gone. -/
def settle (c : Channel) (w : Waiter) : Waiter := step c (step c (step c (step c w)))

/-- Whether a new waiter of a channel completes now. -/
def completes (c : Channel) (w : Waiter) : Bool := (settle c w).phase == .done

end Waiter

end Almanac.Shutdown
