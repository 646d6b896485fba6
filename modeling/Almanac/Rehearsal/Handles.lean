/-
  Almanac.Rehearsal.Handles

  Shutdown handles and waiters under names. Handles that were cloned from each other
  share a channel; a name that is given anew gives up what it stood for.
-/
import Almanac.Shutdown
import Almanac.Table

namespace Almanac.Rehearsal

/-- Handles and waiters, each with the number of its channel. -/
structure Handles where
  channels : List Shutdown.Channel := []
  handles : Table Nat := []
  waiters : Table (Nat × Shutdown.Waiter) := []

namespace Handles

def channel? (h : Handles) (name : String) : Option (Nat × Shutdown.Channel) := do
  let i ← h.handles.get? name
  some (i, ← h.channels[i]?)

def waiter? (h : Handles) (name : String) : Option (Shutdown.Channel × Shutdown.Waiter) := do
  let (i, w) ← h.waiters.get? name
  some (← h.channels[i]?, w)

def change (h : Handles) (name : String) (f : Shutdown.Channel → Shutdown.Channel) : Handles :=
  match h.channel? name with
  | some (i, c) => { h with channels := h.channels.set i (f c) }
  | none => h

def release (h : Handles) (name : String) : Handles :=
  { h.change name Shutdown.Channel.release with handles := h.handles.erase name }

/-- Makes a handle with a channel of its own. -/
def create (h : Handles) (name : String) : Handles :=
  let h := h.release name
  { h with
    channels := h.channels ++ [{}]
    handles := h.handles.insert name h.channels.length }

/-- Makes a handle that shares the channel of another one. -/
def clone (h : Handles) (name copy : String) : Handles :=
  match h.channel? name with
  | some (i, _) =>
    let h := (h.change name Shutdown.Channel.clone).release copy
    { h with handles := h.handles.insert copy i }
  | none => h

def trigger (h : Handles) (name : String) : Handles := h.change name Shutdown.Channel.trigger

/-- Makes a waiter on the channel of a handle. -/
def wait (h : Handles) (name waiter : String) : Handles :=
  match h.channel? name with
  | some (i, _) => { h with waiters := h.waiters.insert waiter (i, {}) }
  | none => h

/-- Gives up whatever has a name. -/
def drop (h : Handles) (name : String) : Handles :=
  { h.release name with waiters := h.waiters.erase name }

end Handles

end Almanac.Rehearsal
