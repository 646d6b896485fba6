/-
  Almanac.Action

  Actions: what a part of the service does to the state it shares with the others.
  An action answers, or it stalls: it crashes with a message, or it never returns.
  Either way the changes it made before stay.

  The state is a parameter. A run in which other clients act between two calls is an
  action over a state that holds those clients too.
-/

namespace Almanac

/-- Why an action does not answer. -/
inductive Stall
  | crash (message : String)
  | never
deriving DecidableEq, Repr

/-- A computation over a shared state that may stall. -/
abbrev Action (σ α : Type) := ExceptT Stall (StateM σ) α

namespace Action

variable {σ τ α : Type}

def answer (a : α) : Action σ α := pure a

/-- Stops with a message. -/
def crash (message : String) : Action σ α := throw (.crash message)

/-- Never returns. -/
def never : Action σ α := throw .never

/-- Runs an action from a state: its answer or stall, and the state it leaves. -/
def perform (act : Action σ α) (s : σ) : Except Stall α × σ := act.run s

def update (f : σ → α × σ) : Action σ α := fun s =>
  let (a, s) := f s
  (.ok a, s)

/-- Runs an action and answers how it went, also when it stalls. -/
def attempt (act : Action σ α) : Action σ (Except Stall α) := fun s =>
  let (r, s) := act s
  (.ok r, s)

def look (f : σ → α) : Action σ α := update fun s => (f s, s)

def modify (f : σ → σ) : Action σ Unit := update fun s => ((), f s)

/-- An action on a part of the state. -/
def zoom (get : σ → τ) (set : τ → σ → σ) (act : Action τ α) : Action σ α := fun s =>
  let (r, t) := act (get s)
  (r, set t s)

end Action

end Almanac
