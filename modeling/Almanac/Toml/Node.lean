/-
  Almanac.Toml.Node

  Tables that can still grow. A file names a table in its header, by a longer header
  that leads through it, or by dotted keys, and what may be added to a table later
  depends on which of these it was. `descend` walks along a path and `fill` adds
  entries; both fail on what a file must not say twice.
-/
import Almanac.Table
import Almanac.Tree

namespace Almanac.Toml

/-- How a table was named. -/
inductive Naming
  | header
  /-- By a header that leads through it. -/
  | passage
  | dotted
deriving DecidableEq, Repr

/-- A value of a table that can still grow. -/
inductive Node
  | closed (value : Tree)
  | table (naming : Naming) (entries : List (String × Node))
  /-- A list of tables, each under a header of its own. -/
  | tables (items : List (List (String × Node)))
deriving Inhabited

/-- The entries of a table that can still grow. -/
abbrev Entries := Table Node

mutual

def Node.tree : Node → Tree
  | .closed value => value
  | .table _ entries => .table (treesOf entries)
  | .tables items => .list (tablesOf items)

/-- The values of entries. -/
def treesOf : List (String × Node) → List (String × Tree)
  | [] => []
  | (key, node) :: rest => (key, node.tree) :: treesOf rest

def tablesOf : List (List (String × Node)) → List Tree
  | [] => []
  | entries :: rest => .table (treesOf entries) :: tablesOf rest

end

/-- Changes the table at the end of a path, which begins in a table of some naming. Tables that are
    missing on the way are made, with the naming `made`; a list of tables leads into its last one.
    A dotted key does not lead into a table that has a header of its own. -/
def descend (made : Naming) (change : Naming → Entries → Option Entries) :
    Naming → List String → Entries → Option Entries
  | naming, [], entries => change naming entries
  | _, key :: path, entries =>
    match entries.get? key with
    | none => do
      let inner ← descend made change made path []
      some (entries.insert key (.table made inner))
    | some (.closed _) => none
    | some (.tables items) =>
      match items.getLast? with
      | none => none
      | some last => do
        let inner ← descend made change .header path last
        some (entries.insert key (.tables (items.dropLast ++ [inner])))
    | some (.table naming inner) =>
      if made == .dotted && naming == .header then none
      else do
        let inner ← descend made change naming path inner
        some (entries.insert key (.table naming inner))

/-- One `key = value` of a file; the key may have parts in front of its last one. -/
structure Entry where
  path : List String := []
  key : String
  value : Tree
deriving Inhabited

/-- Adds a value under a new key of a table. A dotted key ends in a table that dotted keys made. -/
def Entry.place (e : Entry) (naming : Naming) (entries : Entries) : Option Entries :=
  if (naming == .dotted) == e.path.isEmpty then none
  else if (entries.get? e.key).isSome then none
  else some (entries.insert e.key (.closed e.value))

/-- Adds entries to a table, one after another. -/
def fill (entries : Entries) : List Entry → Option Entries
  | [] => some entries
  | e :: rest => do fill (← descend .dotted e.place .header e.path entries) rest

end Almanac.Toml
