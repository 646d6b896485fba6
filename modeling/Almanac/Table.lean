/-
  Almanac.Table

  Values under names. A table keeps the order in which its keys came; putting a value
  under a key that is there changes the value and not the order.
-/

namespace Almanac

/-- Values under keys, each key once. -/
abbrev Table (α : Type) := List (String × α)

namespace Table

variable {α : Type}

def get? (t : Table α) (key : String) : Option α := List.lookup key t

/-- Puts a value under a key, in the place of an earlier one if there is one. -/
def insert (t : Table α) (key : String) (value : α) : Table α :=
  match t with
  | [] => [(key, value)]
  | (k, v) :: rest =>
    if k == key then (key, value) :: rest else (k, v) :: insert rest key value

def erase (t : Table α) (key : String) : Table α := t.filter fun (k, _) => k != key

def values (t : Table α) : List α := t.map (·.2)

end Table

end Almanac
