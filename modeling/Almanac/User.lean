/-
  Almanac.User

  Users of the calendar, before and after they are stored, and their JSON form.
-/
import Almanac.Json.Record

namespace Almanac

/-- A user that has not been stored yet. -/
structure UserDraft where
  firstName : String
  lastName : String
  email : String
  age : Nat
deriving DecidableEq

/-- A stored user. -/
structure User extends UserDraft where
  id : String
deriving DecidableEq

/-- The largest age a user can have. -/
def maxAge : Nat := 4294967295

/-- The stored form under an id. -/
def UserDraft.identified (u : UserDraft) (id : String) : User := { u with id }

open Json in
def UserDraft.layout : Layout UserDraft where
  fields := [("firstName", .text), ("lastName", .text), ("email", .text),
    ("age", .natural maxAge)]
  parts u := [.text u.firstName, .text u.lastName, .text u.email, .natural u.age]
  build
    | [some (.text firstName), some (.text lastName), some (.text email),
        some (.natural age)] => some { firstName, lastName, email, age }
    | _ => none

open Json in
/-- A stored user in JSON: the id and then the fields of a new one. -/
def User.layout : Layout User where
  fields := ("id", .text) :: UserDraft.layout.fields
  parts u := .text u.id :: UserDraft.layout.parts u.toUserDraft
  build
    | some (.text id) :: rest => (UserDraft.layout.build rest).map (·.identified id)
    | _ => none

end Almanac
