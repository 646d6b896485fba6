/-
  Almanac.Net.Listener

  Which addresses can be listened on: those of this host, unless another listener has
  the port. Port nought stands for a free one.
-/
import Almanac.Net.Address

namespace Almanac.Net

/-- Why an address cannot be listened on. -/
inductive BindFault
  | inUse
  | notLocal
deriving DecidableEq, Repr

def BindFault.text : BindFault → String
  | inUse => "Address already in use (os error 98)"
  | notLocal => "Cannot assign requested address (os error 99)"

/-- Whether a host stands for every address of its machine. -/
def Host.isAny : Host → Bool
  | .v4 bytes => bytes.all (· == 0)
  | .v6 groups => groups.all (· == 0)

def Host.isLocal (h : Host) : Bool :=
  h.isAny || match h with
    | .v4 bytes => bytes.head? == some 127
    | .v6 groups => groups == [0, 0, 0, 0, 0, 0, 0, 1]

/-- Whether two listeners cannot be there at once. -/
def Address.clashes (a b : Address) : Bool :=
  a.port != 0 && a.port == b.port && (a.host == b.host || a.host.isAny || b.host.isAny)

/-- Why an address cannot be listened on, besides the listeners that are there. -/
def Address.bindFault? (listeners : List Address) (a : Address) : Option BindFault :=
  if !a.host.isLocal then some .notLocal
  else if listeners.any a.clashes then some .inUse
  else none

end Almanac.Net
