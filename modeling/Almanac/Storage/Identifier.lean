/-
  Almanac.Storage.Identifier

  Identifiers of records: sixteen bytes in the form of a random (version 4) UUID.
-/
import Almanac.Text.Bytes

namespace Almanac

/-- The bits that mark version and variant, set in sixteen bytes. -/
def markVersion4 (bytes : Bytes) : Bytes :=
  bytes.mapIdx fun i b =>
    if i == 6 then (b &&& 0x0f) ||| 0x40
    else if i == 8 then (b &&& 0x3f) ||| 0x80
    else b

/-- The text of sixteen bytes: lower-case hexadecimal in groups of 8, 4, 4, 4 and 12. -/
def identifierText (bytes : Bytes) : String :=
  let digits := (markVersion4 bytes).flatMap hexPair
  let group (start size : Nat) := (digits.drop start).take size
  String.ofList (group 0 8 ++ '-' :: group 8 4 ++ '-' :: group 12 4 ++ '-' :: group 16 4
    ++ '-' :: group 20 12)

/-- A number as sixteen bytes, the highest first. -/
def sixteenBytes (n : Nat) : Bytes :=
  (List.range 16).map fun i => UInt8.ofNat (n >>> (8 * (15 - i)))

/-- Where the bytes of new identifiers come from: prepared ones first, then the number of
    the identifier. -/
structure IdSource where
  prepared : List Bytes := []
  issued : Nat := 0
deriving Inhabited

/-- A new identifier. -/
def IdSource.next (s : IdSource) : String × IdSource :=
  let issued := s.issued + 1
  match s.prepared with
  | bytes :: prepared => (identifierText bytes, { prepared, issued })
  | [] => (identifierText (sixteenBytes issued), { s with issued })

end Almanac
