/-
  Almanac.Http.Target

  The target of a request: a path, and a query behind a question mark. Percent signs with
  two hexadecimal digits stand for bytes; in a query a plus sign stands for a space.
-/
import Almanac.Text.Bytes
import Almanac.Text.Pieces

namespace Almanac.Http

/-- Bytes with their percent escapes taken back; a percent sign that begins no escape stands
    for itself. -/
def percentDecode : Bytes → Bytes
  | [] => []
  | 37 :: a :: b :: rest =>
    match hexValue? a, hexValue? b with
    | some x, some y => UInt8.ofNat (16 * x + y) :: percentDecode rest
    | _, _ => 37 :: percentDecode (a :: b :: rest)
  | c :: rest => c :: percentDecode rest

/-- The text that an escaped piece of a path stands for, if it is one. -/
def pathText? (s : String) : Option String := ofUtf8? (percentDecode (utf8 s))

/-- The text that an escaped piece of a query stands for, if it is one. -/
def queryText? (s : String) : Option String :=
  ofUtf8? (percentDecode ((utf8 s).map fun b => if b == 43 then 32 else b))

/-- The target of a request. -/
structure Target where
  /-- The pieces of the path between its slashes, still escaped. -/
  path : List String
  query : String
deriving DecidableEq

/-- What stands before the first of some characters, and behind it. -/
def cutAt (stop : Char → Bool) (cs : List Char) : List Char × List Char :=
  (cs.takeWhile (!stop ·), (cs.dropWhile (!stop ·)).drop 1)

/-- The path of a target that may begin with a scheme and a host. -/
def pathPart (cs : List Char) : List Char :=
  if cs.head? == some '/' then cs
  else match cs.dropWhile (· != ':') with
    | ':' :: '/' :: '/' :: rest => rest.dropWhile fun c => c != '/' && c != '?'
    | _ => cs

/-- The target with a text. What stands behind a hash sign does not count. -/
def Target.parse (s : String) : Target :=
  let (shown, _) := cutAt (· == '#') (pathPart s.toList)
  let (path, query) := cutAt (· == '?') shown
  { path := ((pieces '/' path).map String.ofList).drop 1, query := String.ofList query }

/-- The pairs of a query, still escaped. Pieces stand between ampersands, empty ones do not
    count, and a piece is cut at its first equals sign. -/
def queryPairs (query : String) : List (String × String) :=
  ((textPieces '&' query).filter (!·.isEmpty)).map fun piece =>
    let (key, value) := cutAt (· == '=') piece.toList
    (String.ofList key, String.ofList value)

/-- The values of a key in a query; a value that is no text is none. -/
def queryValues (key query : String) : List (Option String) :=
  (queryPairs query).filterMap fun (k, v) =>
    if queryText? k == some key then some (queryText? v) else none

/-- The value of a key that a query has once. -/
def queryValue? (key query : String) : Option String :=
  match queryValues key query with
  | [value] => value
  | _ => none

end Almanac.Http
