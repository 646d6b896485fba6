/-
  Almanac.Net.Address

  Network addresses: four bytes written in decimal, or eight groups written in
  hexadecimal, where one run of zero groups may be left out. `Host.text` writes the
  canonical form, with the longest run left out and the first of several longest ones;
  `Host.parse?` reads every form. A socket address is a host with a port.
-/
import Almanac.Text.Bytes
import Almanac.Text.Decimal

namespace Almanac.Net

/-- The address of a host. -/
inductive Host
  | v4 (bytes : List UInt8)
  /-- Eight groups. -/
  | v6 (groups : List UInt16)
deriving DecidableEq, Inhabited

/-- The host that connects to itself. -/
def Host.loopback : Host := .v4 [127, 0, 0, 1]

/-- A host and a port. -/
structure Address where
  host : Host
  port : UInt16
deriving DecidableEq, Inhabited

/-! ## Writing -/

def hexNumber (n : UInt16) : String := String.ofList (Nat.toDigits 16 n.toNat)

/-- Four bytes with points between them. -/
def pointed (bytes : List UInt8) : String :=
  String.intercalate "." (bytes.map fun b => natText b.toNat)

/-- Groups with colons between them. -/
def colons (groups : List UInt16) : String := String.intercalate ":" (groups.map hexNumber)

/-- The start and length of the first longest run of zeros, from place `i` on, `best` being the
    longest run before it. -/
def longestZeros (groups : List UInt16) (i : Nat := 0) (best : Nat × Nat := (0, 0)) : Nat × Nat :=
  match groups with
  | [] => best
  | g :: rest =>
    let run := ((g :: rest).takeWhile (· == 0)).length
    longestZeros rest (i + 1) (if best.2 < run then (i, run) else best)

def Host.text : Host → String
  | .v4 bytes => pointed bytes
  | .v6 groups =>
    match groups with
    | [0, 0, 0, 0, 0, 0xffff, g, h] =>
      let bytes := [g, h].flatMap fun (x : UInt16) => [(x >>> 8).toUInt8, x.toUInt8]
      "::ffff:" ++ pointed bytes
    | _ =>
      let (start, length) := longestZeros groups
      if 1 < length then
        colons (groups.take start) ++ "::" ++ colons (groups.drop (start + length))
      else colons groups

/-- The text of an address; groups stand in brackets. -/
def Address.text (a : Address) : String :=
  let host := match a.host with
    | .v4 _ => a.host.text
    | .v6 _ => "[" ++ a.host.text ++ "]"
  host ++ ":" ++ natText a.port.toNat

/-! ## Reading -/

/-- A reader of a part of a text: what it read and what is left. -/
abbrev Reader (α : Type) := List Char → Option (α × List Char)

/-- A decimal number below 256 without needless zeros. -/
def readByte : Reader UInt8 := fun cs =>
  let digits := cs.takeWhile Char.isDigit
  let n := digitsValue digits
  if digits.isEmpty || 3 < digits.length || 255 < n then none
  else if digits.head? == some '0' && digits.length != 1 then none
  else some (UInt8.ofNat n, cs.dropWhile Char.isDigit)

/-- The rest of a text behind a character. -/
def readMark (mark : Char) : List Char → Option (List Char)
  | c :: cs => if c == mark then some cs else none
  | [] => none

/-- Four bytes with points between them. -/
def readBytes : Reader (List UInt8) := fun cs => do
  let (a, cs) ← readByte cs
  let (b, cs) ← readByte (← readMark '.' cs)
  let (c, cs) ← readByte (← readMark '.' cs)
  let (d, cs) ← readByte (← readMark '.' cs)
  some ([a, b, c, d], cs)

/-- The value of a hexadecimal digit in a text. -/
def hexCharValue? (c : Char) : Option Nat :=
  if c.toNat < 128 then hexValue? (UInt8.ofNat c.toNat) else none

/-- One to four hexadecimal digits; five are too many. -/
def readGroup : Reader UInt16 := fun cs =>
  let digits := cs.takeWhile fun c => (hexCharValue? c).isSome
  if digits.isEmpty || 4 < digits.length then none
  else
    let n := digits.foldl (fun n c => 16 * n + (hexCharValue? c).getD 0) 0
    some (UInt16.ofNat n, cs.drop digits.length)

/-- Up to `room` groups with colons between them, of which the last two may be written as four
    bytes: the groups, whether they end in four bytes, and what is left. -/
def readGroups (first : Bool) : Nat → List Char → List UInt16 × Bool × List Char
  | 0, cs => ([], false, cs)
  | room + 1, cs =>
    let start := if first then some cs else readMark ':' cs
    match start with
    | none => ([], false, cs)
    | some start =>
      match (if room = 0 then none else readBytes start) with
      | some ([a, b, c, d], rest) =>
        ([a.toUInt16 <<< 8 ||| b.toUInt16, c.toUInt16 <<< 8 ||| d.toUInt16], true, rest)
      | _ =>
        match readGroup start with
        | none => ([], false, cs)
        | some (g, rest) =>
          let (groups, four, rest) := readGroups false room rest
          (g :: groups, four, rest)

/-- Eight groups, or fewer with one gap that stands for at least one zero group. -/
def readV6 : Reader Host := fun cs => do
  let (head, four, rest) := readGroups true 8 cs
  if head.length = 8 then some (.v6 head, rest)
  else if four then none
  else
    let rest ← readMark ':' (← readMark ':' rest)
    let (tail, _, rest) := readGroups true (7 - head.length) rest
    let zeros := List.replicate (8 - head.length - tail.length) 0
    some (.v6 (head ++ zeros ++ tail), rest)

/-- Four bytes. -/
def readV4 : Reader Host := fun cs => (readBytes cs).map fun (bytes, rest) => (.v4 bytes, rest)

/-- What a reader makes of a whole text. -/
def whole {α : Type} (read : Reader α) (cs : List Char) : Option α :=
  match read cs with
  | some (a, []) => some a
  | _ => none

def Host.parse? (s : String) : Option Host := (whole readV4 s.toList).or (whole readV6 s.toList)

def readPort : Reader UInt16 := fun cs =>
  let digits := cs.takeWhile Char.isDigit
  let n := digitsValue digits
  if digits.isEmpty || 65535 < n then none
  else some (UInt16.ofNat n, cs.dropWhile Char.isDigit)

/-- A host and a port behind a colon. -/
def readAddress : Reader Address := fun cs => do
  let (host, rest) ← (match readV4 cs with
    | some r => some r
    | none => do
      let (host, rest) ← readV6 (← readMark '[' cs)
      some (host, ← readMark ']' rest))
  let (port, rest) ← readPort (← readMark ':' rest)
  some ({ host, port }, rest)

def Address.parse? (s : String) : Option Address := whole readAddress s.toList

/-! ## Names of hosts -/

/-- Why a host name has no address. -/
inductive LookupFault
  /-- A NUL character stands in the name. -/
  | nul
  /-- Nobody knows the name. -/
  | unknown
deriving DecidableEq, Repr

def LookupFault.text : LookupFault → String
  | nul => "file name contained an unexpected NUL byte"
  | unknown => "failed to lookup address information: Name or service not known"

/-- The host with a name. Hosts are known by their addresses alone. -/
def lookup (name : String) : Except LookupFault Host :=
  match Host.parse? name with
  | some host => .ok host
  | none => .error (if name.toList.contains '\x00' then .nul else .unknown)

end Almanac.Net
