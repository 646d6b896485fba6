/-
  Almanac.Time.Notation

  The text of instants and dates.

  `Instant.text` writes `YYYY-MM-DDTHH:MM:SS[.fraction]Z` with the shortest of no,
  three, six or nine fraction digits that is exact, and a signed year outside 0 to
  9999. `Instant.parse?` reads that form and its looser relatives: blanks before
  numbers, separators and the offset, short fields, a lower-case or blank `T`, second
  60, and any offset below a day. `Date.parse?` reads a date under the same rules.
-/
import Almanac.Text.Blank
import Almanac.Text.Decimal
import Almanac.Time.Instant

namespace Almanac

/-! ## Writing -/

/-- A year of four digits, or a sign and at least four digits outside 0 to 9999. -/
def yearText (year : Int) : List Char :=
  if year < 0 then '-' :: padZeros 4 year.natAbs
  else if 9999 < year then '+' :: padZeros 4 year.natAbs
  else padZeros 4 year.natAbs

/-- Nanoseconds as the shortest exact fraction: nothing, or a point with three, six or
    nine digits. -/
def fractionText (nanos : Nat) : List Char :=
  if nanos == 0 then []
  else if nanos % 1000000 == 0 then '.' :: padZeros 3 (nanos / 1000000)
  else if nanos % 1000 == 0 then '.' :: padZeros 6 (nanos / 1000)
  else '.' :: padZeros 9 nanos

def Date.chars (d : Date) : List Char :=
  yearText d.year ++ '-' :: padZeros 2 d.month ++ '-' :: padZeros 2 d.day

/-- The characters of an instant; a leap second is written as second 60. -/
def Instant.chars (t : Instant) : List Char :=
  let leap := 1000000000 ≤ t.frac
  let second := t.second % 60 + (if leap then 1 else 0)
  let nanos := if leap then t.frac - 1000000000 else t.frac
  t.date.chars ++ 'T' :: padZeros 2 (t.second / 3600) ++ ':' :: padZeros 2 (t.second / 60 % 60)
    ++ ':' :: padZeros 2 second ++ fractionText nanos ++ ['Z']

def Instant.text (t : Instant) : String := String.ofList t.chars

def Date.text (d : Date) : String := String.ofList d.chars

/-! ## Reading -/

/-- A number of one to `limit` digits, after blanks. -/
def readField (limit : Nat) (cs : List Char) : Option (Nat × List Char) :=
  readNumber limit (skipBlank cs)

/-- A year: up to four digits without a sign, any number of them with one. -/
def readYear (cs : List Char) : Option (Int × List Char) :=
  match skipBlank cs with
  | '-' :: rest => (readNumber rest.length rest).map fun (n, rest) => (-(n : Int), rest)
  | '+' :: rest => (readNumber rest.length rest).map fun (n, rest) => ((n : Int), rest)
  | rest => (readNumber 4 rest).map fun (n, rest) => ((n : Int), rest)

/-- A given separator, after blanks. -/
def readSeparator (sep : Char) (cs : List Char) : Option (List Char) :=
  match skipBlank cs with
  | c :: rest => if c == sep then some rest else none
  | [] => none

/-- Year, month and day with dashes between them. -/
def readDate (cs : List Char) : Option (Date × List Char) := do
  let (year, cs) ← readYear cs
  let cs ← readSeparator '-' cs
  let (month, cs) ← readField 2 cs
  let cs ← readSeparator '-' cs
  let (day, cs) ← readField 2 cs
  some (⟨year, month, day⟩, cs)

/-- A fraction of a second in nanoseconds; digits past the ninth are dropped. -/
def readFraction (cs : List Char) : Option (Nat × List Char) :=
  match cs with
  | '.' :: rest =>
    match splitDigits 9 rest with
    | ([], _) => none
    | (digits, rest) =>
      some (digitsValue digits * powerOfTen (9 - digits.length), rest.dropWhile Char.isDigit)
  | _ => some (0, cs)

/-- A time of day as its second and fraction; second 60 extends second 59. -/
def readTime (cs : List Char) : Option (Nat × Nat × List Char) := do
  let (hour, cs) ← readField 2 cs
  let cs ← readSeparator ':' cs
  let (minute, cs) ← readField 2 cs
  let cs ← readSeparator ':' cs
  let (second, cs) ← readField 2 cs
  let (nanos, cs) ← readFraction cs
  if hour < 24 ∧ minute < 60 ∧ second ≤ 60 then
    if second = 60 then some (hour * 3600 + minute * 60 + 59, 1000000000 + nanos, cs)
    else some (hour * 3600 + minute * 60 + second, nanos, cs)
  else none

/-- The minus signs an offset may have. -/
def isMinusSign (c : Char) : Bool := c == '-' || c == '\u2212'

/-- An offset from UTC in seconds: `Z`, `UTC`, or a sign with two digits for the hours and
    two for the minutes, with any colons and blanks between. -/
def readOffset (cs : List Char) : Option (Int × List Char) :=
  match skipBlank cs with
  | 'Z' :: rest => some (0, rest)
  | 'z' :: rest => some (0, rest)
  | u :: t :: c :: rest =>
    if u.toUpper == 'U' && t.toUpper == 'T' && c.toUpper == 'C' then some (0, rest)
    else if u == '+' || isMinusSign u then do
      let (hours, rest) ← exactly2 (t :: c :: rest)
      let rest := rest.dropWhile fun c => c == ':' || isBlank c
      let (minutes, rest) ← exactly2 rest
      if minutes < 60 then
        let size : Int := hours * 3600 + minutes * 60
        some (if u == '+' then size else -size, rest)
      else none
    else none
  | _ => none
where
  /-- A number of two digits. -/
  exactly2 : List Char → Option (Nat × List Char)
    | a :: b :: rest =>
      if a.isDigit && b.isDigit then some (digitsValue [a, b], rest) else none
    | _ => none

/-- Whether a day number lies in the supported range. -/
def inRange (day : Int) : Bool := decide (minDay ≤ day ∧ day ≤ maxDay)

/-- The date written in a text, if it exists and is in range. -/
def Date.parse? (s : String) : Option Date := do
  let (date, rest) ← readDate s.toList
  if date.Valid ∧ inRange date.toDay ∧ (skipBlank rest).isEmpty then some date else none

/-- The instant written in a text. Both its local date and the instant itself have to be
    in range. -/
def Instant.parse? (s : String) : Option Instant := do
  let (date, rest) ← readDate s.toList
  let rest ← match rest with
    | c :: rest => if c == 'T' || c == 't' || c == ' ' then some rest else none
    | [] => none
  let (second, frac, rest) ← readTime rest
  let (offset, rest) ← readOffset rest
  if date.Valid ∧ inRange date.toDay ∧ offset.natAbs < 86400 ∧ (skipBlank rest).isEmpty then
    let moved : Int := second - offset
    Instant.of? (date.toDay + moved / 86400) (moved % 86400).toNat frac
  else none

end Almanac
