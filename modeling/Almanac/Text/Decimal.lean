/-
  Almanac.Text.Decimal

  Decimal digits: the text of a natural number, its width-padded form, the reading of
  a run of digits, and powers of ten.
-/

namespace Almanac

/-- The digits of `n` behind as many zeros as it takes to reach `width`. -/
def padZeros (width n : Nat) : List Char :=
  let digits := Nat.toDigits 10 n
  List.replicate (width - digits.length) '0' ++ digits

/-- The number a run of digits stands for. -/
def digitsValue (cs : List Char) : Nat :=
  cs.foldl (fun n c => 10 * n + (c.toNat - '0'.toNat)) 0

def powerOfTen (n : Nat) : Nat := Nat.pow 10 n

/-- The first number that is too large for 64 bits of floating point: halfway between the largest
    one and two to the power of 1024. -/
def doubleBound : Nat := Nat.pow 2 1024 - Nat.pow 2 970

/-- At most `limit` leading digits, and what follows them. -/
def splitDigits : Nat → List Char → List Char × List Char
  | 0, cs => ([], cs)
  | _ + 1, [] => ([], [])
  | limit + 1, c :: cs =>
    if c.isDigit then
      let (digits, rest) := splitDigits limit cs
      (c :: digits, rest)
    else ([], c :: cs)

/-- A number of one to `limit` digits. -/
def readNumber (limit : Nat) (cs : List Char) : Option (Nat × List Char) :=
  match splitDigits limit cs with
  | ([], _) => none
  | (digits, rest) => some (digitsValue digits, rest)

/-- The text of an integer: a minus sign for the negative ones, no plus sign. -/
def intText (n : Int) : String :=
  match n with
  | .ofNat k => String.ofList (Nat.toDigits 10 k)
  | .negSucc k => String.ofList ('-' :: Nat.toDigits 10 (k + 1))

def natText (n : Nat) : String := String.ofList (Nat.toDigits 10 n)

end Almanac
