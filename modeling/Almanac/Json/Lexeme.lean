/-
  Almanac.Json.Lexeme

  The smallest parts of JSON text: blanks, strings, numbers and words, each read
  from the front of a byte string.

  A value can be read for its content (`readString`, `readNumber`) or skipped
  (`skipString`, `skipNumber`). Skipping checks less: escapes of lone surrogates,
  invalid UTF-8 and numbers of any size pass.
-/
import Almanac.Text.Bytes
import Almanac.Text.Decimal

namespace Almanac.Json

/-- Why JSON text could not be read, by the first fault from the left. -/
inductive Fault
  /-- The bytes are not JSON. -/
  | malformed
  /-- The bytes end too early. -/
  | truncated
  /-- The bytes are JSON so far, but not what is wanted. -/
  | mismatched
deriving DecidableEq, Repr

/-- The blanks of JSON: space, tab, line feed and carriage return. -/
def isSpace (b : UInt8) : Bool := b == 32 || b == 9 || b == 10 || b == 13

/-- Drops the blanks in front. -/
def skipSpace (s : Bytes) : Bytes := s.dropWhile isSpace

/-- Whether a byte is a decimal digit. -/
def isDigit (b : UInt8) : Bool := 48 ≤ b && b ≤ 57

/-! ## Strings -/

/-- The number that four hexadecimal digits stand for. -/
def hex4? (a b c d : UInt8) : Option Nat := do
  let a ← hexValue? a
  let b ← hexValue? b
  let c ← hexValue? c
  let d ← hexValue? d
  some (((a * 16 + b) * 16 + c) * 16 + d)

/-- The byte that a one-letter escape stands for. -/
def shortEscape? (b : UInt8) : Option UInt8 :=
  if b == 34 || b == 92 || b == 47 then some b       -- quote, backslash, slash
  else if b == 98 then some 8                        -- backspace
  else if b == 102 then some 12                      -- form feed
  else if b == 110 then some 10                      -- line feed
  else if b == 114 then some 13                      -- carriage return
  else if b == 116 then some 9                       -- tab
  else none

/-- Whether a number is the first half of a surrogate pair. -/
def isHighSurrogate (n : Nat) : Bool := 0xD800 ≤ n && n ≤ 0xDBFF

/-- Whether a number is the second half of a surrogate pair. -/
def isLowSurrogate (n : Nat) : Bool := 0xDC00 ≤ n && n ≤ 0xDFFF

/-- The bytes of a string up to its closing quote, in reverse in front of `acc`, and what
    follows the quote. `high` is a first surrogate half that waits for its second one. -/
def stringBytes (high : Option Nat) (acc : Bytes) : Bytes → Except Fault (Bytes × Bytes)
  | [] => .error .truncated
  | 92 :: [] => .error .truncated
  | 92 :: 117 :: a :: b :: c :: d :: rest =>
    match high, hex4? a b c d with
    | _, none => .error .malformed
    | none, some n =>
      if isLowSurrogate n then .error .malformed
      else if isHighSurrogate n then stringBytes (some n) acc rest
      else stringBytes none ((utf8 (Char.ofNat n).toString).reverse ++ acc) rest
    | some h, some n =>
      if isLowSurrogate n then
        let point := 0x10000 + (h - 0xD800) * 1024 + (n - 0xDC00)
        stringBytes none ((utf8 (Char.ofNat point).toString).reverse ++ acc) rest
      else .error .malformed
  | 92 :: e :: rest =>
    if e == 117 then .error .truncated
    else match high, shortEscape? e with
      | none, some b => stringBytes none (b :: acc) rest
      | _, _ => .error .malformed
  | b :: rest =>
    if high.isSome then .error .malformed
    else if b == 34 then .ok (acc, rest)
    else if b < 32 then .error .malformed
    else stringBytes none (b :: acc) rest

/-- The text of a string whose opening quote has been taken. -/
def readString (s : Bytes) : Except Fault (String × Bytes) := do
  let (acc, rest) ← stringBytes none [] s
  match ofUtf8? acc.reverse with
  | some text => .ok (text, rest)
  | none => .error .malformed

/-- What follows a string whose opening quote has been taken. -/
def skipString : Bytes → Except Fault Bytes
  | [] => .error .truncated
  | 92 :: [] => .error .truncated
  | 92 :: 117 :: a :: b :: c :: d :: rest =>
    if (hex4? a b c d).isSome then skipString rest else .error .malformed
  | 92 :: e :: rest =>
    if e == 117 then .error .truncated
    else if (shortEscape? e).isSome then skipString rest else .error .malformed
  | b :: rest =>
    if b == 34 then .ok rest
    else if b < 32 then .error .malformed
    else skipString rest

/-! ## Numbers -/

/-- A number by what can be asked of it. -/
inductive Number
  /-- A natural number below 2^64. -/
  | natural (n : Nat)
  /-- A negative integer of at least -2^63. -/
  | negative (n : Int)
  /-- Any other number. -/
  | real
deriving DecidableEq, Repr

/-- The value of decimal digits. -/
def digitsNat (ds : Bytes) : Nat := ds.foldl (fun n d => 10 * n + (d.toNat - 48)) 0

/-- The double nearest to a natural number, ties to even, before any overflow. -/
def roundToDouble (n : Nat) : Nat :=
  if n < 9007199254740992 then n
  else
    let unit := Nat.pow 2 (n.log2 - 52)
    let low := n / unit
    let rest := n % unit
    if unit < 2 * rest || (unit == 2 * rest && low % 2 == 1) then (low + 1) * unit
    else low * unit

/-- Whether `digits` times ten to the `exponent` is too large for a double. -/
def overflowsDouble (digits : Nat) (exponent : Int) : Bool :=
  if digits == 0 || exponent < 0 then false
  else if 308 < exponent then true
  else
    doubleBound ≤ roundToDouble digits * roundToDouble (powerOfTen exponent.toNat)

/-- The first digits of a number that together stay below 2^64. -/
def leadingDigits : Nat → Bytes → Nat × Nat
  | n, [] => (n, 0)
  | n, d :: ds =>
    let m := 10 * n + (d.toNat - 48)
    if m < 18446744073709551616 then leadingDigits m ds else (n, ds.length + 1)

/-- An exponent whose letter has been taken: its value and what follows. -/
def readExponent (s : Bytes) : Except Fault (Int × Bytes) :=
  let (minus, s) := match s with
    | 45 :: rest => (true, rest)
    | 43 :: rest => (false, rest)
    | _ => (false, s)
  match s.span isDigit with
  | ([], []) => .error .truncated
  | ([], _) => .error .malformed
  | (digits, rest) => .ok (if minus then -(digitsNat digits : Int) else digitsNat digits, rest)

/-- Digits after a decimal point, of which there has to be one. -/
def readDecimals (s : Bytes) : Except Fault (Bytes × Bytes) :=
  match s.span isDigit with
  | ([], []) => .error .truncated
  | ([], _) => .error .malformed
  | (digits, rest) => .ok (digits, rest)

def readNumber (s : Bytes) : Except Fault (Number × Bytes) := do
  let (minus, s) := match s with
    | 45 :: rest => (true, rest)
    | _ => (false, s)
  let (whole, rest) := s.span isDigit
  match whole with
  | [] => .error (if rest.isEmpty then .truncated else .malformed)
  | 48 :: _ :: _ => .error .malformed
  | _ =>
    let (decimals, rest) ← match rest with
      | 46 :: rest => readDecimals rest
      | _ => pure ([], rest)
    let (exponent, rest) ← match rest with
      | 101 :: rest => (readExponent rest).map fun (e, rest) => (some e, rest)
      | 69 :: rest => (readExponent rest).map fun (e, rest) => (some e, rest)
      | _ => pure (none, rest)
    let (digits, dropped) := leadingDigits 0 (whole ++ decimals)
    let plain := decimals.isEmpty && exponent.isNone && dropped == 0
    if overflowsDouble digits (exponent.getD 0 - decimals.length + dropped) then
      .error .malformed
    else if plain && !minus then .ok (.natural digits, rest)
    else if plain && minus && 0 < digits && digits ≤ 9223372036854775808 then
      .ok (.negative (-digits), rest)
    else .ok (.real, rest)

/-- What follows an exponent whose letter has been taken. -/
def skipExponent (s : Bytes) : Except Fault Bytes :=
  let s := match s with
    | 45 :: rest => rest
    | 43 :: rest => rest
    | _ => s
  match s.span isDigit with
  | ([], _) => .error .malformed
  | (_, rest) => .ok rest

/-- What follows a number. -/
def skipNumber (s : Bytes) : Except Fault Bytes := do
  let s := match s with
    | 45 :: rest => rest
    | _ => s
  let (whole, rest) := s.span isDigit
  match whole with
  | [] => .error .malformed
  | 48 :: _ :: _ => .error .malformed
  | _ =>
    let rest ← match rest with
      | 46 :: rest =>
        match rest.span isDigit with
        | ([], _) => .error .malformed
        | (_, rest) => pure rest
      | _ => pure rest
    match rest with
    | 101 :: rest => skipExponent rest
    | 69 :: rest => skipExponent rest
    | _ => .ok rest

/-! ## Words -/

/-- What follows the letters of a word. -/
def expect : Bytes → Bytes → Except Fault Bytes
  | [], s => .ok s
  | _ :: _, [] => .error .truncated
  | w :: word, b :: s => if b == w then expect word s else .error .malformed

/-- The letters of `null`. -/
def nullWord : Bytes := [110, 117, 108, 108]
/-- The letters of `true`. -/
def trueWord : Bytes := [116, 114, 117, 101]
/-- The letters of `false`. -/
def falseWord : Bytes := [102, 97, 108, 115, 101]

end Almanac.Json
