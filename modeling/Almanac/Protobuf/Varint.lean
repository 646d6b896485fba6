/-
  Almanac.Protobuf.Varint

  Variable-length integers: seven bits to a byte, low bits first, the top bit set on
  every byte but the last. Numbers are below 2^64, so at most ten bytes long.
-/
import Almanac.Text.Bytes

namespace Almanac.Protobuf

/-- The bytes of a number, as few as possible. -/
def encodeVarint (n : Nat) : Bytes :=
  if n < 128 then [UInt8.ofNat n]
  else UInt8.ofNat (n % 128 + 128) :: encodeVarint (n / 128)

/-- A number of at most `limit` bytes from the front; `place` is the value of the next bit. -/
def readVarintFrom : Nat → Nat → Nat → Bytes → Option (Nat × Bytes)
  | 0, _, _, _ => none
  | _, _, _, [] => none
  | limit + 1, place, n, b :: rest =>
    let n := n + (b.toNat % 128) * place
    if 128 ≤ b.toNat then readVarintFrom limit (place * 128) n rest
    else if n < 18446744073709551616 then some (n, rest)
    else none

/-- A number below 2^64 from the front. -/
def readVarint (s : Bytes) : Option (Nat × Bytes) := readVarintFrom 10 1 0 s

/-- The varint that stands for a signed 64-bit integer. -/
def ofSigned (n : Int) : Nat := (n % 18446744073709551616).toNat

/-- The signed integer that the low `bits` bits of a varint stand for. -/
def toSigned (bits n : Nat) : Int := Int.bmod n (Nat.pow 2 bits)

end Almanac.Protobuf
