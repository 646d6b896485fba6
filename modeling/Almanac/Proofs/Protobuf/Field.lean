/-
  Almanac.Proofs.Protobuf.Field

  Fields that were written are read back. A varint is read from the front of whatever
  follows it (`readVarint_encodeVarint`), then so are a field key and a field
  (`readField_encode`), and then all fields of a message (`fields?_encodeFields`).

  A length is a varint too, and only numbers below 2^64 have one, so a message has to be
  shorter than that.
-/
import Almanac.Protobuf.Field
import Mathlib.Tactic.Ring

namespace Almanac.Protobuf

/-! ## Varints -/

theorem toNat_ofNat {n : Nat} (h : n < 256) : (UInt8.ofNat n).toNat = n := by
  rw [UInt8.toNat_ofNat']
  exact Nat.mod_eq_of_lt h

theorem encodeVarint_ne_nil (n : Nat) : encodeVarint n ≠ [] := by
  rw [encodeVarint]
  split
  · simp
  · simp

/-- The last byte of a number has its top bit clear. -/
theorem readVarintFrom_last {limit place n m : Nat} (rest : Bytes) (hm : m < 128)
    (hsum : n + m * place < 18446744073709551616) :
    readVarintFrom (limit + 1) place n (encodeVarint m ++ rest) = some (n + m * place, rest) := by
  have hbyte := toNat_ofNat (show m < 256 by omega)
  have hlow : m % 128 = m := Nat.mod_eq_of_lt hm
  rw [encodeVarint, if_pos hm, List.singleton_append, readVarintFrom]
  simp only [hbyte, hlow]
  rw [if_neg (by omega), if_pos hsum]

/-- The low seven bits of a number count at this place, the others from the next one on. -/
theorem readVarintFrom_more {limit place n m : Nat} (rest : Bytes) (hm : 128 ≤ m) :
    readVarintFrom (limit + 1) place n (encodeVarint m ++ rest) =
      readVarintFrom limit (place * 128) (n + m % 128 * place)
        (encodeVarint (m / 128) ++ rest) := by
  have hbyte := toNat_ofNat (show m % 128 + 128 < 256 by omega)
  have hlow : (m % 128 + 128) % 128 = m % 128 := by omega
  rw [encodeVarint, if_neg (by omega), List.cons_append, readVarintFrom]
  simp only [hbyte, hlow]
  rw [if_pos (by omega)]

/-- A number that fits into the bytes left is added at its place. -/
theorem readVarintFrom_encodeVarint {limit place n m : Nat} (rest : Bytes)
    (hlimit : m < 128 ^ (limit + 1)) (hsum : n + m * place < 18446744073709551616) :
    readVarintFrom (limit + 1) place n (encodeVarint m ++ rest) = some (n + m * place, rest) := by
  induction limit generalizing place n m with
  | zero => exact readVarintFrom_last rest (by simpa using hlimit) hsum
  | succ limit ih =>
      rcases Nat.lt_or_ge m 128 with hsmall | hlarge
      · exact readVarintFrom_last rest hsmall hsum
      · have hparts : n + m % 128 * place + m / 128 * (place * 128) = n + m * place := by
          have hdiv := Nat.div_add_mod m 128
          calc n + m % 128 * place + m / 128 * (place * 128)
              = n + (128 * (m / 128) + m % 128) * place := by ring
            _ = n + m * place := by rw [hdiv]
        have hrest : m / 128 < 128 ^ (limit + 1) := by
          rw [Nat.div_lt_iff_lt_mul (by omega)]
          rwa [← Nat.pow_succ]
        rw [readVarintFrom_more rest hlarge, ih hrest (by rw [hparts]; exact hsum), hparts]

/-- A number below 2^64 is read back, whatever follows it. -/
theorem readVarint_encodeVarint {n : Nat} (h : n < 18446744073709551616) (rest : Bytes) :
    readVarint (encodeVarint n ++ rest) = some (n, rest) := by
  -- Ten bytes have room for seventy bits.
  have hpow : (18446744073709551616 : Nat) ≤ 128 ^ (9 + 1) := by decide
  have hlimit : n < 128 ^ (9 + 1) := Nat.lt_of_lt_of_le h hpow
  have hread : readVarintFrom 10 1 0 (encodeVarint n ++ rest) = some (0 + n * 1, rest) :=
    readVarintFrom_encodeVarint rest hlimit (by omega)
  rw [Nat.zero_add, Nat.mul_one] at hread
  exact hread

theorem length_encodeVarint_of_lt {limit n : Nat} (h : n < 128 ^ (limit + 1)) :
    (encodeVarint n).length ≤ limit + 1 := by
  induction limit generalizing n with
  | zero =>
      have hsmall : n < 128 := by simpa using h
      rw [encodeVarint, if_pos hsmall]
      exact Nat.le_refl 1
  | succ limit ih =>
      rw [encodeVarint]
      split
      · simp
      · have hrest : n / 128 < 128 ^ (limit + 1) := by
          rw [Nat.div_lt_iff_lt_mul (by omega)]
          rwa [← Nat.pow_succ]
        have hlength := ih hrest
        rw [List.length_cons]
        omega

/-- A number below 2^64 takes ten bytes at most. -/
theorem length_encodeVarint_le {n : Nat} (h : n < 18446744073709551616) :
    (encodeVarint n).length ≤ 10 := by
  have hpow : (18446744073709551616 : Nat) ≤ 128 ^ (9 + 1) := by decide
  exact length_encodeVarint_of_lt (Nat.lt_of_lt_of_le h hpow)

/-! ## Signed numbers -/

/-- A 64-bit integer is read back from its varint. -/
theorem toSigned_ofSigned {n : Int} (hlow : -9223372036854775808 ≤ n)
    (hhigh : n < 9223372036854775808) : toSigned 64 (ofSigned n) = n := by
  have hpow : Nat.pow 2 64 = 18446744073709551616 := by decide
  rw [toSigned, ofSigned, hpow, Int.bmod_def]
  split <;> omega

/-- A number of 31 bits is read back as one of 32. -/
theorem toSigned_ofSigned_32 {n : Int} (hlow : 0 ≤ n) (hhigh : n < 2147483648) :
    toSigned 32 (ofSigned n) = n := by
  have hpow : Nat.pow 2 32 = 4294967296 := by decide
  rw [toSigned, ofSigned, hpow, Int.bmod_def]
  split <;> omega

theorem ofSigned_lt (n : Int) : ofSigned n < 18446744073709551616 := by
  rw [ofSigned]
  omega

/-! ## Fields -/

/-- A field that can be written: its number has 29 bits, and what it carries is a number of 64
    bits or a byte string. -/
def Field.Proper (f : Field) : Prop :=
  0 < f.number ∧ f.number < 536870912 ∧
    match f.payload with
    | .varint n => n < 18446744073709551616
    | .bytes _ => True
    | _ => False

theorem readKey_encodeVarint {number : Nat} (hnumber : 0 < number) (hlarge : number < 536870912)
    (wire : Nat) (hwire : wire < 8) (rest : Bytes) :
    readKey (encodeVarint (number * 8 + wire) ++ rest) = some (number, wire, rest) := by
  have hdiv : (number * 8 + wire) / 8 = number := by omega
  have hmod : (number * 8 + wire) % 8 = wire := by omega
  rw [readKey, readVarint_encodeVarint (by omega)]
  simp only [Option.bind_eq_bind, Option.bind_some]
  rw [if_pos ⟨by omega, by omega⟩, hdiv, hmod]

theorem splitBytes_append (b rest : Bytes) :
    splitBytes b.length (b ++ rest) = some (b, rest) := by
  rw [splitBytes, if_pos (by simp), List.splitAt_eq, List.take_left, List.drop_left]

/-- A field is read back, whatever follows it. -/
theorem readField_encode (depth : Nat) {f : Field} (hf : f.Proper)
    (hlength : f.encode.length < 18446744073709551616) (rest : Bytes) :
    readField depth (f.encode ++ rest) = some (f, rest) := by
  obtain ⟨number, payload⟩ := f
  obtain ⟨hnumber, hlarge, hpayload⟩ := hf
  cases payload with
  | varint n =>
      have hkey := readKey_encodeVarint hnumber hlarge 0 (by omega)
        (encodeVarint n ++ rest)
      have hn : n < 18446744073709551616 := hpayload
      simp only [Nat.add_zero] at hkey
      simp only [Field.encode, List.append_assoc]
      rw [readField, hkey]
      simp only [Option.bind_eq_bind, Option.bind_some, readVarint_encodeVarint hn,
        Option.map_some]
  | bytes b =>
      have hkey := readKey_encodeVarint hnumber hlarge 2 (by omega)
        (encodeVarint b.length ++ (b ++ rest))
      -- The length of what a field carries is no more than that of the field.
      have hsize : b.length < 18446744073709551616 := by
        simp only [Field.encode, List.length_append] at hlength
        omega
      simp only [Field.encode, List.append_assoc]
      rw [readField, hkey]
      simp only [Option.bind_eq_bind, Option.bind_some, readVarint_encodeVarint hsize,
        splitBytes_append, Option.map_some]
  | fixed => exact hpayload.elim
  | group => exact hpayload.elim

theorem Field.Proper.encode_ne_nil {f : Field} (hf : f.Proper) : f.encode ≠ [] := by
  obtain ⟨number, payload⟩ := f
  obtain ⟨-, -, hpayload⟩ := hf
  cases payload with
  | varint n => simp [Field.encode, encodeVarint_ne_nil]
  | bytes b => simp [Field.encode, encodeVarint_ne_nil]
  | fixed => exact hpayload.elim
  | group => exact hpayload.elim

/-! ## Messages -/

@[simp] theorem encodeFields_cons (f : Field) (fs : List Field) :
    encodeFields (f :: fs) = f.encode ++ encodeFields fs := rfl

/-- There are at least as many bytes as fields. -/
theorem length_le_encodeFields {fs : List Field} (hfs : ∀ f ∈ fs, f.Proper) :
    fs.length ≤ (encodeFields fs).length := by
  induction fs with
  | nil => exact Nat.zero_le _
  | cons f fs ih =>
      have hpos := List.length_pos_iff.mpr (hfs f List.mem_cons_self).encode_ne_nil
      have hrest := ih fun g hg => hfs g (List.mem_cons_of_mem _ hg)
      rw [encodeFields_cons, List.length_append, List.length_cons]
      omega

/-- The fields left are read behind the ones read so far. -/
theorem fieldsFrom_encodeFields (depth : Nat) {fuel : Nat} {fs : List Field}
    (hfs : ∀ f ∈ fs, f.Proper) (hlength : (encodeFields fs).length < 18446744073709551616)
    (hfuel : fs.length ≤ fuel) (acc : List Field) :
    fieldsFrom depth fuel acc (encodeFields fs) = some (acc.reverse ++ fs) := by
  induction fs generalizing fuel acc with
  | nil =>
      have hnil : encodeFields [] = [] := rfl
      rw [hnil, fieldsFrom, List.append_nil]
  | cons f fs ih =>
      obtain ⟨fuel, rfl⟩ : ∃ n, fuel = n + 1 := ⟨fuel - 1, by simp at hfuel; omega⟩
      have hf := hfs f List.mem_cons_self
      rw [encodeFields_cons, List.length_append] at hlength
      have hread := readField_encode depth hf (by omega) (encodeFields fs)
      have hrest := ih (fun g hg => hfs g (List.mem_cons_of_mem _ hg)) (by omega)
        (by simpa using hfuel) (f :: acc)
      -- A field takes a byte at least, so there is something to read.
      obtain ⟨b, bytes, hbytes⟩ := List.exists_cons_of_ne_nil hf.encode_ne_nil
      rw [encodeFields_cons]
      rw [hbytes, List.cons_append] at hread ⊢
      rw [fieldsFrom, hread]
      · simp only [Option.bind_eq_bind, Option.bind_some]
        rw [hrest, List.reverse_cons, List.append_assoc, List.singleton_append]
      · simp

/-- The fields of a message are read back. -/
theorem fields?_encodeFields (level : Nat) {fs : List Field} (hfs : ∀ f ∈ fs, f.Proper)
    (hlength : (encodeFields fs).length < 18446744073709551616) :
    fields? level (encodeFields fs) = some fs :=
  fieldsFrom_encodeFields _ hfs hlength (length_le_encodeFields hfs) []

@[simp] theorem encodeFields_append (fs gs : List Field) :
    encodeFields (fs ++ gs) = encodeFields fs ++ encodeFields gs := List.flatMap_append

/-- A number, if it is written, takes twenty bytes at most with its key. -/
theorem length_encodeFields_varintField {number n : Nat} (hnumber : number < 536870912)
    (hn : n < 18446744073709551616) : (encodeFields (varintField number n)).length ≤ 20 := by
  have hkey := length_encodeVarint_le (show number * 8 < 18446744073709551616 by omega)
  have hvalue := length_encodeVarint_le hn
  unfold varintField
  split
  · exact Nat.zero_le _
  · rw [encodeFields_cons, List.length_append]
    have hnil : (encodeFields []).length = 0 := rfl
    rw [hnil]
    simp only [Field.encode, List.length_append]
    omega

/-- What a field carries is shorter than the message. -/
theorem length_le_of_mem_encodeFields {fs : List Field} {number : Nat} {b : Bytes}
    (h : ⟨number, .bytes b⟩ ∈ fs) : b.length ≤ (encodeFields fs).length := by
  induction fs with
  | nil => simp at h
  | cons f fs ih =>
      rw [encodeFields_cons, List.length_append]
      rcases List.mem_cons.mp h with heq | hmem
      · rw [← heq]
        simp only [Field.encode, List.length_append]
        omega
      · have := ih hmem
        omega

end Almanac.Protobuf
