/-
  Almanac.Proofs.Json.Number

  Natural numbers that were written are read back (`readsBack_natural`), as far as they are
  counted exactly by a double: their digits stop at what follows them, do not begin with a
  zero that others follow, and have their value.
-/
import Almanac.Proofs.Json.Record
import Almanac.Proofs.Text.Decimal
import Mathlib.Data.List.TakeDrop

namespace Almanac.Json

/-! ## Digits -/

/-- The digits of a number as bytes. -/
def digitBytes (n : Nat) : Bytes := asciiBytes (Nat.toDigits 10 n)

/-- A digit as a byte has the number of its character. -/
theorem toNat_of_isDigit {c : Char} (h : c.isDigit = true) :
    (UInt8.ofNat c.toNat).toNat = c.toNat ∧ 48 ≤ c.toNat ∧ c.toNat ≤ 57 := by
  obtain ⟨hlow, hhigh⟩ := Char.isDigit_iff_toNat.mp h
  have hlow : 48 ≤ c.toNat := hlow
  have hhigh : c.toNat ≤ 57 := hhigh
  refine ⟨?_, hlow, hhigh⟩
  rw [UInt8.toNat_ofNat']
  omega

theorem isDigit_of_isDigit {c : Char} (h : c.isDigit = true) :
    isDigit (UInt8.ofNat c.toNat) = true := by
  obtain ⟨hbyte, hlow, hhigh⟩ := toNat_of_isDigit h
  simp only [isDigit, Bool.and_eq_true, decide_eq_true_eq, UInt8.le_iff_toNat_le, hbyte]
  exact ⟨hlow, hhigh⟩

theorem isDigit_of_mem_digitBytes {n : Nat} {b : UInt8} (h : b ∈ digitBytes n) :
    isDigit b = true := by
  obtain ⟨c, hc, rfl⟩ := List.mem_map.mp h
  exact isDigit_of_isDigit (Nat.isDigit_of_mem_toDigits (by decide) (by decide) hc)

theorem digitBytes_ne_nil (n : Nat) : digitBytes n ≠ [] := by
  intro h
  have hnil : Nat.toDigits 10 n = [] := List.map_eq_nil_iff.mp h
  have hpos := Nat.length_toDigits_pos (b := 10) (n := n)
  rw [hnil] at hpos
  exact Nat.lt_irrefl 0 hpos

theorem digitBytes_of_leading_zero {n : Nat} {rest : Bytes} (h : digitBytes n = 48 :: rest) :
    rest = [] := by
  have hdigits := h
  unfold digitBytes asciiBytes at hdigits
  obtain ⟨c, cs, hchars, hc, -⟩ := List.map_eq_cons_iff.mp hdigits
  have hdigit : c.isDigit = true :=
    Nat.isDigit_of_mem_toDigits (by decide) (by decide) (hchars ▸ List.mem_cons_self)
  -- The character of a leading 48 is a zero.
  have hzero : c = '0' := by
    obtain ⟨hbyte, -, -⟩ := toNat_of_isDigit hdigit
    have hvalue : c.toNat = 48 := by rw [← hbyte, hc]; rfl
    exact Char.toNat_inj.mp hvalue
  obtain rfl := eq_zero_of_toDigits_cons (hzero ▸ hchars)
  have hsingle : digitBytes 0 = [48] := by decide
  rw [hsingle] at h
  exact (List.cons.inj h).2.symm

/-! ## Their value -/

theorem le_ofDigitChars (cs : List Char) (m : Nat) : m ≤ Nat.ofDigitChars 10 cs m := by
  induction cs generalizing m with
  | nil => exact Nat.le_refl m
  | cons c cs ih =>
      rw [Nat.ofDigitChars_cons]
      have hmore := ih (10 * m + (c.toNat - '0'.toNat))
      omega

/-- Digits of a number below 2^64 all count. -/
theorem leadingDigits_asciiBytes {cs : List Char} (hcs : ∀ c ∈ cs, c.isDigit = true) (m : Nat)
    (h : Nat.ofDigitChars 10 cs m < 18446744073709551616) :
    leadingDigits m (asciiBytes cs) = (Nat.ofDigitChars 10 cs m, 0) := by
  induction cs generalizing m with
  | nil => rfl
  | cons c cs ih =>
      obtain ⟨hbyte, -, -⟩ := toNat_of_isDigit (hcs c List.mem_cons_self)
      have hzero : '0'.toNat = 48 := rfl
      rw [Nat.ofDigitChars_cons, hzero] at h ⊢
      have hle := le_ofDigitChars cs (10 * m + (c.toNat - 48))
      have hcons : asciiBytes (c :: cs) = UInt8.ofNat c.toNat :: asciiBytes cs := rfl
      rw [hcons, leadingDigits, hbyte]
      rw [if_pos (by omega)]
      exact ih (fun c' hc' => hcs c' (List.mem_cons_of_mem _ hc')) _ h

theorem leadingDigits_digitBytes {n : Nat} (h : n < 18446744073709551616) :
    leadingDigits 0 (digitBytes n) = (n, 0) := by
  have hvalue : Nat.ofDigitChars 10 (Nat.toDigits 10 n) 0 = n := Nat.ofDigitChars_ten_toDigits
  have hall : ∀ c ∈ Nat.toDigits 10 n, c.isDigit = true :=
    fun c hc => Nat.isDigit_of_mem_toDigits (by decide) (by decide) hc
  have hdigits := leadingDigits_asciiBytes hall 0 (by omega)
  rwa [hvalue] at hdigits

/-- What a double counts exactly does not overflow it. -/
theorem not_overflowsDouble {n : Nat} (h : n < 9007199254740992) :
    overflowsDouble n 0 = false := by
  have hround : roundToDouble n = n := by rw [roundToDouble, if_pos h]
  have hone : roundToDouble (powerOfTen (0 : Int).toNat) = 1 := by decide
  have hbound : 9007199254740992 < doubleBound := by decide +kernel
  unfold overflowsDouble
  rw [hround, hone, Nat.mul_one]
  split
  · rfl
  · rw [if_neg (by decide)]
    simp only [decide_eq_false_iff_not]
    omega

/-! ## Numbers -/

/-- A number ends at a comma or a brace. -/
theorem readNumber_digitBytes {n : Nat} (h : n < 9007199254740992) {rest : Bytes}
    (hrest : ∃ tail, rest = 44 :: tail ∨ rest = 125 :: tail) :
    readNumber (digitBytes n ++ rest) = .ok (.natural n, rest) := by
  have hspan : (digitBytes n ++ rest).span isDigit = (digitBytes n, rest) := by
    rw [List.span_eq_takeWhile_dropWhile,
      List.takeWhile_append_of_pos fun b hb => isDigit_of_mem_digitBytes hb,
      List.dropWhile_append_of_pos fun b hb => isDigit_of_mem_digitBytes hb]
    obtain ⟨tail, rfl | rfl⟩ := hrest
    · simp [isDigit]
    · simp [isDigit]
  have hvalue := leadingDigits_digitBytes (n := n) (by omega)
  have hfits := not_overflowsDouble h
  have hzero : ∀ tail, digitBytes n = 48 :: tail → tail = [] :=
    fun _ => digitBytes_of_leading_zero
  obtain ⟨b, digits, hdigits⟩ := List.exists_cons_of_ne_nil (digitBytes_ne_nil n)
  have hb : isDigit b = true := isDigit_of_mem_digitBytes (hdigits ▸ List.mem_cons_self)
  rw [hdigits] at hspan hvalue hzero ⊢
  -- A digit is no minus sign.
  have hminus : ∀ tail, b :: digits ++ rest ≠ 45 :: tail := by
    intro tail heq
    obtain ⟨rfl, -⟩ := List.cons.inj heq
    simp [isDigit] at hb
  unfold readNumber
  split
  next minus s heq =>
    have hsign : minus = false ∧ s = b :: digits ++ rest := by
      split at heq
      · next hfirst => exact (hminus _ hfirst).elim
      · cases heq
        exact ⟨rfl, rfl⟩
    obtain ⟨rfl, rfl⟩ := hsign
    simp only [hspan]
    split
    · next heq => simp at heq
    · next heq => exact (List.cons_ne_nil _ _ (hzero _ heq)).elim
    · obtain ⟨tail, rfl | rfl⟩ := hrest
      · simp [hvalue, hfits, bind, Except.bind, pure, Except.pure]
      · simp [hvalue, hfits, bind, Except.bind, pure, Except.pure]

/-- A number within the limit of its kind is read back. -/
theorem readsBack_natural {limit n : Nat} (hn : n ≤ limit) (hlimit : limit < 9007199254740992) :
    ReadsBack (.natural limit) (.natural n) := by
  intro rest hrest
  have hnumber := readNumber_digitBytes (n := n) (by omega) hrest
  obtain ⟨b, digits, hdigits⟩ := List.exists_cons_of_ne_nil (digitBytes_ne_nil n)
  have hb : isDigit b = true := isDigit_of_mem_digitBytes (hdigits ▸ List.mem_cons_self)
  have hspace : isSpace b = false := by
    simp only [isDigit, Bool.and_eq_true, decide_eq_true_eq, UInt8.le_iff_toNat_le] at hb
    simp only [isSpace, Bool.or_eq_false_iff, beq_eq_false_iff_ne, ne_eq, ← UInt8.toNat_inj]
    have hlow : 48 ≤ b.toNat := hb.1
    refine ⟨⟨⟨?_, ?_⟩, ?_⟩, ?_⟩ <;> · simp only [UInt8.reduceToNat]; omega
  rw [hdigits] at hnumber
  have hread : readNatural limit (b :: digits ++ rest) = .ok (n, rest) := by
    unfold readNatural
    rw [List.cons_append, skipSpace_cons hspace]
    rw [List.cons_append] at hnumber
    simp only [hb, hnumber, hn, Bool.or_true, if_true, bind, Except.bind]
  have hbytes : (Scalar.natural n).encode = b :: digits := hdigits
  rw [hbytes, Kind.read, hread]
  rfl

end Almanac.Json
