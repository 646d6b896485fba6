/-
  Almanac.Proofs.Text.Decimal

  Digits that were written are read back: the value of padded digits is the number they
  were made of, and a run of digits is split from what follows it.
-/
import Almanac.Text.Decimal
import Mathlib.Algebra.Group.Nat.Defs

namespace Almanac

/-! ## Digits -/

theorem digitsValue_eq_ofDigitChars (cs : List Char) : digitsValue cs = Nat.ofDigitChars 10 cs 0 := rfl

@[simp] theorem digitsValue_padZeros (width n : Nat) : digitsValue (padZeros width n) = n := by
  rw [digitsValue_eq_ofDigitChars]
  simp only [padZeros]
  rw [Nat.ofDigitChars_append, Nat.ofDigitChars_replicate_zero, Nat.mul_zero,
    Nat.ofDigitChars_ten_toDigits]

theorem natText_inj {m n : Nat} (h : natText m = natText n) : m = n := by
  -- The digits are the same, and they have one value.
  have hdigits : Nat.toDigits 10 m = Nat.toDigits 10 n := by
    have hlist := congrArg String.toList h
    simpa [natText] using hlist
  have hvalue := congrArg (fun cs => Nat.ofDigitChars 10 cs 0) hdigits
  simpa only [Nat.ofDigitChars_ten_toDigits] using hvalue

theorem isDigit_of_mem_padZeros {width n : Nat} {c : Char} (h : c ∈ padZeros width n) :
    c.isDigit = true := by
  -- A character is one of the zeros in front, or a digit of the number.
  rcases List.mem_append.mp h with hzero | hdigit
  · rw [(List.mem_replicate.mp hzero).2]
    decide
  · exact Nat.isDigit_of_mem_toDigits (by omega) (by omega) hdigit

theorem padZeros_ne_nil (width n : Nat) : padZeros width n ≠ [] := by
  intro h
  have hlength := congrArg List.length h
  have hpos := Nat.length_toDigits_pos (b := 10) (n := n)
  simp only [padZeros, List.length_append, List.length_nil] at hlength
  omega

/-- A number with few enough digits is padded to the width. -/
theorem length_padZeros {width n : Nat} (hwidth : 0 < width) (h : n < 10 ^ width) :
    (padZeros width n).length = width := by
  -- The number itself takes no more places than there are.
  have hdigits := (Nat.length_toDigits_le_iff (b := 10) (by omega) hwidth).mpr h
  simp only [padZeros, List.length_append, List.length_replicate]
  omega

/-- Only zero begins with a zero. -/
theorem eq_zero_of_toDigits_cons {n : Nat} {rest : List Char}
    (h : Nat.toDigits 10 n = '0' :: rest) : n = 0 := by
  induction n using Nat.strongRecOn generalizing rest with
  | _ n ih =>
      rw [Nat.toDigits_eq_if (by decide)] at h
      split at h
      · obtain ⟨hdigit, -⟩ := List.cons.inj h
        exact Nat.digitChar_eq_zero.mp hdigit
      · next hlarge =>
        -- The digits of the tenth come first, and a number of two digits has a tenth.
        exfalso
        cases hfront : Nat.toDigits 10 (n / 10) with
        | nil =>
            have hpos := Nat.length_toDigits_pos (b := 10) (n := n / 10)
            rw [hfront] at hpos
            exact Nat.lt_irrefl 0 hpos
        | cons c front =>
            rw [hfront, List.cons_append] at h
            obtain ⟨rfl, -⟩ := List.cons.inj h
            have hzero := ih (n / 10) (by omega) hfront
            omega

/-! ## Splitting -/

/-- A text that does not go on with a digit. -/
def StartsNoDigit (cs : List Char) : Prop := ∀ c rest, cs = c :: rest → c.isDigit = false

theorem StartsNoDigit.cons {c : Char} (h : c.isDigit = false) (cs : List Char) :
    StartsNoDigit (c :: cs) := by
  intro c' rest heq
  obtain ⟨rfl, -⟩ := List.cons.inj heq
  exact h

/-- A run of digits is split off, up to the limit or up to what is no digit. -/
theorem splitDigits_append {limit : Nat} {digits rest : List Char}
    (hdigits : ∀ c ∈ digits, c.isDigit = true) (hlimit : digits.length ≤ limit)
    (hrest : digits.length = limit ∨ StartsNoDigit rest) :
    splitDigits limit (digits ++ rest) = (digits, rest) := by
  induction digits generalizing limit with
  | nil =>
      cases limit with
      | zero => rfl
      | succ limit =>
          cases rest with
          | nil => rfl
          | cons c rest =>
              -- The limit is not reached, so what follows begins with no digit.
              have hno : StartsNoDigit (c :: rest) := hrest.resolve_left (by simp)
              have hc := hno c rest rfl
              rw [List.nil_append, splitDigits, if_neg (by simp [hc])]
  | cons c digits ih =>
      cases limit with
      | zero => simp at hlimit
      | succ limit =>
          have hc := hdigits c List.mem_cons_self
          -- The digit in front counts against the limit.
          have hsplit : splitDigits limit (digits ++ rest) = (digits, rest) := by
            refine ih (fun d hd => hdigits d (List.mem_cons_of_mem _ hd)) ?_ ?_
            · simpa using hlimit
            · simpa using hrest
          rw [List.cons_append, splitDigits, if_pos hc, hsplit]

theorem readNumber_append {limit : Nat} {digits rest : List Char} (hne : digits ≠ [])
    (hdigits : ∀ c ∈ digits, c.isDigit = true) (hlimit : digits.length ≤ limit)
    (hrest : digits.length = limit ∨ StartsNoDigit rest) :
    readNumber limit (digits ++ rest) = some (digitsValue digits, rest) := by
  rw [readNumber, splitDigits_append hdigits hlimit hrest]
  cases digits with
  | nil => exact (hne rfl).elim
  | cons c digits => rfl

/-- A padded number is read back, however it goes on, if it fills the limit. -/
theorem readNumber_padZeros {width n : Nat} (hwidth : 0 < width) (h : n < 10 ^ width)
    (rest : List Char) : readNumber width (padZeros width n ++ rest) = some (n, rest) := by
  have hlength := length_padZeros hwidth h
  rw [readNumber_append (padZeros_ne_nil width n) (fun c hc => isDigit_of_mem_padZeros hc)
    (Nat.le_of_eq hlength) (Or.inl hlength), digitsValue_padZeros]

end Almanac
