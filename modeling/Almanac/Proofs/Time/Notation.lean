/-
  Almanac.Proofs.Time.Notation

  Instants that were written are read back: `parse?` undoes `text`, for leap seconds and
  for years of any sign and size too. Each reader is shown to take from the front of a text
  what its writer put there, whatever follows.
-/
import Almanac.Proofs.Text.Decimal
import Almanac.Proofs.Time.Civil
import Almanac.Time.Notation

namespace Almanac

/-! ## Numbers and separators -/

theorem skipBlank_cons {c : Char} (h : isBlank c = false) (cs : List Char) :
    skipBlank (c :: cs) = c :: cs := by
  rw [skipBlank, List.dropWhile_cons_of_neg (by simp [h])]

theorem isBlank_of_isDigit {c : Char} (h : c.isDigit = true) : isBlank c = false := by
  rw [Char.isDigit_iff_toNat] at h
  have hlow : 48 ≤ c.toNat := h.1
  have hhigh : c.toNat ≤ 57 := h.2
  -- No blank has the number of a digit.
  unfold isBlank
  simp only [Bool.or_eq_false_iff, Bool.and_eq_false_iff, decide_eq_false_iff_not, beq_eq_false_iff_ne]
  omega

/-- The digits of a padded number, the first one apart. -/
theorem padZeros_eq_cons (width n : Nat) :
    ∃ c cs, padZeros width n = c :: cs ∧ c.isDigit = true := by
  cases h : padZeros width n with
  | nil => exact (padZeros_ne_nil width n h).elim
  | cons c cs =>
      have hmem : c ∈ padZeros width n := by rw [h]; exact List.mem_cons_self
      exact ⟨c, cs, rfl, isDigit_of_mem_padZeros hmem⟩

theorem skipBlank_padZeros (width n : Nat) (rest : List Char) :
    skipBlank (padZeros width n ++ rest) = padZeros width n ++ rest := by
  obtain ⟨c, cs, heq, hdigit⟩ := padZeros_eq_cons width n
  rw [heq, List.cons_append, skipBlank_cons (isBlank_of_isDigit hdigit)]

theorem readField_padZeros {n : Nat} (h : n < 100) (rest : List Char) :
    readField 2 (padZeros 2 n ++ rest) = some (n, rest) := by
  rw [readField, skipBlank_padZeros, readNumber_padZeros (by omega) h]

theorem readSeparator_cons {sep : Char} (h : isBlank sep = false) (rest : List Char) :
    readSeparator sep (sep :: rest) = some rest := by
  rw [readSeparator, skipBlank_cons h]
  simp

/-! ## Dates -/

/-- A year is read back when no digit follows. -/
theorem readYear_yearText (year : Int) {rest : List Char} (hrest : StartsNoDigit rest) :
    readYear (yearText year ++ rest) = some (year, rest) := by
  -- Behind a sign the digits may be as many as there are characters.
  have hsigned : ∀ n : Nat,
      readNumber (padZeros 4 n ++ rest).length (padZeros 4 n ++ rest) = some (n, rest) := by
    intro n
    rw [readNumber_append (padZeros_ne_nil 4 n) (fun c hc => isDigit_of_mem_padZeros hc) (by simp)
      (Or.inr hrest), digitsValue_padZeros]
  unfold yearText
  split
  · next hneg =>
    rw [List.cons_append, readYear, skipBlank_cons (by decide)]
    simp only [hsigned, Option.map_some]
    have hyear : -(year.natAbs : Int) = year := by omega
    rw [hyear]
  · next hpos =>
    split
    · next hlarge =>
      rw [List.cons_append, readYear, skipBlank_cons (by decide)]
      simp only [hsigned, Option.map_some]
      have hyear : (year.natAbs : Int) = year := by omega
      rw [hyear]
    · next hsmall =>
      have hyear : (year.natAbs : Int) = year := by omega
      -- Without a sign there are four digits.
      have hread : readNumber 4 (padZeros 4 year.natAbs ++ rest) = some (year.natAbs, rest) :=
        readNumber_padZeros (by omega) (by omega) rest
      obtain ⟨c, cs, heq, hdigit⟩ := padZeros_eq_cons 4 year.natAbs
      rw [readYear, skipBlank_padZeros]
      rw [heq, List.cons_append] at hread ⊢
      -- A digit is no sign.
      split
      · next hminus =>
        obtain ⟨rfl, -⟩ := List.cons.inj hminus
        exact absurd hdigit (by decide)
      · next hplus =>
        obtain ⟨rfl, -⟩ := List.cons.inj hplus
        exact absurd hdigit (by decide)
      · rw [hread, Option.map_some]
        dsimp only
        rw [hyear]

/-- A date that exists is read back. -/
theorem readDate_chars {d : Date} (hd : d.Valid) (rest : List Char) :
    readDate (d.chars ++ rest) = some (d, rest) := by
  obtain ⟨hmonth, hmonth', hday, hday'⟩ := hd
  have hlength := monthLength_le d.year d.month
  -- The dash behind the year ends its digits.
  have hdash : StartsNoDigit ('-' :: (padZeros 2 d.month ++ '-' :: (padZeros 2 d.day ++ rest))) :=
    .cons (by decide) _
  simp only [Date.chars, List.append_assoc, List.cons_append]
  rw [readDate, readYear_yearText d.year hdash]
  simp only [Option.bind_eq_bind, Option.bind_some]
  rw [readSeparator_cons (by decide)]
  simp only [Option.bind_some]
  rw [readField_padZeros (by omega)]
  simp only [Option.bind_some]
  rw [readSeparator_cons (by decide)]
  simp only [Option.bind_some]
  rw [readField_padZeros (by omega)]
  rfl

/-! ## Times of day -/

/-- Digits of a fraction are read back, when a letter follows. -/
theorem readFraction_digits {width n : Nat} (hwidth : 0 < width) (hle : width ≤ 9)
    (h : n < 10 ^ width) :
    readFraction ('.' :: (padZeros width n ++ ['Z'])) =
      some (n * powerOfTen (9 - width), ['Z']) := by
  have hlength := length_padZeros hwidth h
  -- The letter behind them ends the digits, unless the limit does.
  have hsplit : splitDigits 9 (padZeros width n ++ ['Z']) = (padZeros width n, ['Z']) :=
    splitDigits_append (fun c hc => isDigit_of_mem_padZeros hc) (by omega)
      (Or.inr (.cons (by decide) _))
  have hrest : List.dropWhile Char.isDigit ['Z'] = ['Z'] := by decide
  obtain ⟨c, cs, heq, -⟩ := padZeros_eq_cons width n
  have hvalue := digitsValue_padZeros width n
  rw [readFraction, hsplit]
  rw [heq] at hvalue hlength ⊢
  simp only [hvalue, hlength, hrest]

theorem readFraction_fractionText {nanos : Nat} (h : nanos < 1000000000) :
    readFraction (fractionText nanos ++ ['Z']) = some (nanos, ['Z']) := by
  unfold fractionText
  split
  · next hzero =>
    have hnanos : nanos = 0 := by simpa using hzero
    rw [hnanos]
    rfl
  · split
    · next hmillis =>
      -- Whole milliseconds are written with three digits.
      have hmod : nanos % 1000000 = 0 := by simpa using hmillis
      rw [List.cons_append, readFraction_digits (by omega) (by omega) (by omega)]
      have hvalue : nanos / 1000000 * powerOfTen (9 - 3) = nanos := by
        show nanos / 1000000 * 1000000 = nanos
        omega
      rw [hvalue]
    · split
      · next hmicros =>
        -- Whole microseconds are written with six.
        have hmod : nanos % 1000 = 0 := by simpa using hmicros
        rw [List.cons_append, readFraction_digits (by omega) (by omega) (by omega)]
        have hvalue : nanos / 1000 * powerOfTen (9 - 6) = nanos := by
          show nanos / 1000 * 1000 = nanos
          omega
        rw [hvalue]
      · rw [List.cons_append, readFraction_digits (by omega) (by omega) (by omega)]
        have hvalue : nanos * powerOfTen (9 - 9) = nanos := by
          show nanos * 1 = nanos
          omega
        rw [hvalue]

/-- The characters of the time of day of an instant. -/
def timeChars (t : Instant) : List Char :=
  padZeros 2 (t.second / 3600) ++ ':' :: padZeros 2 (t.second / 60 % 60) ++
    ':' :: padZeros 2 (t.second % 60 + if 1000000000 ≤ t.frac then 1 else 0) ++
    fractionText (if 1000000000 ≤ t.frac then t.frac - 1000000000 else t.frac) ++ ['Z']

/-- The time of day is read back; second 60 becomes the leap second that it was. -/
theorem readTime_timeChars (t : Instant) :
    readTime (timeChars t) = some (t.second, t.frac, ['Z']) := by
  have hsecond := t.second_lt
  have hfrac := t.frac_lt
  have hleap := t.leap_ends_minute
  have hfraction : readFraction
      (fractionText (if 1000000000 ≤ t.frac then t.frac - 1000000000 else t.frac) ++ ['Z']) =
        some (if 1000000000 ≤ t.frac then t.frac - 1000000000 else t.frac, ['Z']) :=
    readFraction_fractionText (by split <;> omega)
  simp only [timeChars, List.append_assoc, List.cons_append]
  rw [readTime, readField_padZeros (by omega)]
  simp only [Option.bind_eq_bind, Option.bind_some]
  rw [readSeparator_cons (by decide)]
  simp only [Option.bind_some]
  rw [readField_padZeros (by omega)]
  simp only [Option.bind_some]
  rw [readSeparator_cons (by decide)]
  simp only [Option.bind_some]
  rw [readField_padZeros (by split <;> omega)]
  simp only [Option.bind_some, hfraction]
  rw [if_pos (by split <;> omega)]
  -- A leap second is written as second 60 of a minute that ends with second 59.
  by_cases hlong : 1000000000 ≤ t.frac
  · have hminute := hleap hlong
    simp only [hlong, if_true, hminute]
    have hparts : t.second / 3600 * 3600 + t.second / 60 % 60 * 60 + 59 = t.second := by omega
    have hnanos : 1000000000 + (t.frac - 1000000000) = t.frac := by omega
    rw [hparts, hnanos]
  · have hparts :
        t.second / 3600 * 3600 + t.second / 60 % 60 * 60 + t.second % 60 = t.second := by omega
    simp only [hlong, if_false, Nat.add_zero]
    rw [if_neg (by omega), hparts]

/-! ## Dates and instants -/

/-- The date of an instant that was written is read back. -/
theorem Instant.parse?_dateText (t : Instant) : Date.parse? t.date.text = some t.date := by
  have hvalid : t.date.Valid := valid_ofDay t.day
  have hday : t.date.toDay = t.day := toDay_ofDay t.day
  have hrange : inRange t.day = true := decide_eq_true ⟨t.day_ge, t.day_le⟩
  have hread := readDate_chars hvalid []
  rw [List.append_nil] at hread
  rw [Date.text, Date.parse?, String.toList_ofList, hread]
  simp only [Option.bind_eq_bind, Option.bind_some, hday, hrange]
  exact if_pos ⟨hvalid, trivial, by decide⟩

theorem Instant.of?_parts (t : Instant) : Instant.of? t.day t.second t.frac = some t := by
  rw [Instant.of?, dif_pos ⟨t.second_lt, t.frac_lt, t.leap_ends_minute, t.day_ge, t.day_le⟩]

/-- An instant that was written is read back. -/
theorem Instant.parse?_text (t : Instant) : Instant.parse? t.text = some t := by
  have hsecond := t.second_lt
  have hvalid : t.date.Valid := valid_ofDay t.day
  have hday : t.date.toDay = t.day := toDay_ofDay t.day
  have hchars : t.chars = t.date.chars ++ 'T' :: timeChars t := by
    simp only [Instant.chars, timeChars, List.append_assoc, List.cons_append]
  have hoffset : readOffset ['Z'] = some (0, []) := by decide
  have hrange : inRange t.day = true := decide_eq_true ⟨t.day_ge, t.day_le⟩
  rw [Instant.text, Instant.parse?, String.toList_ofList, hchars, readDate_chars hvalid]
  simp only [Option.bind_eq_bind, Option.bind_some, beq_self_eq_true, Bool.true_or, if_true,
    readTime_timeChars, hoffset, hday, hrange]
  rw [if_pos ⟨hvalid, trivial, by decide, by decide⟩]
  -- The offset is zero, so nothing moves to another day.
  have hmoved : (t.second : Int) - 0 = t.second := by omega
  have hdays : (t.second : Int) / 86400 = 0 := by omega
  have hrest : ((t.second : Int) % 86400).toNat = t.second := by omega
  rw [hmoved, hdays, hrest, Int.add_zero, Instant.of?_parts]

end Almanac
