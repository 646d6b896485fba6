/-
  Almanac.Proofs.Toml.Scalars

  Scalars that were printed are read back at the end of a line (`readScalar_scalarText?`). A number
  could be the beginning of a moment or of a fraction, which are tried first; its digits are
  followed by a line end and not by one of their marks, so both fail.
-/
import Almanac.Proofs.Text.Decimal
import Almanac.Proofs.Toml.Strings

namespace Almanac.Toml

/-! ## Digits -/

/-- The digits of a number in front of a line end. -/
def digitsLine (n : Nat) (rest : List Char) : List Char := Nat.toDigits 10 n ++ '\n' :: rest

theorem isDigit_of_mem_toDigits {n : Nat} {c : Char} (h : c ∈ Nat.toDigits 10 n) :
    c.isDigit = true :=
  Nat.isDigit_of_mem_toDigits (by decide) (by decide) h

theorem toDigits_ne_nil (n : Nat) : Nat.toDigits 10 n ≠ [] := by
  intro h
  have hpos := Nat.length_toDigits_pos (b := 10) (n := n)
  rw [h] at hpos
  exact Nat.lt_irrefl 0 hpos

theorem toDigits_cons (n : Nat) : ∃ c tail, Nat.toDigits 10 n = c :: tail ∧ c.isDigit = true := by
  obtain ⟨c, tail, h⟩ := List.exists_cons_of_ne_nil (toDigits_ne_nil n)
  exact ⟨c, tail, h, isDigit_of_mem_toDigits (h ▸ List.mem_cons_self)⟩

/-- A digit is none of the other characters that a value can begin with. -/
theorem ne_of_isDigit {c d : Char} (hc : c.isDigit = true) (hd : d.isDigit = false) : c ≠ d := by
  rintro rfl
  simp [hc] at hd

/-- What is left of digits and a line end goes on with one of them. -/
theorem readMark_drop_digitsLine {mark : Char} (hmark : mark.isDigit = false) (hline : mark ≠ '\n')
    (n k : Nat) (rest : List Char) (hk : k ≤ (Nat.toDigits 10 n).length) :
    Net.readMark mark ((digitsLine n rest).drop k) = none := by
  rw [digitsLine, List.drop_append_of_le_length hk]
  cases hleft : (Nat.toDigits 10 n).drop k with
  | nil => simp [Net.readMark, Ne.symm hline]
  | cons c tail =>
      have hc : c ∈ Nat.toDigits 10 n := List.mem_of_mem_drop (hleft ▸ List.mem_cons_self)
      have hne := ne_of_isDigit (isDigit_of_mem_toDigits hc) hmark
      simp [Net.readMark, hne]

/-! ## No moments -/

/-- Behind a number of a moment there is no mark. -/
def Unmarked (cs : List Char) : Prop :=
  ∀ digits low high n rest, 0 < digits → readBounded digits low high cs = some (n, rest) →
    Net.readMark '-' rest = none ∧ Net.readMark ':' rest = none

theorem readMoment_of_unmarked {cs : List Char} (h : Unmarked cs) : readMoment cs = none := by
  have hdate : readDate cs = none := by
    unfold readDate
    cases hyear : readBounded 4 0 9999 cs with
    | none => rfl
    | some found =>
        obtain ⟨n, rest⟩ := found
        have hmark := (h 4 0 9999 n rest (by decide) hyear).1
        simp [hmark]
  have htime : readTime cs = none := by
    unfold readTime
    cases hhour : readBounded 2 0 23 cs with
    | none => rfl
    | some found =>
        obtain ⟨n, rest⟩ := found
        have hmark := (h 2 0 23 n rest (by decide) hhour).2
        simp [hmark]
  rw [readMoment, hdate, htime]

theorem unmarked_digitsLine (n : Nat) (rest : List Char) : Unmarked (digitsLine n rest) := by
  intro digits low high m left hpos hread
  unfold readBounded at hread
  dsimp only at hread
  split at hread
  · next hrun =>
    obtain ⟨-, rfl⟩ := Prod.mk.inj (Option.some.inj hread)
    simp only [Bool.and_eq_true, beq_iff_eq] at hrun
    -- All that was read is digits, so it does not reach the line end.
    have hlength : digits ≤ (Nat.toDigits 10 n).length := by
      apply Nat.le_of_not_lt
      intro hlong
      have hline : '\n' ∈ (digitsLine n rest).take digits := by
        rw [digitsLine, List.take_append]
        apply List.mem_append_right
        obtain ⟨k, hk⟩ : ∃ k, digits - (Nat.toDigits 10 n).length = k + 1 :=
          ⟨digits - (Nat.toDigits 10 n).length - 1, by omega⟩
        rw [hk, List.take_succ_cons]
        exact List.mem_cons_self
      have hdigit := List.all_eq_true.mp hrun.1.1.2 '\n' hline
      simp at hdigit
    exact ⟨readMark_drop_digitsLine (by decide) (by decide) n digits rest hlength,
      readMark_drop_digitsLine (by decide) (by decide) n digits rest hlength⟩
  · simp at hread

/-- A sign is no digit. -/
theorem unmarked_minus (cs : List Char) : Unmarked ('-' :: cs) := by
  intro digits low high m left hpos hread
  obtain ⟨k, rfl⟩ : ∃ k, digits = k + 1 := ⟨digits - 1, by omega⟩
  simp [readBounded] at hread

/-! ## Whole numbers -/

theorem readDigits_digitsLine (n : Nat) (rest : List Char) :
    readDigits Char.isDigit (digitsLine n rest) = some (Nat.toDigits 10 n, '\n' :: rest) := by
  have hdigit : ∀ c ∈ Nat.toDigits 10 n, c.isDigit = true ∧ c ≠ '_' := fun c hc =>
    ⟨isDigit_of_mem_toDigits hc, ne_of_isDigit (isDigit_of_mem_toDigits hc) (by decide)⟩
  have hrun : (digitsLine n rest).takeWhile (fun c => c.isDigit || c == '_') =
      Nat.toDigits 10 n := by
    rw [digitsLine, List.takeWhile_append_of_pos]
    · simp
    · intro c hc
      simp [(hdigit c hc).1]
  have hfilter : (Nat.toDigits 10 n).filter (· != '_') = Nat.toDigits 10 n := by
    apply List.filter_eq_self.mpr
    intro c hc
    simpa using (hdigit c hc).2
  have hframe : ((Nat.toDigits 10 n).head? == some '_') = false ∧
      ((Nat.toDigits 10 n).getLast? == some '_') = false := by
    constructor
    · apply beq_false_of_ne
      intro h
      exact (hdigit '_' (List.mem_of_mem_head? h)).2 rfl
    · apply beq_false_of_ne
      intro h
      exact (hdigit '_' (List.mem_of_getLast? h)).2 rfl
  have hsingle : ∀ x ∈ (Nat.toDigits 10 n).zip ((Nat.toDigits 10 n).drop 1),
      (!(x.1 == '_' && x.2 == '_')) = true := by
    intro x hx
    have hfirst := (hdigit x.1 (List.of_mem_zip hx).1).2
    simp [hfirst]
  have hsome : (Nat.toDigits 10 n).isEmpty = false := by simp
  have hleft : (digitsLine n rest).drop (Nat.toDigits 10 n).length = '\n' :: rest := by
    rw [digitsLine, List.drop_left]
  unfold readDigits
  simp only [hrun, hfilter, hframe, hsome, hleft, Bool.false_or]
  apply if_neg
  rw [Bool.not_eq_true, Bool.not_eq_false']
  exact List.all_eq_true.mpr hsingle

/-- Only zero begins with a zero. -/
theorem digitsLine_zero {n : Nat} {rest tail : List Char} (h : digitsLine n rest = '0' :: tail) :
    n = 0 ∧ tail = '\n' :: rest := by
  obtain ⟨c, digits, hdigits, -⟩ := toDigits_cons n
  rw [digitsLine, hdigits, List.cons_append] at h
  obtain ⟨rfl, hrest⟩ := List.cons.inj h
  obtain rfl := eq_zero_of_toDigits_cons hdigits
  obtain ⟨-, rfl⟩ := List.cons.inj (show '0' :: [] = '0' :: digits from hdigits)
  exact ⟨rfl, hrest.symm⟩

theorem readWhole_digitsLine (n : Nat) (rest : List Char) :
    readWhole (digitsLine n rest) = some (Nat.toDigits 10 n, '\n' :: rest) := by
  unfold readWhole
  split
  · next tail heq =>
    obtain ⟨rfl, rfl⟩ := digitsLine_zero heq
    rfl
  · exact readDigits_digitsLine n rest

/-! ## No fractions -/

theorem readSign_digitsLine (n : Nat) (rest : List Char) :
    readSign (digitsLine n rest) = (false, digitsLine n rest) := by
  obtain ⟨c, tail, hdigits, hc⟩ := toDigits_cons n
  have hminus := ne_of_isDigit hc (show '-'.isDigit = false by decide)
  have hplus := ne_of_isDigit hc (show '+'.isDigit = false by decide)
  rw [digitsLine, hdigits]
  simp [readSign, hminus, hplus]

/-- Behind a sign, digits are no fraction. -/
theorem readFraction_of_sign {cs : List Char} {negative : Bool} {n : Nat} {rest : List Char}
    (h : readSign cs = (negative, digitsLine n rest)) : readFraction cs = none := by
  obtain ⟨c, tail, hdigits, hc⟩ := toDigits_cons n
  have hinf := ne_of_isDigit hc (show 'i'.isDigit = false by decide)
  have hnan := ne_of_isDigit hc (show 'n'.isDigit = false by decide)
  have hwhole := readWhole_digitsLine n rest
  unfold readFraction
  rw [h]
  dsimp only
  split
  · next heq =>
    rw [digitsLine, hdigits] at heq
    exact absurd (List.cons.inj heq).1 hinf
  · next heq =>
    rw [digitsLine, hdigits] at heq
    exact absurd (List.cons.inj heq).1 hnan
  · simp [hwhole, readPlaces]

/-! ## Integers -/

/-- Behind a sign, digits are an integer, if it has 64 bits. -/
theorem readInteger_of_sign {cs : List Char} {negative : Bool} {n : Nat} {rest : List Char}
    (h : readSign cs = (negative, digitsLine n rest))
    (hbase : ∀ d tail, cs = '0' :: d :: tail → d = '\n')
    {m : Int} (hm : (if negative then -(n : Int) else n) = m)
    (hlow : -9223372036854775808 ≤ m) (hhigh : m ≤ 9223372036854775807) :
    readInteger cs = some (m, '\n' :: rest) := by
  have hwhole := readWhole_digitsLine n rest
  have hvalue : digitsValue (Nat.toDigits 10 n) = n := by
    rw [digitsValue_eq_ofDigitChars, Nat.ofDigitChars_ten_toDigits]
  have hsigned : signed64? m = some m := by rw [signed64?, if_pos ⟨hlow, hhigh⟩]
  unfold readInteger
  split
  · next tail => exact absurd (hbase 'x' tail rfl) (by decide)
  · next tail => exact absurd (hbase 'o' tail rfl) (by decide)
  · next tail => exact absurd (hbase 'b' tail rfl) (by decide)
  · rw [h]
    simp only [hwhole, Option.bind_eq_bind, Option.bind_some, hvalue, hm, hsigned]

/-- The text of an integer in front of a line end is that integer and nothing else. -/
theorem readNumber_intText {n : Int} (hlow : -9223372036854775808 ≤ n)
    (hhigh : n ≤ 9223372036854775807) (rest : List Char) :
    readMoment ((intText n).toList ++ '\n' :: rest) = none ∧
      readFraction ((intText n).toList ++ '\n' :: rest) = none ∧
      readInteger ((intText n).toList ++ '\n' :: rest) = some (n, '\n' :: rest) := by
  cases n with
  | ofNat k =>
      have htext : (intText (.ofNat k)).toList ++ '\n' :: rest = digitsLine k rest := by
        simp [intText, digitsLine]
      rw [htext]
      have hsign := readSign_digitsLine k rest
      exact ⟨readMoment_of_unmarked (unmarked_digitsLine k rest), readFraction_of_sign hsign,
        readInteger_of_sign hsign (fun _ _ h => (List.cons.inj (digitsLine_zero h).2).1) rfl hlow
          hhigh⟩
  | negSucc k =>
      have htext : (intText (.negSucc k)).toList ++ '\n' :: rest =
          '-' :: digitsLine (k + 1) rest := by
        simp [intText, digitsLine]
      rw [htext]
      have hsign : readSign ('-' :: digitsLine (k + 1) rest) = (true, digitsLine (k + 1) rest) :=
        rfl
      exact ⟨readMoment_of_unmarked (unmarked_minus _), readFraction_of_sign hsign,
        readInteger_of_sign hsign (fun _ _ heq => by simp at heq) rfl hlow hhigh⟩

/-! ## All scalars -/

/-- How the text of a scalar begins: with no space, and not like a list or a table. -/
def StartsScalar (cs : List Char) : Prop :=
  ∃ c tail, cs = c :: tail ∧ isSpace c = false ∧ c ≠ '[' ∧ c ≠ '\x7b'

theorem stringText_cons (s : String) :
    ∃ c tail, stringText s = c :: tail ∧ (c = '"' ∨ c = '\'') := by
  unfold stringText
  rcases styleOf_cases s.toList with h | h | ⟨h, -⟩ | ⟨h, -⟩
  · rw [h]
    exact ⟨'"', _, rfl, Or.inl rfl⟩
  · rw [h]
    exact ⟨'"', _, rfl, Or.inl rfl⟩
  · rw [h]
    exact ⟨'\'', _, rfl, Or.inr rfl⟩
  · rw [h]
    exact ⟨'\'', _, rfl, Or.inr rfl⟩

theorem intText_cons (n : Int) :
    ∃ c tail, (intText n).toList = c :: tail ∧ (c.isDigit = true ∨ c = '-') := by
  cases n with
  | ofNat k =>
      obtain ⟨c, tail, h, hc⟩ := toDigits_cons k
      exact ⟨c, tail, by simpa [intText] using h, Or.inl hc⟩
  | negSucc k => exact ⟨'-', Nat.toDigits 10 (k + 1), by simp [intText], Or.inr rfl⟩

theorem readScalar_text (s : String) (rest : List Char) :
    readScalar (stringText s ++ '\n' :: rest) = some (.text s, '\n' :: rest) := by
  have hread : readString (stringText s ++ '\n' :: rest) = some (s, '\n' :: rest) := by
    apply readString_stringText
    intro quote hquote c tail heq
    rw [← (List.cons.inj heq).1]
    rcases hquote with rfl | rfl <;> decide
  obtain ⟨c, tail, htext, hc⟩ := stringText_cons s
  have hmark : (c == '"' || c == '\'') = true := by
    rcases hc with rfl | rfl <;> decide
  rw [htext, List.cons_append] at hread ⊢
  simp [readScalar, hmark, hread]

theorem readScalar_integer {n : Int} (hlow : -9223372036854775808 ≤ n)
    (hhigh : n ≤ 9223372036854775807) (rest : List Char) :
    readScalar ((intText n).toList ++ '\n' :: rest) = some (.integer n, '\n' :: rest) := by
  obtain ⟨hmoment, hfraction, hinteger⟩ := readNumber_intText hlow hhigh rest
  obtain ⟨c, tail, htext, hc⟩ := intText_cons n
  have hother : ∀ d : Char, d.isDigit = false → d ≠ '-' → c ≠ d := by
    intro d hd hminus
    rcases hc with hdigit | rfl
    · exact ne_of_isDigit hdigit hd
    · exact Ne.symm hminus
  have hdouble := hother '"' (by decide) (by decide)
  have hsingle := hother '\'' (by decide) (by decide)
  have htrue := hother 't' (by decide) (by decide)
  have hfalse := hother 'f' (by decide) (by decide)
  rw [htext, List.cons_append] at hmoment hfraction hinteger ⊢
  simp [readScalar, hdouble, hsingle, htrue, hfalse, hmoment, hfraction, hinteger]

/-- The scalars that have a text, and their texts. -/
theorem scalarText?_cases {v : Tree} {cs : List Char} (h : scalarText? v = some cs) :
    (∃ s, v = .text s ∧ cs = stringText s) ∨
      (∃ n, v = .integer n ∧ -9223372036854775808 ≤ n ∧ n ≤ 9223372036854775807 ∧
        cs = (intText n).toList) ∨
      ∃ b, v = .flag b ∧ cs = (if b then "true" else "false").toList := by
  cases v with
  | text s => exact Or.inl ⟨s, rfl, (Option.some.inj h).symm⟩
  | integer n =>
      rw [scalarText?] at h
      split at h
      · next hrange =>
        exact Or.inr (Or.inl ⟨n, rfl, hrange.1, hrange.2, (Option.some.inj h).symm⟩)
      · simp at h
  | flag b => exact Or.inr (Or.inr ⟨b, rfl, (Option.some.inj h).symm⟩)
  | _ => simp [scalarText?] at h

/-- A scalar is read back at the end of its line. -/
theorem readScalar_scalarText? {v : Tree} {cs : List Char} (h : scalarText? v = some cs)
    (rest : List Char) : readScalar (cs ++ '\n' :: rest) = some (v, '\n' :: rest) := by
  rcases scalarText?_cases h with ⟨s, rfl, rfl⟩ | ⟨n, rfl, hlow, hhigh, rfl⟩ | ⟨b, rfl, rfl⟩
  · exact readScalar_text s rest
  · exact readScalar_integer hlow hhigh rest
  · cases b <;> rfl

theorem startsScalar_scalarText? {v : Tree} {cs : List Char} (h : scalarText? v = some cs) :
    StartsScalar cs := by
  rcases scalarText?_cases h with ⟨s, -, rfl⟩ | ⟨n, -, -, -, rfl⟩ | ⟨b, -, rfl⟩
  · obtain ⟨c, tail, htext, hc⟩ := stringText_cons s
    refine ⟨c, tail, htext, ?_⟩
    rcases hc with rfl | rfl <;> decide
  · obtain ⟨c, tail, htext, hc⟩ := intText_cons n
    refine ⟨c, tail, htext, ?_⟩
    rcases hc with hdigit | rfl
    · have hspace := ne_of_isDigit hdigit (show ' '.isDigit = false by decide)
      have htab := ne_of_isDigit hdigit (show '\t'.isDigit = false by decide)
      exact ⟨by simp [isSpace, hspace, htab], ne_of_isDigit hdigit (by decide),
        ne_of_isDigit hdigit (by decide)⟩
    · decide
  · cases b with
    | false => exact ⟨'f', _, rfl, by decide⟩
    | true => exact ⟨'t', _, rfl, by decide⟩

end Almanac.Toml
