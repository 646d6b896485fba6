/-
  Almanac.Proofs.Json.Lexeme

  Strings that were quoted are read back. Reading undoes the escape of one byte at a time
  (`stringBytes_escapeByte`), so it undoes them all, and bytes that came from a text give
  the text.
-/
import Almanac.Json.Record

namespace Almanac.Json

/-! ## Control characters -/

/-- The escape of a control character spells its number. -/
theorem hex4?_hexPair : ∀ n < 32, hex4? 48 48 (UInt8.ofNat (hexDigit (n / 16)).toNat)
    (UInt8.ofNat (hexDigit (n % 16)).toNat) = some n := by decide

/-- A control character is its own UTF-8 form. -/
theorem utf8_control : ∀ n < 32, utf8 (Char.ofNat n).toString = [UInt8.ofNat n] := by decide

theorem stringBytes_control {b : UInt8} (h : b < 32) (acc rest : Bytes) :
    stringBytes none acc (asciiBytes ('\\' :: 'u' :: '0' :: '0' :: hexPair b) ++ rest) =
      stringBytes none (b :: acc) rest := by
  have hlt : b.toNat < 32 := h
  have hhex := hex4?_hexPair b.toNat hlt
  have hutf8 := utf8_control b.toNat hlt
  -- The numbers of control characters are far below the surrogates.
  have hlow : isLowSurrogate b.toNat = false := by
    simp only [isLowSurrogate, Bool.and_eq_false_iff, decide_eq_false_iff_not]
    omega
  have hhigh : isHighSurrogate b.toNat = false := by
    simp only [isHighSurrogate, Bool.and_eq_false_iff, decide_eq_false_iff_not]
    omega
  -- The escape has six bytes, of which the first four are always the same.
  have hbytes : asciiBytes ('\\' :: 'u' :: '0' :: '0' :: hexPair b) ++ rest =
      92 :: 117 :: 48 :: 48 :: UInt8.ofNat (hexDigit (b.toNat / 16)).toNat ::
        UInt8.ofNat (hexDigit (b.toNat % 16)).toNat :: rest := rfl
  rw [hbytes, stringBytes.eq_def]
  simp only [hhex, hlow, hhigh, Bool.false_eq_true, if_false, hutf8, UInt8.ofNat_toNat,
    List.reverse_singleton, List.singleton_append]

/-! ## Strings -/

/-- A byte that needs no escape stands for itself. -/
theorem stringBytes_plain {b : UInt8} (hquote : b ≠ 34) (hbackslash : b ≠ 92) (h : ¬b < 32)
    (acc rest : Bytes) : stringBytes none acc (b :: rest) = stringBytes none (b :: acc) rest := by
  rw [stringBytes]
  · simp [hquote, h]
  · simp [hbackslash]
  · simp [hbackslash]
  · simp [hbackslash]

/-- An escape of one letter stands for its byte. -/
theorem stringBytes_short {e b : UInt8} (hu : e ≠ 117) (h : shortEscape? e = some b)
    (acc rest : Bytes) :
    stringBytes none acc (92 :: e :: rest) = stringBytes none (b :: acc) rest := by
  rw [stringBytes.eq_def]
  split
  · simp at *
  · simp at *
  · next heq =>
    -- A Unicode escape has another letter.
    obtain ⟨-, hrest⟩ := List.cons.inj heq
    exact (hu (List.cons.inj hrest).1).elim
  · next heq =>
    obtain ⟨-, hrest⟩ := List.cons.inj heq
    obtain ⟨rfl, rfl⟩ := List.cons.inj hrest
    simp [hu, h]
  · next hescape heq =>
    obtain ⟨rfl, rfl⟩ := List.cons.inj heq
    exact (hescape e rest rfl rfl).elim

/-- A byte that is found to have a short escape. -/
theorem stringBytes_short_of_beq {e b c : UInt8} (hb : (b == c) = true) (hu : e ≠ 117)
    (h : shortEscape? e = some c) (acc rest : Bytes) :
    stringBytes none acc ([92, e] ++ rest) = stringBytes none (b :: acc) rest := by
  rw [eq_of_beq hb]
  exact stringBytes_short hu h acc rest

/-- Reading undoes the escape of a byte. -/
theorem stringBytes_escapeByte (b : UInt8) (acc rest : Bytes) :
    stringBytes none acc (escapeByte b ++ rest) = stringBytes none (b :: acc) rest := by
  -- Seven bytes have a short escape, each looked for in turn.
  unfold escapeByte
  split
  · next h => exact stringBytes_short_of_beq h (by decide) (by decide) acc rest
  split
  · next h => exact stringBytes_short_of_beq h (by decide) (by decide) acc rest
  split
  · next h => exact stringBytes_short_of_beq h (by decide) (by decide) acc rest
  split
  · next h => exact stringBytes_short_of_beq h (by decide) (by decide) acc rest
  split
  · next h => exact stringBytes_short_of_beq h (by decide) (by decide) acc rest
  split
  · next h => exact stringBytes_short_of_beq h (by decide) (by decide) acc rest
  split
  · next h => exact stringBytes_short_of_beq h (by decide) (by decide) acc rest
  split
  · next h => exact stringBytes_control h acc rest
  · next hquote hbackslash _ _ _ _ _ hcontrol =>
    exact stringBytes_plain (by simpa using hquote) (by simpa using hbackslash) hcontrol acc rest

theorem stringBytes_escapes (bytes acc rest : Bytes) :
    stringBytes none acc (bytes.flatMap escapeByte ++ 34 :: rest) =
      .ok (bytes.reverse ++ acc, rest) := by
  induction bytes generalizing acc with
  | nil =>
      -- The quotation mark ends the string.
      rw [List.flatMap_nil, List.nil_append, stringBytes]
      · rfl
      · simp
      · simp
      · simp
  | cons b bytes ih =>
      rw [List.flatMap_cons, List.append_assoc, stringBytes_escapeByte, ih, List.reverse_cons,
        List.append_assoc, List.singleton_append]

/-- A quoted text is read back, whatever follows it. -/
theorem readString_quote (s : String) (rest : Bytes) :
    readString ((utf8 s).flatMap escapeByte ++ 34 :: rest) = .ok (s, rest) := by
  have hbytes := stringBytes_escapes (utf8 s) [] rest
  rw [List.append_nil] at hbytes
  have htext := ofUtf8?_utf8 s
  -- The bytes were collected backwards.
  rw [← List.reverse_reverse (utf8 s)] at htext
  unfold readString
  simp only [hbytes, htext, bind, Except.bind]

end Almanac.Json
