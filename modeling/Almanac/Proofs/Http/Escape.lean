/-
  Almanac.Proofs.Http.Escape

  What a client writes into the target of a request. A text is escaped byte by byte; letters,
  digits and four signs stand for themselves, every other byte becomes a percent sign and two
  hexadecimal digits. Reading takes that back, in a path (`pathText?_escapedText`) and in a query
  (`queryText?_escapedText`), and no separator is left in an escaped text, so a target comes apart
  into what it was put together from (`parse_pathTarget`, `parse_queryTarget`).
-/
import Almanac.Http.Target
import Almanac.Proofs.Text.Pieces
import Mathlib.Data.List.TakeWhile

namespace Almanac.Http

/-! ## Bytes -/

/-- The bytes that stand for themselves in a target. -/
def isUnreserved (b : UInt8) : Bool :=
  (97 ≤ b && b ≤ 122) || (65 ≤ b && b ≤ 90) || (48 ≤ b && b ≤ 57)
    || b == 45 || b == 46 || b == 95 || b == 126

def uriEscape (b : UInt8) : List Char :=
  if isUnreserved b then [Char.ofNat b.toNat] else '%' :: hexPair b

/-- A text as it stands in a path or in a query. -/
def escapedText (s : String) : String := String.ofList ((utf8 s).flatMap uriEscape)

/-- The characters that mean something in a target, or are not ASCII. -/
def isSpecial (c : Char) : Bool :=
  128 ≤ c.toNat || ['/', '?', '#', '&', '=', '+'].contains c

/-- Nothing special is left when a byte has been escaped. -/
theorem not_isSpecial_uriEscape :
    ∀ n < 256, (uriEscape (UInt8.ofNat n)).any isSpecial = false := by
  decide +kernel

theorem not_isSpecial_of_mem {bytes : Bytes} {c : Char} (h : c ∈ bytes.flatMap uriEscape) :
    isSpecial c = false := by
  obtain ⟨b, -, hc⟩ := List.mem_flatMap.mp h
  have hb : UInt8.ofNat b.toNat = b := UInt8.ofNat_toNat
  rw [← hb] at hc
  have hnone := List.any_eq_false.mp (not_isSpecial_uriEscape b.toNat b.toNat_lt) c hc
  simpa using hnone

/-- What is not special has a small number, and is none of the signs. -/
theorem of_not_isSpecial {c : Char} (h : isSpecial c = false) :
    c.toNat < 128 ∧ c ∉ ['/', '?', '#', '&', '=', '+'] := by
  rw [isSpecial, Bool.or_eq_false_iff, decide_eq_false_iff_not, Nat.not_le] at h
  exact ⟨h.1, by simpa using h.2⟩

/-- The character of an unreserved byte has the number of the byte. -/
theorem asciiBytes_unreserved : ∀ n < 256, isUnreserved (UInt8.ofNat n) = true →
    asciiBytes [Char.ofNat n] = [UInt8.ofNat n] := by
  decide +kernel

theorem hexValue?_hexDigit : ∀ n < 16, hexValue? (UInt8.ofNat (hexDigit n).toNat) = some n := by
  decide

/-- A byte other than the percent sign is taken as it is. -/
theorem percentDecode_plain {b : UInt8} (h : b ≠ 37) (rest : Bytes) :
    percentDecode (b :: rest) = b :: percentDecode rest := by
  rw [percentDecode]
  rintro _ _ _ rfl
  exact (h rfl).elim

theorem percentDecode_uriEscape (b : UInt8) (rest : Bytes) :
    percentDecode (asciiBytes (uriEscape b) ++ rest) = b :: percentDecode rest := by
  unfold uriEscape
  split
  · next hplain =>
    have hne : b ≠ 37 := by
      rintro rfl
      simp [isUnreserved] at hplain
    have hbyte : asciiBytes [Char.ofNat b.toNat] = [b] := by
      have hchar := asciiBytes_unreserved b.toNat b.toNat_lt
      rw [UInt8.ofNat_toNat] at hchar
      exact hchar hplain
    rw [hbyte]
    exact percentDecode_plain hne rest
  · have hlt := b.toNat_lt
    have hhigh := hexValue?_hexDigit (b.toNat / 16) (by omega)
    have hlow := hexValue?_hexDigit (b.toNat % 16) (by omega)
    have hbytes : asciiBytes ('%' :: hexPair b) ++ rest =
        37 :: UInt8.ofNat (hexDigit (b.toNat / 16)).toNat ::
          UInt8.ofNat (hexDigit (b.toNat % 16)).toNat :: rest := rfl
    -- The two digits are the halves of the byte.
    have hvalue : UInt8.ofNat (16 * (b.toNat / 16) + b.toNat % 16) = b := by
      rw [Nat.div_add_mod, UInt8.ofNat_toNat]
    rw [hbytes, percentDecode, hhigh, hlow]
    dsimp only
    rw [hvalue]

theorem percentDecode_escapes (bytes : Bytes) :
    percentDecode (asciiBytes (bytes.flatMap uriEscape)) = bytes := by
  induction bytes with
  | nil => rfl
  | cons b bytes ih =>
      have hcons : asciiBytes ((b :: bytes).flatMap uriEscape) =
          asciiBytes (uriEscape b) ++ asciiBytes (bytes.flatMap uriEscape) := by
        rw [List.flatMap_cons, asciiBytes, List.map_append]
        rfl
      rw [hcons, percentDecode_uriEscape, ih]

/-! ## Texts -/

theorem utf8_escapedText (s : String) :
    utf8 (escapedText s) = asciiBytes ((utf8 s).flatMap uriEscape) :=
  utf8_ofList fun _ hc => (of_not_isSpecial (not_isSpecial_of_mem hc)).1

/-- An escaped text is read back from a path. -/
theorem pathText?_escapedText (s : String) : pathText? (escapedText s) = some s := by
  rw [pathText?, utf8_escapedText, percentDecode_escapes, ofUtf8?_utf8]

/-- There is no plus sign in it that a query would take for a space. -/
theorem queryText?_escapedText (s : String) : queryText? (escapedText s) = some s := by
  have hplus : (asciiBytes ((utf8 s).flatMap uriEscape)).map (fun b => if b == 43 then 32 else b) =
      asciiBytes ((utf8 s).flatMap uriEscape) := by
    refine (List.map_congr_left fun b hb => ?_).trans (List.map_id _)
    obtain ⟨c, hc, rfl⟩ := List.mem_map.mp hb
    obtain ⟨hlt, hsign⟩ := of_not_isSpecial (not_isSpecial_of_mem hc)
    have hne : (UInt8.ofNat c.toNat == 43) = false := by
      refine beq_eq_false_iff_ne.mpr fun heq => hsign ?_
      have hnumber := congrArg UInt8.toNat heq
      rw [UInt8.toNat_ofNat'] at hnumber
      have hvalue : c.toNat = '+'.toNat := by
        show c.toNat = 43
        have hforty : (43 : UInt8).toNat = 43 := rfl
        omega
      rw [Char.toNat_inj.mp hvalue]
      decide
    rw [hne]
    rfl
  rw [queryText?, utf8_escapedText, hplus, percentDecode_escapes, ofUtf8?_utf8]

theorem isEmpty_escapedText {s : String} (h : s ≠ "") : (escapedText s).isEmpty = false := by
  rw [Bool.eq_false_iff]
  intro hempty
  -- The empty text is read back as itself.
  have hread := pathText?_escapedText s
  rw [String.isEmpty_iff.mp hempty] at hread
  exact h (Option.some.inj hread).symm

/-! ## Targets -/

theorem cutAt_of_forall {stop : Char → Bool} {cs : List Char} (h : ∀ c ∈ cs, stop c = false) :
    cutAt stop cs = (cs, []) := by
  have hpass : ∀ c ∈ cs, (!stop c) = true := fun c hc => by rw [h c hc]; rfl
  rw [cutAt, List.takeWhile_eq_self_iff.mpr hpass, List.dropWhile_eq_nil_iff.mpr hpass]
  rfl

/-- The text is cut at the first character that stops it. -/
theorem cutAt_append {stop : Char → Bool} {before : List Char} {c : Char}
    (h : ∀ d ∈ before, stop d = false) (hc : stop c = true) (behind : List Char) :
    cutAt stop (before ++ c :: behind) = (before, behind) := by
  have hpass : ∀ d ∈ before, (!stop d) = true := fun d hd => by rw [h d hd]; rfl
  rw [cutAt, List.takeWhile_append_of_pos hpass, List.dropWhile_append_of_pos hpass,
    List.takeWhile_cons_of_neg (by simp [hc]), List.dropWhile_cons_of_neg (by simp [hc]),
    List.append_nil]
  rfl

/-- A text without anything special. -/
def Plain (s : String) : Prop := ∀ c ∈ s.toList, isSpecial c = false

instance (s : String) : Decidable (Plain s) :=
  -- The characters of the text are looked at, and not all characters there are.
  List.decidableBAll (fun c => isSpecial c = false) s.toList

theorem plain_escapedText (s : String) : Plain (escapedText s) := by
  intro c hc
  rw [escapedText, String.toList_ofList] at hc
  exact not_isSpecial_of_mem hc

/-- What is in a plain text is none of the signs. -/
theorem Plain.ne {s : String} (h : Plain s) {c sign : Char} (hc : c ∈ s.toList)
    (hsign : isSpecial sign = true) : c ≠ sign := by
  rintro rfl
  rw [h c hc] at hsign
  exact Bool.false_ne_true hsign

/-- The characters of a path, with a slash before each piece. -/
def pathChars (path : List String) : List Char := (path.map String.toList).flatMap ('/' :: ·)

def pathTarget (path : List String) : String := String.ofList (pathChars path)

/-- A query that gives a text to one key. -/
def queryChars (key value : String) : List Char := key.toList ++ '=' :: (escapedText value).toList

def queryTarget (path : List String) (key value : String) : String :=
  String.ofList (pathChars path ++ '?' :: queryChars key value)

section

variable {path : List String} (hpath : ∀ piece ∈ path, Plain piece)

include hpath

theorem mem_pathChars {c : Char} (hc : c ∈ pathChars path) : c = '/' ∨ isSpecial c = false := by
  obtain ⟨cs, hcs, hc⟩ := List.mem_flatMap.mp hc
  obtain ⟨piece, hpiece, rfl⟩ := List.mem_map.mp hcs
  rcases List.mem_cons.mp hc with rfl | hmem
  · exact Or.inl rfl
  · exact Or.inr (hpath piece hpiece c hmem)

/-- A path has no sign but its slashes. -/
theorem not_stop_pathChars (sign : Char) (hsign : isSpecial sign = true) (hne : sign ≠ '/') :
    ∀ c ∈ pathChars path, (c == sign) = false := by
  intro c hc
  refine beq_eq_false_iff_ne.mpr ?_
  rintro rfl
  rcases mem_pathChars hpath hc with heq | hplain
  · exact hne heq
  · rw [hplain] at hsign
    exact Bool.false_ne_true hsign

/-- The pieces of a path are those that it was put together from. -/
theorem pieces_pathChars : ((pieces '/' (pathChars path)).map String.ofList).drop 1 = path := by
  have hpieces : ∀ cs ∈ path.map String.toList, '/' ∉ cs := by
    intro cs hcs hmem
    obtain ⟨piece, hpiece, rfl⟩ := List.mem_map.mp hcs
    exact (hpath piece hpiece).ne hmem (by decide) rfl
  rw [pathChars, pieces_join hpieces, List.map_cons, List.drop_succ_cons, List.drop_zero,
    List.map_map]
  refine (List.map_congr_left fun piece _ => ?_).trans (List.map_id _)
  exact String.ofList_toList

theorem pathPart_pathChars (hne : path ≠ []) (behind : List Char) :
    pathPart (pathChars path ++ behind) = pathChars path ++ behind := by
  obtain ⟨piece, others, rfl⟩ := List.exists_cons_of_ne_nil hne
  rfl

theorem parse_pathTarget (hne : path ≠ []) :
    Target.parse (pathTarget path) = { path, query := "" } := by
  have hwhole := pathPart_pathChars hpath hne []
  rw [List.append_nil] at hwhole
  have hhash := cutAt_of_forall (not_stop_pathChars hpath '#' (by decide) (by decide))
  have hmark := cutAt_of_forall (not_stop_pathChars hpath '?' (by decide) (by decide))
  unfold Target.parse
  rw [pathTarget, String.toList_ofList, hwhole]
  dsimp only
  rw [hhash, hmark, pieces_pathChars hpath]

theorem parse_queryTarget (hne : path ≠ []) {key : String} (hkey : Plain key) (value : String) :
    Target.parse (queryTarget path key value) =
      { path, query := String.ofList (queryChars key value) } := by
  have hvalue := plain_escapedText value
  have hquery : ∀ c ∈ queryChars key value, c ≠ '#' := by
    intro c hc
    rcases List.mem_append.mp hc with hmem | hmem
    · exact hkey.ne hmem (by decide)
    · rcases List.mem_cons.mp hmem with rfl | hmem
      · decide
      · exact hvalue.ne hmem (by decide)
  have hhash : ∀ c ∈ pathChars path ++ '?' :: queryChars key value, (c == '#') = false := by
    intro c hc
    rcases List.mem_append.mp hc with hmem | hmem
    · exact not_stop_pathChars hpath '#' (by decide) (by decide) c hmem
    · rcases List.mem_cons.mp hmem with rfl | hmem
      · rfl
      · exact beq_eq_false_iff_ne.mpr (hquery c hmem)
  have hmark := cutAt_append (not_stop_pathChars hpath '?' (by decide) (by decide))
    (beq_self_eq_true '?') (queryChars key value)
  unfold Target.parse
  rw [queryTarget, String.toList_ofList, pathPart_pathChars hpath hne]
  dsimp only
  rw [cutAt_of_forall hhash, hmark, pieces_pathChars hpath]

end

/-- A query of one key gives its value. -/
theorem queryValue?_queryChars {key : String} (hkey : Plain key)
    (hread : queryText? key = some key) (value : String) :
    queryValue? key (String.ofList (queryChars key value)) = some value := by
  have hvalue := plain_escapedText value
  have hsingle : '&' ∉ queryChars key value := by
    intro hmem
    rcases List.mem_append.mp hmem with hmem | hmem
    · exact hkey.ne hmem (by decide) rfl
    · rcases List.mem_cons.mp hmem with heq | hmem
      · exact absurd heq (by decide)
      · exact hvalue.ne hmem (by decide) rfl
  have hkeyed : ∀ c ∈ key.toList, (c == '=') = false :=
    fun c hc => beq_eq_false_iff_ne.mpr (hkey.ne hc (by decide))
  have hcut := cutAt_append hkeyed (beq_self_eq_true '=') (escapedText value).toList
  have hnonempty : (String.ofList (queryChars key value)).isEmpty = false := by
    rw [Bool.eq_false_iff]
    intro hempty
    have hnil := congrArg String.toList (String.isEmpty_iff.mp hempty)
    simp [queryChars] at hnil
  have hpairs : queryPairs (String.ofList (queryChars key value)) =
      [(key, escapedText value)] := by
    rw [queryPairs, textPieces, String.toList_ofList, pieces_of_notMem hsingle]
    simp only [List.map_cons, List.map_nil, List.filter_cons, hnonempty, List.filter_nil,
      Bool.not_false, if_true, String.toList_ofList]
    rw [queryChars, hcut]
    simp only [String.ofList_toList]
  rw [queryValue?, queryValues, hpairs]
  simp [hread, queryText?_escapedText]

end Almanac.Http
