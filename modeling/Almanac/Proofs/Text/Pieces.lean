/-
  Almanac.Proofs.Text.Pieces

  Texts that were put together from pieces come apart into them (`pieces_join`), if the
  separator does not stand in any of them, and ASCII text has one byte for each character
  (`utf8_ofList`).
-/
import Almanac.Text.Bytes
import Almanac.Text.Pieces

namespace Almanac

/-! ## Pieces -/

variable {separator : Char}

theorem pieces_of_notMem {cs : List Char} (h : separator ∉ cs) : pieces separator cs = [cs] := by
  induction cs with
  | nil => rfl
  | cons c cs ih =>
      rw [List.mem_cons, not_or] at h
      have hne : (c == separator) = false := beq_eq_false_iff_ne.mpr (Ne.symm h.1)
      rw [pieces, if_neg (by simp [hne]), ih h.2]

/-- The first separator ends the first piece. -/
theorem pieces_append {cs : List Char} (h : separator ∉ cs) (rest : List Char) :
    pieces separator (cs ++ separator :: rest) = cs :: pieces separator rest := by
  induction cs with
  | nil => rw [List.nil_append, pieces, if_pos (beq_self_eq_true separator)]
  | cons c cs ih =>
      rw [List.mem_cons, not_or] at h
      have hne : (c == separator) = false := beq_eq_false_iff_ne.mpr (Ne.symm h.1)
      rw [List.cons_append, pieces, if_neg (by simp [hne]), ih h.2]

/-- Pieces that each have a separator in front. -/
theorem pieces_join {row : List (List Char)} (h : ∀ cs ∈ row, separator ∉ cs) :
    pieces separator (row.flatMap (separator :: ·)) = [] :: row := by
  -- What follows a first piece comes apart behind it.
  have hbehind : ∀ (row : List (List Char)) (first : List Char), separator ∉ first →
      (∀ cs ∈ row, separator ∉ cs) →
      pieces separator (first ++ row.flatMap (separator :: ·)) = first :: row := by
    intro row
    induction row with
    | nil =>
        intro first hfirst _
        rw [List.flatMap_nil, List.append_nil, pieces_of_notMem hfirst]
    | cons next row ih =>
        intro first hfirst hrow
        rw [List.flatMap_cons, List.cons_append, pieces_append hfirst,
          ih next (hrow next List.mem_cons_self) fun cs hcs => hrow cs (List.mem_cons_of_mem _ hcs)]
  exact hbehind row [] List.not_mem_nil h

/-! ## ASCII text -/

theorem utf8EncodeChar_of_lt {c : Char} (h : c.toNat < 128) :
    String.utf8EncodeChar c = [UInt8.ofNat c.toNat] := by
  have hsize : c.utf8Size = 1 := by
    rw [Char.utf8Size_eq_one_iff]
    exact UInt32.le_iff_toNat_le.mpr (by show c.toNat ≤ 127; omega)
  rw [String.utf8EncodeChar_eq_singleton hsize]
  rfl

/-- Characters below 128 are their own bytes. -/
theorem utf8_ofList {cs : List Char} (h : ∀ c ∈ cs, c.toNat < 128) :
    utf8 (String.ofList cs) = asciiBytes cs := by
  have hbytes : utf8 (String.ofList cs) = cs.flatMap String.utf8EncodeChar := by
    rw [utf8, String.toUTF8_eq_toByteArray, String.toByteArray_ofList, List.utf8Encode]
    simp
  rw [hbytes]
  clear hbytes
  induction cs with
  | nil => rfl
  | cons c cs ih =>
      have hrest := ih fun d hd => h d (List.mem_cons_of_mem _ hd)
      rw [List.flatMap_cons, utf8EncodeChar_of_lt (h c List.mem_cons_self), hrest]
      rfl

end Almanac
