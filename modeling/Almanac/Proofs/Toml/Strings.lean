/-
  Almanac.Proofs.Toml.Strings

  Strings that were printed are read back, whatever is in them. The printer has four styles, and
  each has its reader. On one line, double quotes have escapes (`readBasic_escapeAll`) and single
  quotes show everything as it is (`readLiteral_append`). Over several lines the reader has to tell
  the quotes of the string from the three that close it; what it can tell apart is `Spells`, and
  both long styles write such a text.
-/
import Almanac.Toml.Printer
import Almanac.Toml.Scalar

namespace Almanac.Toml

/-! ## Characters -/

theorem isPlain_of_not_needsEscape {c : Char} (h : needsEscape c = false) (hline : c ≠ '\n') :
    isPlain c = true := by
  simp only [needsEscape, isPlain, Bool.or_eq_false_iff, Bool.and_eq_false_iff, Bool.or_eq_true,
    Bool.and_eq_true, decide_eq_false_iff_not, decide_eq_true_eq, bne_eq_false_iff_eq, beq_iff_eq,
    beq_eq_false_iff_ne, bne_iff_ne] at h ⊢
  obtain ⟨(hlarge | htab) | hnewline, hdelete⟩ := h
  · exact Or.inr ⟨by omega, hdelete⟩
  · exact Or.inl htab
  · exact absurd hnewline hline

/-- A carriage return only stands in an escape. -/
theorem needsEscape_return : needsEscape '\r' = true := by decide

/-! ## Escapes -/

/-- Behind a backslash some characters stand for another one, whatever follows them. They do not
    look like the end of a line, which a backslash would take away. -/
structure EscapeOf (c : Char) (e : List Char) : Prop where
  read : ∀ rest, readEscape (e ++ rest) = some (c, rest)
  solid : ∃ d tail, e = d :: tail ∧ isSpace d = false ∧ d ≠ '\n' ∧ d ≠ '\r'

theorem EscapeOf.length_pos {c : Char} {e : List Char} (h : EscapeOf c e) : 0 < e.length := by
  obtain ⟨d, tail, rfl, -⟩ := h.solid
  exact Nat.succ_pos _

/-- An escape of one letter. -/
theorem escapeOf_letter {c d : Char} (hread : ∀ rest, readEscape (d :: rest) = some (c, rest))
    (hsolid : isSpace d = false ∧ d ≠ '\n' ∧ d ≠ '\r') : EscapeOf c [d] :=
  ⟨hread, d, [], rfl, hsolid⟩

theorem escapeOf_quote : EscapeOf '"' ['"'] := escapeOf_letter (fun _ => rfl) (by decide)

theorem hexCharValue?_upperHexDigit :
    ∀ n < 16, Net.hexCharValue? (upperHexDigit n) = some n := by decide

/-- The four digits of a small number. -/
theorem readCodePoint_upperHexDigit {n : Nat} (hn : n < 128) (rest : List Char) :
    readCodePoint 4 ('0' :: '0' :: upperHexDigit (n / 16) :: upperHexDigit (n % 16) :: rest) =
      some (Char.ofNat n, rest) := by
  have hzero : Net.hexCharValue? '0' = some 0 := by decide
  have hhigh := hexCharValue?_upperHexDigit (n / 16) (by omega)
  have hlow := hexCharValue?_upperHexDigit (n % 16) (by omega)
  have hvalid : n.isValidChar := Or.inl (by omega)
  have hvalue : 16 * (n / 16) + n % 16 = n := by omega
  simp [readCodePoint, hzero, hhigh, hlow, hvalue, hvalid]

theorem escapeOf_number {c : Char} (hc : c.toNat < 128) :
    EscapeOf c ['u', '0', '0', upperHexDigit (c.toNat / 16), upperHexDigit (c.toNat % 16)] := by
  refine ⟨?_, 'u', _, rfl, by decide, by decide, by decide⟩
  intro rest
  have hread := readCodePoint_upperHexDigit hc rest
  rw [Char.ofNat_toNat] at hread
  exact hread

/-- A backslash and a letter that stands for a character. -/
theorem escaped_letter {c d : Char} {e : List Char} (h : some ['\\', d] = some e)
    (hread : ∀ rest, readEscape (d :: rest) = some (c, rest))
    (hsolid : isSpace d = false ∧ d ≠ '\n' ∧ d ≠ '\r') :
    ∃ tail, e = '\\' :: tail ∧ EscapeOf c tail := by
  obtain rfl := Option.some.inj h
  exact ⟨[d], rfl, escapeOf_letter hread hsolid⟩

/-- What the printer writes for a character can be read as an escape. -/
theorem escapeOf_escape? {long : Bool} {c : Char} {e : List Char} (h : escape? long c = some e) :
    ∃ tail, e = '\\' :: tail ∧ EscapeOf c tail := by
  -- six characters have a letter of their own, each looked for in turn
  unfold escape? at h
  split at h
  · next hc =>
    obtain rfl := eq_of_beq hc
    exact escaped_letter h (fun _ => rfl) (by decide)
  split at h
  · next hc =>
    obtain rfl := eq_of_beq hc
    exact escaped_letter h (fun _ => rfl) (by decide)
  split at h
  · next hc =>
    obtain rfl := eq_of_beq hc
    split at h
    · simp at h
    · exact escaped_letter h (fun _ => rfl) (by decide)
  split at h
  · next hc =>
    obtain rfl := eq_of_beq hc
    exact escaped_letter h (fun _ => rfl) (by decide)
  split at h
  · next hc =>
    obtain rfl := eq_of_beq hc
    exact escaped_letter h (fun _ => rfl) (by decide)
  split at h
  · next hc =>
    obtain rfl := eq_of_beq hc
    exact escaped_letter h (fun _ => rfl) (by decide)
  split at h
  · next hneeds =>
    obtain rfl := Option.some.inj h
    have hsmall : c.toNat < 128 := by
      simp only [needsEscape, Bool.or_eq_true, Bool.and_eq_true, decide_eq_true_eq,
        beq_iff_eq] at hneeds
      omega
    exact ⟨_, rfl, escapeOf_number hsmall⟩
  · simp at h

/-- A character without an escape can stand as it is. -/
theorem of_escape?_eq_none {long : Bool} {c : Char} (h : escape? long c = none) :
    c ≠ '\\' ∧ needsEscape c = false ∧ (c = '\n' → long = true) := by
  unfold escape? at h
  split at h
  · simp at h
  next hbackslash =>
  split at h
  · simp at h
  split at h
  · next hc =>
    obtain rfl := eq_of_beq hc
    split at h
    · next hlong => exact ⟨by decide, by decide, fun _ => hlong⟩
    · simp at h
  next hline =>
  split at h
  · simp at h
  split at h
  · simp at h
  split at h
  · simp at h
  split at h
  · simp at h
  next hneeds =>
  refine ⟨?_, by simpa using hneeds, ?_⟩
  · simpa using hbackslash
  · rintro rfl
    simp at hline

/-! ## Strings on one line -/

theorem readBasic_quote (acc : List Char) (fuel : Nat) (rest : List Char) :
    readBasic acc (fuel + 1) ('"' :: rest) = some (String.ofList acc.reverse, rest) := rfl

theorem readBasic_escape {c : Char} {e : List Char} (he : EscapeOf c e) (acc : List Char)
    (fuel : Nat) (rest : List Char) :
    readBasic acc (fuel + 1) ('\\' :: (e ++ rest)) = readBasic (c :: acc) fuel rest := by
  have hread := he.read rest
  simp [readBasic, hread]

theorem readBasic_plain {c : Char} (hplain : isPlain c = true) (hquote : c ≠ '"')
    (hbackslash : c ≠ '\\') (acc : List Char) (fuel : Nat) (rest : List Char) :
    readBasic acc (fuel + 1) (c :: rest) = readBasic (c :: acc) fuel rest := by
  simp [readBasic, hplain]

/-- Reading undoes the escapes of a string on one line. -/
theorem readBasic_escapeAll (cs : List Char) (run : Nat) (acc : List Char) {fuel : Nat}
    (rest : List Char) (hfuel : (escapeAll false run cs).length < fuel) :
    readBasic acc fuel (escapeAll false run cs ++ '"' :: rest) =
      some (String.ofList (acc.reverse ++ cs), rest) := by
  obtain ⟨fuel, rfl⟩ : ∃ k, fuel = k + 1 := ⟨fuel - 1, by omega⟩
  induction cs generalizing run acc fuel with
  | nil =>
      rw [escapeAll, List.nil_append, readBasic_quote, List.append_nil]
  | cons c cs ih =>
      have hlater : ∀ k, (escapeAll false 0 cs).length < k →
          readBasic (c :: acc) k (escapeAll false 0 cs ++ '"' :: rest) =
            some (String.ofList (acc.reverse ++ c :: cs), rest) := by
        intro k hk
        obtain ⟨k, rfl⟩ : ∃ j, k = j + 1 := ⟨k - 1, by omega⟩
        rw [ih 0 (c :: acc) k hk]
        simp
      rw [escapeAll] at hfuel ⊢
      by_cases hc : (c == '"') = true
      · obtain rfl := eq_of_beq hc
        simp only [beq_self_eq_true, if_true, Bool.false_and, Bool.false_eq_true, if_false,
          List.length_cons] at hfuel ⊢
        have hstep := readBasic_escape escapeOf_quote acc fuel
          (escapeAll false 0 cs ++ '"' :: rest)
        exact hstep.trans (hlater fuel (by omega))
      · simp only [hc, Bool.false_eq_true, if_false] at hfuel ⊢
        cases hescape : escape? false c with
        | some e =>
            obtain ⟨tail, rfl, htail⟩ := escapeOf_escape? hescape
            have hpos := htail.length_pos
            simp only [hescape, List.length_append, List.length_cons] at hfuel ⊢
            rw [List.cons_append, List.cons_append, List.append_assoc, readBasic_escape htail]
            exact hlater fuel (by omega)
        | none =>
            obtain ⟨hbackslash, hneeds, hline⟩ := of_escape?_eq_none hescape
            have hplain := isPlain_of_not_needsEscape hneeds fun heq =>
              absurd (hline heq) (by decide)
            simp only [hescape, List.length_cons] at hfuel ⊢
            rw [List.cons_append, readBasic_plain hplain (by simpa using hc) hbackslash]
            exact hlater fuel (by omega)

/-- In single quotes everything stands as it is. -/
theorem readLiteral_append {cs : List Char} (hcs : ∀ c ∈ cs, isPlain c = true ∧ c ≠ '\'')
    (rest : List Char) : readLiteral (cs ++ '\'' :: rest) = some (String.ofList cs, rest) := by
  have htake : (cs ++ '\'' :: rest).takeWhile (fun c => isPlain c && c != '\'') = cs := by
    rw [List.takeWhile_append_of_pos]
    · simp
    · intro c hc
      simpa using hcs c hc
  simp [readLiteral, htake]

/-! ## Strings of several lines -/

/-- What may stand in a string of several lines, and what it stands for. At most two quotes stand
    side by side; `k` counts those right in front of here. -/
inductive Spells (quote : Char) (escapes : Bool) : Nat → List Char → List Char → Prop
  | nil {k : Nat} : Spells quote escapes k [] []
  | quote {k : Nat} {body cs : List Char} (hk : k < 2)
      (hrest : Spells quote escapes (k + 1) body cs) :
      Spells quote escapes k (quote :: body) (quote :: cs)
  | escape {k : Nat} {c : Char} {e body cs : List Char} (hescapes : escapes = true)
      (he : EscapeOf c e) (hrest : Spells quote escapes 0 body cs) :
      Spells quote escapes k ('\\' :: (e ++ body)) (c :: cs)
  | plain {k : Nat} {c : Char} {body cs : List Char} (hc : needsEscape c = false)
      (hquote : c ≠ quote) (hbackslash : escapes = true → c ≠ '\\')
      (hrest : Spells quote escapes 0 body cs) :
      Spells quote escapes k (c :: body) (c :: cs)

/-- The marks of long strings. -/
def IsQuote (quote : Char) : Prop := quote = '"' ∨ quote = '\''

theorem IsQuote.lineEnd? {quote : Char} (h : IsQuote quote) (rest : List Char) :
    lineEnd? (quote :: rest) = none := by
  rcases h with rfl | rfl <;> rfl

theorem IsQuote.ne_backslash {quote : Char} (h : IsQuote quote) : quote ≠ '\\' := by
  rcases h with rfl | rfl <;> decide

/-- A text that does not go on with a quote. -/
def StartsNoQuote (quote : Char) (cs : List Char) : Prop := ∀ c tail, cs = c :: tail → c ≠ quote

theorem takeWhile_quotes {quote : Char} (j : Nat) {cs : List Char} (hcs : StartsNoQuote quote cs) :
    (List.replicate j quote ++ cs).takeWhile (· == quote) = List.replicate j quote := by
  rw [List.takeWhile_append_of_pos]
  · cases cs with
    | nil => simp
    | cons c tail =>
        have hc := hcs c tail rfl
        simp [hc]
  · intro c hc
    simpa using (List.mem_replicate.mp hc).2

section Long

variable {quote : Char} {escapes : Bool} {acc : List Char} {fuel : Nat} {rest : List Char}

theorem lineEnd?_cons {c : Char} (hline : c ≠ '\n') (hreturn : c ≠ '\r') (rest : List Char) :
    lineEnd? (c :: rest) = none := by
  unfold lineEnd?
  split
  · next heq => exact absurd (List.cons.inj heq).1 hline
  · next heq => exact absurd (List.cons.inj heq).1 hreturn
  · rfl

theorem readLong_line :
    readLong quote escapes acc (fuel + 1) ('\n' :: rest) =
      readLong quote escapes ('\n' :: acc) fuel rest := rfl

theorem readLong_plain {c : Char} (hplain : isPlain c = true) (hline : c ≠ '\n')
    (hreturn : c ≠ '\r') (hquote : c ≠ quote) (hbackslash : escapes = true → c ≠ '\\') :
    readLong quote escapes acc (fuel + 1) (c :: rest) =
      readLong quote escapes (c :: acc) fuel rest := by
  have hnot : (c == '\\' && escapes) = false := by
    cases escapes with
    | false => simp
    | true => simpa using hbackslash rfl
  rw [readLong, lineEnd?_cons hline hreturn]
  simp [hquote, hnot, hplain]

theorem readLong_escape {c : Char} {e : List Char} (hquote : IsQuote quote) (he : EscapeOf c e) :
    readLong quote true acc (fuel + 1) ('\\' :: (e ++ rest)) =
      readLong quote true (c :: acc) fuel rest := by
  -- A backslash at the end of a line would be none of an escape.
  have hsolid : lineEnd? (skipSpaces (e ++ rest)) = none := by
    obtain ⟨d, tail, rfl, hspace, hline, hreturn⟩ := he.solid
    have hskip : skipSpaces (d :: tail ++ rest) = d :: (tail ++ rest) := by
      simp [skipSpaces, hspace]
    rw [hskip]
    exact lineEnd?_cons hline hreturn _
  have hread := he.read rest
  have hne : ('\\' == quote) = false := by simpa using Ne.symm hquote.ne_backslash
  rw [readLong, lineEnd?_cons (by decide) (by decide)]
  simp [hne, hsolid, hread]

/-- One or two quotes that something else follows are part of the string. -/
theorem readLong_quote (hquote : IsQuote quote) {j : Nat} (hj : j < 2)
    (hrest : StartsNoQuote quote rest) :
    readLong quote escapes acc (fuel + 1) (quote :: (List.replicate j quote ++ rest)) =
      readLong quote escapes (quote :: acc) fuel (List.replicate j quote ++ rest) := by
  have hrun := takeWhile_quotes (j + 1) hrest
  rw [List.replicate_succ, List.cons_append] at hrun
  rw [readLong, hquote.lineEnd?]
  simp only [beq_self_eq_true, if_true, hrun, List.length_cons, List.length_replicate]
  rw [if_pos (by omega)]

/-- Three quotes close the string; up to two more in front of them are part of it. -/
theorem readLong_close (hquote : IsQuote quote) {j : Nat} (hj : j ≤ 2)
    (hrest : StartsNoQuote quote rest) :
    readLong quote escapes acc (fuel + 1) (List.replicate (j + 3) quote ++ rest) =
      some (String.ofList (acc.reverse ++ List.replicate j quote), rest) := by
  have hrun := takeWhile_quotes (j + 3) hrest
  have hlength : (List.replicate (j + 3) quote).length = j + 3 := List.length_replicate
  have hextra : min (j + 2 + 1 - 3) 2 = j := by omega
  have hleft : (List.replicate (j + 3) quote ++ rest).drop (j + 3) = rest := by
    rw [List.drop_append_of_le_length (by omega), List.drop_of_length_le (by omega),
      List.nil_append]
  rw [List.replicate_succ, List.cons_append] at hrun hleft ⊢
  rw [readLong, hquote.lineEnd?]
  simp only [beq_self_eq_true, if_true, hrun, List.length_cons, List.length_replicate]
  rw [if_neg (by omega), hextra, hleft, List.reverse_append, List.reverse_replicate]

/-- The quotes at the front of what is spelled: all of it, or some that something else follows. -/
theorem Spells.front {k : Nat} {body cs : List Char} (h : Spells quote escapes k body cs)
    (hk : k ≤ 2) (hquote : IsQuote quote) :
    (∃ j, k + j ≤ 2 ∧ body = List.replicate j quote ∧ cs = List.replicate j quote) ∨
      ∃ j c tail, k + j ≤ 2 ∧ body = List.replicate j quote ++ c :: tail ∧ c ≠ quote := by
  induction h with
  | nil => exact Or.inl ⟨0, by omega, rfl, rfl⟩
  | @quote k body cs hlt hrest ih =>
      rcases ih (by omega) with ⟨j, hj, rfl, rfl⟩ | ⟨j, c, tail, hj, rfl, hc⟩
      · exact Or.inl ⟨j + 1, by omega, rfl, rfl⟩
      · exact Or.inr ⟨j + 1, c, tail, by omega, rfl, hc⟩
  | escape hescapes he hrest ih =>
      exact Or.inr ⟨0, '\\', _, by omega, rfl, Ne.symm hquote.ne_backslash⟩
  | plain hc hne hbackslash hrest ih => exact Or.inr ⟨0, _, _, by omega, rfl, hne⟩

/-- Reading a string of several lines that spells some characters. -/
theorem readLong_spells {k : Nat} {body cs : List Char} (h : Spells quote escapes k body cs)
    (hk : k ≤ 2) (hquote : IsQuote quote) (hrest : StartsNoQuote quote rest)
    (hfuel : body.length < fuel) :
    readLong quote escapes acc fuel (body ++ (List.replicate 3 quote ++ rest)) =
      some (String.ofList (acc.reverse ++ cs), rest) := by
  obtain ⟨fuel, rfl⟩ : ∃ f, fuel = f + 1 := ⟨fuel - 1, by omega⟩
  induction h generalizing acc fuel with
  | nil => simpa using readLong_close hquote (Nat.zero_le 2) hrest
  | @quote k body cs hlt hspells ih =>
      rw [List.length_cons] at hfuel
      obtain ⟨fuel, rfl⟩ : ∃ f, fuel = f + 1 := ⟨fuel - 1, by omega⟩
      have hlater := @ih (quote :: acc) (by omega) fuel (by omega)
      rw [List.reverse_cons, List.append_assoc, List.singleton_append] at hlater
      rcases hspells.front (by omega) hquote with ⟨j, hj, rfl, rfl⟩ | ⟨j, c, tail, hj, rfl, hc⟩
      · -- These quotes are the last ones in front of the three that close the string.
        have htext : quote :: List.replicate j quote ++ (List.replicate 3 quote ++ rest) =
            List.replicate (j + 1 + 3) quote ++ rest := by
          rw [List.cons_append, ← List.append_assoc, List.replicate_append_replicate,
            ← List.cons_append, ← List.replicate_succ]
        rw [htext]
        exact readLong_close hquote (by omega) hrest
      · have hnext : StartsNoQuote quote (c :: (tail ++ (List.replicate 3 quote ++ rest))) := by
          intro d tail' heq
          rw [← (List.cons.inj heq).1]
          exact hc
        rw [List.append_assoc, List.cons_append] at hlater
        rw [List.cons_append, List.append_assoc, List.cons_append]
        exact (readLong_quote hquote (by omega) hnext).trans hlater
  | @escape k c e body cs hescapes he hspells ih =>
      have hpos := he.length_pos
      rw [List.length_cons, List.length_append] at hfuel
      obtain ⟨fuel, rfl⟩ : ∃ f, fuel = f + 1 := ⟨fuel - 1, by omega⟩
      obtain rfl := hescapes
      have hlater := @ih (c :: acc) (Nat.zero_le 2) fuel (by omega)
      rw [List.reverse_cons, List.append_assoc, List.singleton_append] at hlater
      rw [List.cons_append, List.append_assoc]
      exact (readLong_escape hquote he).trans hlater
  | @plain k c body cs hc hne hbackslash hspells ih =>
      rw [List.length_cons] at hfuel
      obtain ⟨fuel, rfl⟩ : ∃ f, fuel = f + 1 := ⟨fuel - 1, by omega⟩
      have hlater := @ih (c :: acc) (Nat.zero_le 2) fuel (by omega)
      rw [List.reverse_cons, List.append_assoc, List.singleton_append] at hlater
      by_cases hline : c = '\n'
      · subst hline
        exact readLong_line.trans hlater
      · have hplain := isPlain_of_not_needsEscape hc hline
        have hreturn : c ≠ '\r' := by
          rintro rfl
          simp [needsEscape_return] at hc
        exact (readLong_plain hplain hline hreturn hne hbackslash).trans hlater

end Long

/-! ## What the printer writes over several lines -/

/-- Double quotes with escapes. -/
theorem spells_escapeAll (cs : List Char) (k : Nat) :
    Spells '"' true k (escapeAll true k cs) cs := by
  induction cs generalizing k with
  | nil => exact .nil
  | cons c cs ih =>
      rw [escapeAll]
      by_cases hc : (c == '"') = true
      · obtain rfl := eq_of_beq hc
        simp only [beq_self_eq_true, if_true, Bool.true_and, decide_eq_true_eq]
        split
        · next hk => exact .quote hk (ih (k + 1))
        · exact .escape rfl escapeOf_quote (ih 0)
      · simp only [hc, Bool.false_eq_true, if_false]
        cases hescape : escape? true c with
        | some e =>
            obtain ⟨tail, rfl, htail⟩ := escapeOf_escape? hescape
            exact .escape rfl htail (ih 0)
        | none =>
            obtain ⟨hbackslash, hneeds, -⟩ := of_escape?_eq_none hescape
            exact .plain hneeds (by simpa using hc) (fun _ => hbackslash) (ih 0)

theorem le_longestRun (mark : Char) (k : Nat) (cs : List Char) : k ≤ longestRun mark k cs := by
  induction cs generalizing k with
  | nil => exact Nat.le_refl k
  | cons c cs ih =>
      rw [longestRun]
      split
      · exact Nat.le_of_succ_le (ih (k + 1))
      · exact Nat.le_max_left _ _

/-- Single quotes, of which at most two stand side by side, and everything else as it is. -/
theorem spells_self {cs : List Char} {k : Nat} (hneeds : cs.any needsEscape = false)
    (hrun : longestRun '\'' k cs ≤ 2) : Spells '\'' false k cs cs := by
  induction cs generalizing k with
  | nil => exact .nil
  | cons c cs ih =>
      rw [List.any_cons, Bool.or_eq_false_iff] at hneeds
      rw [longestRun] at hrun
      by_cases hc : (c == '\'') = true
      · obtain rfl := eq_of_beq hc
        rw [if_pos hc] at hrun
        have hle := le_longestRun '\'' (k + 1) cs
        exact .quote (by omega) (ih hneeds.2 hrun)
      · rw [if_neg hc] at hrun
        exact .plain hneeds.1 (by simpa using hc) (by simp)
          (ih hneeds.2 (Nat.le_trans (Nat.le_max_right _ _) hrun))

/-! ## All styles -/

/-- The style of a string shows everything that is in it. -/
theorem styleOf_cases (cs : List Char) :
    styleOf cs = .basic ∨ styleOf cs = .longBasic ∨
      (styleOf cs = .literal ∧ cs.any needsEscape = false ∧ longestRun '\'' 0 cs = 0 ∧
        cs.contains '\n' = false) ∨
      (styleOf cs = .longLiteral ∧ cs.any needsEscape = false ∧ longestRun '\'' 0 cs ≤ 2) := by
  unfold styleOf
  dsimp only
  split
  · split
    · exact Or.inr (Or.inl rfl)
    · exact Or.inl rfl
  next hneeds =>
  have hneeds : cs.any needsEscape = false := by simpa using hneeds
  split
  · exact Or.inl rfl
  split
  · next hliteral =>
    rw [Bool.and_eq_true, beq_iff_eq, Bool.not_eq_true'] at hliteral
    exact Or.inr (Or.inr (Or.inl ⟨rfl, hneeds, hliteral.1, hliteral.2⟩))
  split
  · exact Or.inr (Or.inl rfl)
  split
  · next hsingles => exact Or.inr (Or.inr (Or.inr ⟨rfl, hneeds, by simpa using hsingles⟩))
  split
  · exact Or.inr (Or.inl rfl)
  · exact Or.inl rfl

/-- Without a run of a character there is none of it. -/
theorem ne_of_longestRun {mark : Char} {k : Nat} {cs : List Char} (h : longestRun mark k cs = 0) :
    ∀ c ∈ cs, c ≠ mark := by
  induction cs generalizing k with
  | nil => simp
  | cons c cs ih =>
      rw [longestRun] at h
      split at h
      · have hle := le_longestRun mark (k + 1) cs
        omega
      · next hc =>
        have hrest : longestRun mark 0 cs = 0 := by omega
        exact List.forall_mem_cons.mpr ⟨by simpa using hc, ih hrest⟩

/-- Two quotes side by side are all of an empty string, and no third one follows them. -/
theorem append_ne_quotes {quote : Char} {body rest : List Char} (hbody : StartsNoQuote quote body)
    (hrest : StartsNoQuote quote rest) (tail : List Char) :
    body ++ quote :: rest ≠ quote :: quote :: tail := by
  intro heq
  cases body with
  | nil => exact hrest quote tail (List.cons.inj heq).2 rfl
  | cons c body => exact hbody c body rfl (List.cons.inj heq).1

theorem startsNoQuote_escapeAll (run : Nat) (cs : List Char) :
    StartsNoQuote '"' (escapeAll false run cs) := by
  intro d tail heq
  cases cs with
  | nil => simp [escapeAll] at heq
  | cons c cs =>
      rw [escapeAll] at heq
      by_cases hc : (c == '"') = true
      · simp only [hc, if_true, Bool.false_and, Bool.false_eq_true, if_false] at heq
        rw [← (List.cons.inj heq).1]
        decide
      · simp only [hc, Bool.false_eq_true, if_false] at heq
        cases hescape : escape? false c with
        | some e =>
            obtain ⟨tail', rfl, -⟩ := escapeOf_escape? hescape
            simp only [hescape] at heq
            rw [← (List.cons.inj heq).1]
            decide
        | none =>
            simp only [hescape] at heq
            rw [← (List.cons.inj heq).1]
            simpa using hc

/-- The line end in front of a long string does not count, and without it none is taken away. -/
theorem lineEnd?_lead {quote : Char} {escapes : Bool} {body cs : List Char}
    (h : Spells quote escapes 0 body cs) (hquote : IsQuote quote) (rest : List Char) :
    let lead := if cs.contains '\n' then ['\n'] else []
    (lineEnd? (lead ++ (body ++ (List.replicate 3 quote ++ rest)))).getD
        (lead ++ (body ++ (List.replicate 3 quote ++ rest))) =
      body ++ (List.replicate 3 quote ++ rest) := by
  dsimp only
  split
  · rfl
  · next hnone =>
    have hfirst : lineEnd? (body ++ (List.replicate 3 quote ++ rest)) = none := by
      cases h with
      | nil => exact hquote.lineEnd? _
      | quote => exact hquote.lineEnd? _
      | escape => exact lineEnd?_cons (by decide) (by decide) _
      | plain hc =>
          refine lineEnd?_cons ?_ ?_ _
          · rintro rfl
            simp at hnone
          · rintro rfl
            simp [needsEscape_return] at hc
    rw [List.nil_append, hfirst, Option.getD_none]

/-- A string of several lines is read back from its quotes on. -/
theorem readLongString_spells {quote : Char} {escapes : Bool} {body cs rest : List Char}
    (h : Spells quote escapes 0 body cs) (hquote : IsQuote quote)
    (hrest : StartsNoQuote quote rest) :
    readLongString quote escapes
        ((if cs.contains '\n' then ['\n'] else []) ++ (body ++ (List.replicate 3 quote ++ rest))) =
      some (String.ofList cs, rest) := by
  have hlead := lineEnd?_lead h hquote rest
  dsimp only at hlead
  rw [readLongString, hlead]
  refine readLong_spells h (Nat.zero_le 2) hquote hrest ?_
  simp only [List.length_append]
  omega

section All

variable {rest : List Char} (hrest : ∀ quote, IsQuote quote → StartsNoQuote quote rest)
include hrest

theorem readString_basic (cs : List Char) :
    readString ('"' :: (escapeAll false 0 cs ++ '"' :: rest)) = some (String.ofList cs, rest) := by
  have hread := readBasic_escapeAll cs 0 [] rest
    (show (escapeAll false 0 cs).length < (escapeAll false 0 cs ++ '"' :: rest).length + 1 by
      rw [List.length_append]
      omega)
  rw [readString.eq_def]
  split
  · next tail heq =>
    exact absurd (List.cons.inj heq).2
      (append_ne_quotes (startsNoQuote_escapeAll 0 cs) (hrest '"' (Or.inl rfl)) tail)
  · next heq => simp at heq
  · next heq =>
    obtain ⟨-, rfl⟩ := List.cons.inj heq
    exact hread
  · next heq => simp at heq
  · next hno _ => exact absurd rfl (hno _)

theorem readString_literal {cs : List Char} (hcs : ∀ c ∈ cs, isPlain c = true ∧ c ≠ '\'') :
    readString ('\'' :: (cs ++ '\'' :: rest)) = some (String.ofList cs, rest) := by
  have hfirst : StartsNoQuote '\'' cs := by
    rintro c tail rfl
    exact (hcs c List.mem_cons_self).2
  rw [readString.eq_def]
  split
  · next heq => simp at heq
  · next tail heq =>
    exact absurd (List.cons.inj heq).2 (append_ne_quotes hfirst (hrest '\'' (Or.inr rfl)) tail)
  · next heq => simp at heq
  · next heq =>
    obtain ⟨-, rfl⟩ := List.cons.inj heq
    exact readLiteral_append hcs rest
  · next hno => exact absurd rfl (hno _)

/-- Every string is read back, if no quote follows it. -/
theorem readString_stringText (s : String) :
    readString (stringText s ++ rest) = some (s, rest) := by
  have hback : String.ofList s.toList = s := String.ofList_toList
  unfold stringText
  rcases styleOf_cases s.toList with hstyle | hstyle | ⟨hstyle, hneeds, hrun, hbreaks⟩ |
    ⟨hstyle, hneeds, hrun⟩
  · rw [hstyle]
    have hread := readString_basic hrest s.toList
    rw [hback] at hread
    simpa [stringIn, Style.basic, Style.marks] using hread
  · rw [hstyle]
    have hread := readLongString_spells (spells_escapeAll s.toList 0) (Or.inl rfl)
      (hrest '"' (Or.inl rfl))
    rw [hback] at hread
    simpa [stringIn, Style.longBasic, Style.marks, List.replicate, readString] using hread
  · rw [hstyle]
    have hcs : ∀ c ∈ s.toList, isPlain c = true ∧ c ≠ '\'' := by
      intro c hc
      have hneed : needsEscape c = false := by
        simpa using List.any_eq_false.mp hneeds c hc
      have hline : c ≠ '\n' := by
        rintro rfl
        simp [hc] at hbreaks
      exact ⟨isPlain_of_not_needsEscape hneed hline, ne_of_longestRun hrun c hc⟩
    have hread := readString_literal hrest hcs
    rw [hback] at hread
    simpa [stringIn, Style.literal, Style.marks] using hread
  · rw [hstyle]
    have hread := readLongString_spells (spells_self hneeds hrun) (Or.inr rfl)
      (hrest '\'' (Or.inr rfl))
    rw [hback] at hread
    simpa [stringIn, Style.longLiteral, Style.marks, List.replicate, readString] using hread

end All

end Almanac.Toml
