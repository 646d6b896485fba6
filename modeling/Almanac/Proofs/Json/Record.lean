/-
  Almanac.Proofs.Json.Record

  Records that were written are read back (`Layout.faithful`), for every layout whose
  names differ and whose field values are read back one by one (`ReadsBack`). The members
  of an object are read from the first on; with each one the list of what has been seen
  fills up at the place of its field. So are lists of them (`Layout.decodeList_encodeList`).
-/
import Almanac.Proofs.Json.Lexeme
import Almanac.Proofs.Time.Notation
import Mathlib.Data.List.Forall2

namespace Almanac.Json

/-! ## Field values -/

/-- A value that is read back as a kind, when a comma or a brace follows. -/
def ReadsBack (kind : Kind) (value : Scalar) : Prop :=
  ∀ rest, (∃ tail, rest = 44 :: tail ∨ rest = 125 :: tail) →
    kind.read (value.encode ++ rest) = .ok (value, rest)

theorem skipSpace_cons {b : UInt8} (h : isSpace b = false) (rest : Bytes) :
    skipSpace (b :: rest) = b :: rest := by
  rw [skipSpace, List.dropWhile_cons_of_neg (by simp [h])]

theorem readText_quote (s : String) (rest : Bytes) :
    readText (quote s ++ rest) = .ok (s, rest) := by
  have hquote : quote s ++ rest = 34 :: ((utf8 s).flatMap escapeByte ++ 34 :: rest) := by
    simp [quote]
  rw [readText, hquote, skipSpace_cons (by decide)]
  exact readString_quote s rest

theorem readsBack_text (s : String) : ReadsBack .text (.text s) := by
  intro rest _
  rw [Kind.read, Scalar.encode, readText_quote]
  rfl

theorem readsBack_instant (t : Instant) : ReadsBack .instant (.instant t) := by
  intro rest _
  have hparsed : readParsed Instant.parse? (quote t.text ++ rest) = .ok (t, rest) := by
    unfold readParsed
    rw [readText_quote]
    simp only [bind, Except.bind, Instant.parse?_text]
  rw [Kind.read, Scalar.encode, hparsed]
  rfl

/-! ## Members -/

/-- The field of a name is found behind fields of other names. -/
theorem findField_append {name : String} {kind : Kind} {before after : List (String × Kind)}
    (h : name ∉ before.map (·.1)) :
    findField name (before ++ (name, kind) :: after) = some (before.length, kind) := by
  induction before with
  | nil => simp [findField]
  | cons field before ih =>
      obtain ⟨other, k⟩ := field
      rw [List.map_cons, List.mem_cons, not_or] at h
      have hne : (other == name) = false := by simpa using fun heq : other = name => h.1 heq.symm
      rw [List.cons_append, findField, if_neg (by simp [hne]), ih h.2]
      rfl

/-- What is read behind a member. -/
def readOn (fields : List (String × Kind)) (fuel : Nat) (seen : List (Option Scalar))
    (rest : Bytes) : Except Fault (List (Option Scalar) × Bytes) :=
  match skipSpace rest with
  | [] => .error .truncated
  | 44 :: rest => readMembers fields fuel seen rest
  | 125 :: rest => .ok (seen, rest)
  | _ => .error .malformed

theorem readOn_comma (fields : List (String × Kind)) (fuel : Nat) (seen : List (Option Scalar))
    (rest : Bytes) :
    readOn fields fuel seen (44 :: rest) = readMembers fields fuel seen rest := by
  have hspace : skipSpace (44 :: rest) = 44 :: rest := skipSpace_cons (by decide) rest
  simp only [readOn, hspace]

theorem readOn_brace (fields : List (String × Kind)) (fuel : Nat) (seen : List (Option Scalar))
    (rest : Bytes) : readOn fields fuel seen (125 :: rest) = .ok (seen, rest) := by
  have hspace : skipSpace (125 :: rest) = 125 :: rest := skipSpace_cons (by decide) rest
  simp only [readOn, hspace]

/-- A member of a field that has not been seen is read, and then what follows it. -/
theorem readMembers_member {fields : List (String × Kind)} {seen : List (Option Scalar)}
    {name : String} {kind : Kind} {value : Scalar} {i : Nat} (fuel : Nat) (rest : Bytes)
    (hfield : findField name fields = some (i, kind)) (hseen : seen[i]? = some none)
    (hvalue : kind.read (value.encode ++ rest) = .ok (value, rest)) :
    readMembers fields (fuel + 1) seen (quote name ++ 58 :: value.encode ++ rest) =
      readOn fields fuel (seen.set i (some value)) rest := by
  have hquote : quote name ++ 58 :: value.encode ++ rest =
      34 :: ((utf8 name).flatMap escapeByte ++ 34 :: 58 :: (value.encode ++ rest)) := by
    simp [quote]
  have hcolon : readColon (58 :: (value.encode ++ rest)) = .ok (value.encode ++ rest) := by
    rw [readColon, skipSpace_cons (by decide)]
    rfl
  have hname := readString_quote name (58 :: (value.encode ++ rest))
  rw [hquote, readMembers, skipSpace_cons (by decide)]
  simp only [hname, hfield, hseen, hcolon, hvalue, bind, Except.bind, Option.getD_some,
    Option.isSome_none, Bool.false_eq_true, if_false, pure, Except.pure]
  rfl

/-- The members of a record are read one after the other into the places of their fields. -/
theorem readMembers_encodeMembers {fields : List (String × Kind)} (rest : Bytes) :
    ∀ (before after : List (String × Kind)) (done values : List Scalar) (fuel : Nat),
      fields = before ++ after → (fields.map (·.1)).Nodup → after ≠ [] →
      done.length = before.length →
      List.Forall₂ (fun field value => ReadsBack field.2 value) after values →
      after.length ≤ fuel →
      readMembers fields fuel (done.map some ++ after.map fun _ => none)
          (encodeMembers ((after.map (·.1)).zip values) ++ 125 :: rest) =
        .ok ((done ++ values).map some, rest) := by
  intro before after
  induction after generalizing before with
  | nil => intro done values fuel _ _ hne; exact (hne rfl).elim
  | cons field after ih =>
      intro done values fuel hfields hnames _ hlength hvalues hfuel
      obtain ⟨name, kind⟩ := field
      cases hvalues with
      | @cons _ value _ values hvalue hvalues =>
          -- There is a field left, so there is fuel left.
          obtain ⟨fuel, rfl⟩ : ∃ n, fuel = n + 1 := ⟨fuel - 1, by simp at hfuel; omega⟩
          have hfield : findField name fields = some (before.length, kind) := by
            rw [hfields]
            refine findField_append fun hmem => ?_
            rw [hfields, List.map_append, List.nodup_append] at hnames
            exact hnames.2.2 name hmem name (by simp) rfl
          have hseen : (done.map some ++ ((name, kind) :: after).map fun _ => none)[before.length]? =
              some (none : Option Scalar) := by
            rw [List.getElem?_append_right (by simp [hlength])]
            simp [hlength]
          -- The value goes to the first place that is still empty.
          have hset : (done.map some ++ ((name, kind) :: after).map fun _ => none).set
              before.length (some value) =
                (done ++ [value]).map some ++ after.map fun _ => none := by
            rw [List.set_append_right _ _ (by simp [hlength])]
            simp [hlength]
          cases after with
          | nil =>
              cases hvalues
              have hread := readMembers_member fuel (125 :: rest) hfield hseen
                (hvalue _ ⟨rest, Or.inr rfl⟩)
              rw [hset, readOn_brace] at hread
              refine hread.trans ?_
              simp
          | cons next after =>
              have hread := readMembers_member fuel
                (44 :: (encodeMembers (((next :: after).map (·.1)).zip values) ++ 125 :: rest))
                hfield hseen (hvalue _ ⟨_, Or.inl rfl⟩)
              rw [hset, readOn_comma] at hread
              have hrest := ih (before ++ [(name, kind)]) (done ++ [value]) values fuel
                (by rw [hfields, List.append_assoc]; rfl) hnames (by simp) (by simp [hlength])
                hvalues (by simpa using hfuel)
              cases hvalues with
              | @cons _ value' _ values hvalue' hvalues =>
                  -- A comma and the members that are left follow this one.
                  have hmembers : encodeMembers (((name, kind) :: next :: after).map (·.1) |>.zip
                      (value :: value' :: values)) ++ 125 :: rest =
                        quote name ++ 58 :: value.encode ++ 44 ::
                          (encodeMembers (((next :: after).map (·.1)).zip (value' :: values)) ++
                            125 :: rest) := by
                    simp [encodeMembers]
                  rw [hmembers]
                  refine hread.trans (hrest.trans ?_)
                  simp

/-! ## Records -/

/-- Every member takes at least a byte, so there is fuel for all of them. -/
theorem length_le_encodeMembers (members : List (String × Scalar)) :
    members.length ≤ (encodeMembers members).length := by
  induction members with
  | nil => exact Nat.zero_le _
  | cons member members ih =>
      obtain ⟨name, value⟩ := member
      cases members with
      | nil => simp [encodeMembers, quote]
      | cons next members =>
          rw [encodeMembers]
          · simp only [List.length_append, List.length_cons] at ih ⊢
            omega
          · simp

theorem encodeMembers_eq_cons {members : List (String × Scalar)} (h : members ≠ []) :
    ∃ rest, encodeMembers members = 34 :: rest := by
  match members, h with
  | [(name, value)], _ => exact ⟨_, rfl⟩
  | (name, value) :: next :: members, _ => exact ⟨_, rfl⟩

/-- A record that is read back from the front of a text that begins with its JSON form. -/
def Layout.Faithful {α : Type} (layout : Layout α) (value : α) : Prop :=
  ∀ rest, layout.read (layout.encode value ++ rest) = .ok (value, rest)

/-- A record that was written is read back, whatever follows it. -/
theorem Layout.faithful {α : Type} {layout : Layout α} {value : α}
    (hnames : (layout.fields.map (·.1)).Nodup) (hne : layout.fields ≠ [])
    (hparts : List.Forall₂ (fun field value => ReadsBack field.2 value) layout.fields
      (layout.parts value))
    (hbuild : layout.build ((layout.parts value).map some) = some value) :
    layout.Faithful value := by
  intro rest
  generalize hmembers : (layout.fields.map (·.1)).zip (layout.parts value) = members
  have hlength : members.length = layout.fields.length := by
    rw [← hmembers, List.length_zip, List.length_map, ← hparts.length_eq, Nat.min_self]
  have hfuel := length_le_encodeMembers members
  have hread := readMembers_encodeMembers rest [] layout.fields [] (layout.parts value)
    ((encodeMembers members ++ 125 :: rest).length + 1) rfl hnames hne rfl hparts
    (by simp only [List.length_append]; omega)
  rw [hmembers] at hread
  simp only [List.map_nil, List.nil_append] at hread
  obtain ⟨tail, htail⟩ : ∃ tail, encodeMembers members = 34 :: tail := by
    refine encodeMembers_eq_cons fun hnil => hne ?_
    rw [hnil] at hlength
    exact List.length_eq_zero_iff.mp hlength.symm
  -- The first member begins with a quotation mark.
  have hspace : skipSpace (encodeMembers members ++ 125 :: rest) = 34 :: (tail ++ 125 :: rest) := by
    rw [htail, List.cons_append, skipSpace_cons (by decide)]
  have hbytes : layout.encode value ++ rest = 123 :: (encodeMembers members ++ 125 :: rest) := by
    rw [Layout.encode, hmembers]
    simp
  unfold Layout.read
  rw [hbytes, skipSpace_cons (by decide)]
  simp only [hspace, hread, hbuild, bind, Except.bind]
  rfl

/-- So it is read back when it is a whole text. -/
theorem Layout.Faithful.decode_encode {α : Type} {layout : Layout α} {value : α}
    (h : layout.Faithful value) : layout.decode (layout.encode value) = .ok value := by
  have hread := h []
  rw [List.append_nil] at hread
  unfold Layout.decode
  rw [hread]
  rfl

theorem Layout.encode_eq_cons {α : Type} (layout : Layout α) (value : α) :
    ∃ tail, layout.encode value = 123 :: tail := ⟨_, rfl⟩

/-! ## Lists of records -/

/-- Records between commas, up to the closing bracket of their array. -/
def Layout.readRow {α : Type} (layout : Layout α) : Nat → Bytes → Except Fault (List α × Bytes)
  | 0, _ => .error .truncated
  | fuel + 1, s => do
    let (value, rest) ← layout.read s
    match skipSpace rest with
    | [] => .error .truncated
    | 44 :: rest =>
      let (values, rest) ← layout.readRow fuel rest
      .ok (value :: values, rest)
    | 93 :: rest => .ok ([value], rest)
    | _ => .error .malformed

/-- What a client reads in an array of records that fills a whole JSON text. -/
def Layout.decodeList {α : Type} (layout : Layout α) (s : Bytes) : Except Fault (List α) := do
  let (values, rest) ← match skipSpace s with
    | 91 :: rest =>
      match skipSpace rest with
      | 93 :: rest => .ok ([], rest)
      | _ => layout.readRow (rest.length + 1) rest
    | s => .error (mismatch s)
  if (skipSpace rest).isEmpty then .ok values else .error .malformed

section

variable {α : Type} {layout : Layout α}

/-- Each record takes a byte at least, so there is fuel for all of them. -/
theorem length_le_encodeItems (layout : Layout α) (values : List α) :
    values.length ≤ (encodeItems (values.map layout.encode)).length := by
  induction values with
  | nil => exact Nat.zero_le _
  | cons value values ih =>
      obtain ⟨tail, htail⟩ := layout.encode_eq_cons value
      cases values with
      | nil => simp [encodeItems, htail]
      | cons next values =>
          simp only [List.map_cons, encodeItems, htail, List.length_append, List.length_cons]
            at ih ⊢
          omega

/-- Records are read one after the other, each with what separates it from the next. -/
theorem readRow_encodeItems {value : α} {values : List α}
    (hvalues : ∀ v ∈ value :: values, layout.Faithful v) (fuel : Nat)
    (hfuel : values.length < fuel) (rest : Bytes) :
    layout.readRow fuel (encodeItems ((value :: values).map layout.encode) ++ 93 :: rest) =
      .ok (value :: values, rest) := by
  induction values generalizing value fuel with
  | nil =>
      obtain ⟨fuel, rfl⟩ : ∃ n, fuel = n + 1 := ⟨fuel - 1, by omega⟩
      have hvalue := hvalues value List.mem_cons_self (93 :: rest)
      have hspace : skipSpace (93 :: rest) = 93 :: rest := skipSpace_cons (by decide) rest
      simp only [List.map_cons, List.map_nil, encodeItems, Layout.readRow, hvalue, hspace, bind,
        Except.bind]
  | cons next values ih =>
      obtain ⟨fuel, rfl⟩ : ∃ n, fuel = n + 1 := ⟨fuel - 1, by omega⟩
      have hrest := ih (fun v hv => hvalues v (List.mem_cons_of_mem _ hv)) fuel
        (by simpa using hfuel)
      generalize hitems : encodeItems ((next :: values).map layout.encode) = items at hrest
      have hbytes : encodeItems ((value :: next :: values).map layout.encode) ++ 93 :: rest =
          layout.encode value ++ 44 :: (items ++ 93 :: rest) := by
        rw [← hitems]
        simp [encodeItems]
      have hvalue := hvalues value List.mem_cons_self (44 :: (items ++ 93 :: rest))
      have hspace : skipSpace (44 :: (items ++ 93 :: rest)) = 44 :: (items ++ 93 :: rest) :=
        skipSpace_cons (by decide) _
      rw [hbytes]
      simp only [Layout.readRow, hvalue, hspace, hrest, bind, Except.bind]

/-- A list of records that was written is read back, in its order. -/
theorem Layout.decodeList_encodeList {values : List α}
    (hvalues : ∀ v ∈ values, layout.Faithful v) :
    layout.decodeList (layout.encodeList values) = .ok values := by
  cases values with
  | nil => rfl
  | cons value values =>
      have hfuel := length_le_encodeItems layout (value :: values)
      generalize hitems : encodeItems ((value :: values).map layout.encode) = items at hfuel
      have hrow := readRow_encodeItems hvalues ((items ++ [93]).length + 1)
        (by simp only [List.length_append, List.length_cons] at hfuel ⊢; omega) []
      rw [hitems] at hrow
      have hopen : skipSpace (layout.encodeList (value :: values)) = 91 :: (items ++ [93]) := by
        rw [Layout.encodeList, hitems, List.cons_append, skipSpace_cons (by decide)]
      obtain ⟨tail, htail⟩ : ∃ tail, items = 123 :: tail := by
        rw [← hitems]
        cases values with
        | nil => exact layout.encode_eq_cons value
        | cons next values => exact ⟨_, rfl⟩
      have hfirst : skipSpace (items ++ [93]) = 123 :: (tail ++ [93]) := by
        rw [htail, List.cons_append, skipSpace_cons (by decide)]
      unfold Layout.decodeList
      simp only [hopen, hfirst, hrow, bind, Except.bind]
      rfl

end

end Almanac.Json
