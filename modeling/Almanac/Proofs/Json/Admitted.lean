/-
  Almanac.Proofs.Json.Admitted

  What a record can be read as. Every value that is read for a field is of the kind of the
  field (`Kind.Admits`), however the text is laid out, so the entries that a record is built
  from fill its fields (`Fills`, `Layout.fills_of_decode`).
-/
import Almanac.Json.Record
import Mathlib.Data.List.Forall2

namespace Almanac.Json

/-- The values that a field of a kind can have. -/
def Kind.Admits : Kind → Scalar → Prop
  | .text, .text _ => True
  | .natural limit, .natural n => n ≤ limit
  | .flag, .flag _ => True
  | .instant, .instant _ => True
  | .date, .date _ => True
  | _, _ => False

/-- One entry for each field, of its kind if it is there. -/
def Fills (fields : List (String × Kind)) (entries : List (Option Scalar)) : Prop :=
  List.Forall₂ (fun field entry => ∀ value, entry = some value → field.2.Admits value) fields
    entries

/-! ## Successful readings -/

section

variable {ε α β : Type}

theorem map_eq_ok {x : Except ε α} {f : α → β} {b : β} :
    x.map f = .ok b ↔ ∃ a, x = .ok a ∧ f a = b := by
  cases x <;> simp [Except.map]

/-- A reading of two parts succeeds when both of them do. -/
theorem bind_eq_ok {x : Except ε α} {f : α → Except ε β} {b : β} :
    (x >>= f) = .ok b ↔ ∃ a, x = .ok a ∧ f a = .ok b := by
  cases x <;> simp [bind, Except.bind]

end

/-! ## Field values -/

theorem readNatural_le {limit n : Nat} {s rest : Bytes}
    (h : readNatural limit s = .ok (n, rest)) : n ≤ limit := by
  unfold readNatural at h
  split at h
  · split at h
    · -- A number was read, and it was compared with the limit.
      obtain ⟨⟨number, tail⟩, -, h⟩ := bind_eq_ok.mp h
      cases number with
      | natural m =>
          dsimp only at h
          split at h
          · next hle =>
            cases h
            exact hle
          · simp at h
      | _ => simp at h
    · simp at h
  · simp at h

theorem Kind.admits_of_read {kind : Kind} {s rest : Bytes} {value : Scalar}
    (h : kind.read s = .ok (value, rest)) : kind.Admits value := by
  -- A value is wrapped as the scalar of its kind; only numbers have been checked further.
  cases kind with
  | natural limit =>
      obtain ⟨⟨n, tail⟩, hread, heq⟩ := map_eq_ok.mp h
      cases heq
      exact readNatural_le hread
  | text | flag | instant | date =>
      obtain ⟨found, -, heq⟩ := map_eq_ok.mp h
      cases heq
      trivial

/-! ## Members -/

variable {fields : List (String × Kind)} {entries seen : List (Option Scalar)}

/-- No entry is there yet. -/
theorem fills_none (fields : List (String × Kind)) : Fills fields (fields.map fun _ => none) := by
  induction fields with
  | nil => exact .nil
  | cons field fields ih => exact .cons (fun value h => by simp at h) ih

/-- A value of the kind of a field takes the place of its entry. -/
theorem Fills.set (h : Fills fields entries) {i : Nat} {field : String × Kind} {value : Scalar}
    (hfield : fields[i]? = some field) (hvalue : field.2.Admits value) :
    Fills fields (entries.set i (some value)) := by
  induction h generalizing i with
  | nil => simp at hfield
  | @cons other entry fields entries hentry hrest ih =>
      cases i with
      | zero =>
          obtain rfl := Option.some.inj hfield
          refine .cons (fun found hfound => ?_) hrest
          obtain rfl := Option.some.inj hfound
          exact hvalue
      | succ i => exact .cons hentry (ih hfield)

theorem getElem?_of_findField {name : String} {i : Nat} {kind : Kind}
    (h : findField name fields = some (i, kind)) : ∃ field, fields[i]? = some (field, kind) := by
  induction fields generalizing i with
  | nil => simp [findField] at h
  | cons field fields ih =>
      obtain ⟨other, k⟩ := field
      rw [findField] at h
      split at h
      · obtain ⟨rfl, rfl⟩ := Prod.mk.inj (Option.some.inj h)
        exact ⟨other, rfl⟩
      · obtain ⟨⟨j, k'⟩, hfound, heq⟩ := Option.map_eq_some_iff.mp h
        obtain ⟨rfl, rfl⟩ := Prod.mk.inj heq
        exact ih hfound

/-- What is read behind a member: a comma and another one, or the closing brace. -/
def readBehindMember (fields : List (String × Kind)) (fuel : Nat) (seen : List (Option Scalar))
    (s : Bytes) : Except Fault (List (Option Scalar) × Bytes) :=
  match skipSpace s with
  | [] => .error .truncated
  | 44 :: rest => readMembers fields fuel seen rest
  | 125 :: rest => .ok (seen, rest)
  | _ => .error .malformed

/-- Each member of an object leaves the entries filling the fields. -/
theorem fills_of_readMembers {fuel : Nat} {s rest : Bytes} (hseen : Fills fields seen)
    (h : readMembers fields fuel seen s = .ok (entries, rest)) : Fills fields entries := by
  induction fuel generalizing seen s with
  | zero => simp [readMembers] at h
  | succ fuel ih =>
      have hon : ∀ {next : List (Option Scalar)} {tail : Bytes}, Fills fields next →
          readBehindMember fields fuel next tail = .ok (entries, rest) → Fills fields entries := by
        intro next tail hnext heq
        unfold readBehindMember at heq
        split at heq
        · simp at heq
        · exact ih hnext heq
        · obtain ⟨rfl, -⟩ := Prod.mk.inj (Except.ok.inj heq)
          exact hnext
        · simp at heq
      rw [readMembers] at h
      split at h
      · simp at h
      · obtain ⟨⟨name, tail⟩, -, h⟩ := bind_eq_ok.mp h
        dsimp only at h
        split at h
        · -- A member that nobody knows is skipped.
          obtain ⟨colon, -, h⟩ := bind_eq_ok.mp h
          obtain ⟨skipped, -, h⟩ := bind_eq_ok.mp h
          exact hon hseen h
        · next i kind hfield =>
          split at h
          · simp [throw, throwThe, MonadExceptOf.throw, bind, Except.bind] at h
          · obtain ⟨colon, -, h⟩ := bind_eq_ok.mp h
            obtain ⟨⟨value, behind⟩, hvalue, h⟩ := bind_eq_ok.mp h
            obtain ⟨field, hplace⟩ := getElem?_of_findField hfield
            exact hon (hseen.set hplace (Kind.admits_of_read hvalue)) h
      · simp at h

/-! ## Items -/

/-- What is left of an array fills the fields that are left. -/
theorem fills_of_readRest {s rest : Bytes} (h : readRest fields s = .ok (entries, rest)) :
    Fills fields entries := by
  induction fields generalizing entries s with
  | nil =>
      obtain ⟨rfl, -⟩ := Prod.mk.inj (Except.ok.inj h)
      exact .nil
  | cons field fields ih =>
      obtain ⟨name, kind⟩ := field
      rw [readRest] at h
      split at h
      · simp at h
      · -- The array ends early.
        obtain ⟨rfl, -⟩ := Prod.mk.inj (Except.ok.inj h)
        exact fills_none _
      · dsimp only at h
        split at h
        · simp [throw, throwThe, MonadExceptOf.throw, bind, Except.bind] at h
        · obtain ⟨⟨value, behind⟩, hvalue, h⟩ := bind_eq_ok.mp h
          obtain ⟨⟨values, last⟩, hvalues, h⟩ := bind_eq_ok.mp h
          cases h
          refine .cons (fun found hfound => ?_) (ih hvalues)
          obtain rfl := Option.some.inj hfound
          exact Kind.admits_of_read hvalue
      · simp at h

theorem fills_of_readItems {s rest : Bytes} (h : readItems fields s = .ok (entries, rest)) :
    Fills fields entries := by
  cases fields with
  | nil =>
      cases h
      exact .nil
  | cons field fields =>
      obtain ⟨name, kind⟩ := field
      unfold readItems at h
      dsimp only at h
      split at h
      · simp at h
      · cases h
        exact fills_none _
      · obtain ⟨⟨value, behind⟩, hvalue, h⟩ := bind_eq_ok.mp h
        obtain ⟨⟨values, last⟩, hvalues, h⟩ := bind_eq_ok.mp h
        cases h
        refine .cons (fun found hfound => ?_) (fills_of_readRest hvalues)
        obtain rfl := Option.some.inj hfound
        exact Kind.admits_of_read hvalue

/-! ## Records -/

section

variable {α : Type} {layout : Layout α} {value : α}

/-- A record that is made of its entries, and what follows it. -/
def Layout.made (layout : Layout α) (entries : List (Option Scalar)) (rest : Bytes) :
    Except Fault (α × Bytes) :=
  match layout.build entries with
  | some value => .ok (value, rest)
  | none => .error .mismatched

/-- A record that was read was built from entries that fill its fields. -/
theorem Layout.fills_of_read {s rest : Bytes} (h : layout.read s = .ok (value, rest)) :
    ∃ entries, Fills layout.fields entries ∧ layout.build entries = some value := by
  unfold Layout.read at h
  split at h
  · have hbuilt : ∀ {entries : List (Option Scalar)} {behind : Bytes}, Fills layout.fields entries →
        layout.made entries behind = .ok (value, rest) →
        ∃ entries, Fills layout.fields entries ∧ layout.build entries = some value := by
      intro entries behind hfills heq
      unfold Layout.made at heq
      split at heq
      · next found hbuild =>
        cases heq
        exact ⟨entries, hfills, hbuild⟩
      · simp at heq
    dsimp only at h
    split at h
    · -- An object without members.
      exact hbuilt (fills_none _) h
    · obtain ⟨⟨entries, behind⟩, hentries, h⟩ := bind_eq_ok.mp h
      exact hbuilt (fills_of_readMembers (fills_none _) hentries) h
  · obtain ⟨⟨entries, behind⟩, hentries, h⟩ := bind_eq_ok.mp h
    dsimp only at h
    split at h
    · simp at h
    · next found hbuild =>
      refine ⟨entries, fills_of_readItems hentries, ?_⟩
      split at h
      · cases h
        exact hbuild
      · simp at h
      · simp at h
  · simp at h

theorem Layout.fills_of_decode {s : Bytes} (h : layout.decode s = .ok value) :
    ∃ entries, Fills layout.fields entries ∧ layout.build entries = some value := by
  obtain ⟨⟨found, rest⟩, hread, h⟩ := bind_eq_ok.mp h
  obtain ⟨entries, hfills, hbuild⟩ := Layout.fills_of_read hread
  dsimp only at h
  split at h
  · cases h
    exact ⟨entries, hfills, hbuild⟩
  · simp at h

end

end Almanac.Json
