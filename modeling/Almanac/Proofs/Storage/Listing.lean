/-
  Almanac.Proofs.Storage.Listing

  Listings of a store. A table keeps every record once, under the id of the record
  (`Table.KeyedBy`); then what a listing shows are the records that a look-up under their own
  ids finds, each of them once and in strict order. The order of the keys in the table is
  nowhere to be seen: two listings in strict order with the same members are one listing
  (`Event.listing_unique`, `User.listing_unique`).
-/
import Almanac.Proofs.Storage.Keyed
import Almanac.Proofs.Time.Order
import Mathlib.Data.List.Sort
import Mathlib.Data.String.Basic

namespace Almanac

/-! ## Tables of records -/

/-- Sorting records by an order of which only different ids make a strict one. -/
theorem Table.KeyedBy.pairwise_sorted {α : Type} {idOf : α → String} {t : Table α}
    (ht : t.KeyedBy idOf) {le : α → α → Bool} {r : α → α → Prop}
    (htrans : ∀ a b c, le a b = true → le b c = true → le a c = true)
    (htotal : ∀ a b, (le a b || le b a) = true)
    (hstrict : ∀ a b, le a b = true → idOf a ≠ idOf b → r a b) (p : α → Bool) :
    ((t.values.filter p).mergeSort le).Pairwise r := by
  have hsorted := List.pairwise_mergeSort htrans htotal (t.values.filter p)
  have hnodup : ((t.values.filter p).mergeSort le).Pairwise fun a b => idOf a ≠ idOf b :=
    List.pairwise_map.mp (ht.nodup_sorted p le)
  exact hsorted.imp₂ hstrict hnodup

/-! ## Orders of listings -/

/-- An event is listed before those that begin later, and before those that begin with it and
    have a greater id. -/
def Event.Precedes (a b : Event) : Prop :=
  a.beginning < b.beginning ∨ (a.beginning = b.beginning ∧ a.id < b.id)

/-- A user is listed before those with a greater id. -/
def User.Precedes (a b : User) : Prop := a.id < b.id

namespace Event

theorem listedBefore_iff {a b : Event} :
    a.listedBefore b = true ↔
      a.beginning < b.beginning ∨ (a.beginning = b.beginning ∧ a.id ≤ b.id) := by
  simp [listedBefore]

theorem listedBefore_trans (a b c : Event) (hab : a.listedBefore b = true)
    (hbc : b.listedBefore c = true) : a.listedBefore c = true := by
  rw [listedBefore_iff] at hab hbc ⊢
  rcases hab with hab | ⟨hab, hid⟩ <;> rcases hbc with hbc | ⟨hbc, hid'⟩
  · exact Or.inl (Instant.lt_of_lt_of_le hab (Instant.le_of_lt hbc))
  · exact Or.inl (hbc ▸ hab)
  · exact Or.inl (hab ▸ hbc)
  · exact Or.inr ⟨hab.trans hbc, le_trans hid hid'⟩

theorem listedBefore_total (a b : Event) : (a.listedBefore b || b.listedBefore a) = true := by
  rw [Bool.or_eq_true, listedBefore_iff, listedBefore_iff]
  rcases Instant.lt_or_ge a.beginning b.beginning with hlt | hge
  · exact Or.inl (Or.inl hlt)
  · rcases Instant.lt_or_ge b.beginning a.beginning with hgt | hle
    · exact Or.inr (Or.inl hgt)
    · -- Both begin at one instant, so the ids decide.
      have hsame : a.beginning = b.beginning := Instant.rank_inj (Int.le_antisymm hle hge)
      rcases le_total a.id b.id with hid | hid
      · exact Or.inl (Or.inr ⟨hsame, hid⟩)
      · exact Or.inr (Or.inr ⟨hsame.symm, hid⟩)

theorem precedes_of_listedBefore (a b : Event) (h : a.listedBefore b = true) (hne : a.id ≠ b.id) :
    a.Precedes b := by
  rcases listedBefore_iff.mp h with hlt | ⟨hsame, hid⟩
  · exact Or.inl hlt
  · exact Or.inr ⟨hsame, lt_of_le_of_ne hid hne⟩

theorem precedes_asymm {a b : Event} (hab : a.Precedes b) : ¬b.Precedes a := by
  rcases hab with hab | ⟨hsame, hid⟩
  · rintro (hba | ⟨hsame, -⟩)
    · exact Instant.lt_irrefl _ (Instant.lt_of_lt_of_le hab (Instant.le_of_lt hba))
    · exact Instant.lt_irrefl _ (hsame ▸ hab)
  · rintro (hba | ⟨-, hid'⟩)
    · exact Instant.lt_irrefl _ (hsame ▸ hba)
    · exact lt_asymm hid hid'

instance : Std.Asymm Precedes := ⟨fun _ _ => precedes_asymm⟩

/-- There is one listing of given events. -/
theorem listing_unique {xs ys : List Event} (hxs : xs.Pairwise Precedes)
    (hys : ys.Pairwise Precedes) (h : ∀ e, e ∈ xs ↔ e ∈ ys) : xs = ys :=
  hxs.eq_of_mem_iff hys h

end Event

namespace User

theorem listedBefore_iff {a b : User} : a.listedBefore b = true ↔ a.id ≤ b.id :=
  decide_eq_true_iff

theorem listedBefore_trans (a b c : User) (hab : a.listedBefore b = true)
    (hbc : b.listedBefore c = true) : a.listedBefore c = true := by
  rw [listedBefore_iff] at hab hbc ⊢
  exact le_trans hab hbc

theorem listedBefore_total (a b : User) : (a.listedBefore b || b.listedBefore a) = true := by
  rw [Bool.or_eq_true, listedBefore_iff, listedBefore_iff]
  exact le_total a.id b.id

theorem precedes_of_listedBefore (a b : User) (h : a.listedBefore b = true) (hne : a.id ≠ b.id) :
    a.Precedes b :=
  lt_of_le_of_ne (listedBefore_iff.mp h) hne

instance : Std.Asymm Precedes := ⟨fun a b => lt_asymm (a := a.id) (b := b.id)⟩

/-- There is one listing of given users. -/
theorem listing_unique {xs ys : List User} (hxs : xs.Pairwise Precedes)
    (hys : ys.Pairwise Precedes) (h : ∀ u, u ∈ xs ↔ u ∈ ys) : xs = ys :=
  hxs.eq_of_mem_iff hys h

end User

/-! ## Listings of a store -/

namespace Store

variable {s : Store}

theorem pairwise_listWhere (hs : s.events.KeyedBy Event.id) (p : Event → Bool) :
    (s.listWhere p).Pairwise Event.Precedes :=
  hs.pairwise_sorted Event.listedBefore_trans Event.listedBefore_total
    Event.precedes_of_listedBefore p

/-- A listing shows the events that stand under their own ids and satisfy its condition. -/
theorem mem_listWhere_iff (hs : s.events.KeyedBy Event.id) {p : Event → Bool} {e : Event} :
    e ∈ s.listWhere p ↔ s.events.get? e.id = some e ∧ p e = true := by
  rw [mem_listWhere, hs.mem_values]

theorem pairwise_listUsers (hs : s.users.KeyedBy User.id) :
    s.listUsers.Pairwise User.Precedes := by
  have hsorted := hs.pairwise_sorted User.listedBefore_trans User.listedBefore_total
    User.precedes_of_listedBefore fun _ => true
  rwa [List.filter_true] at hsorted

theorem mem_listUsers (hs : s.users.KeyedBy User.id) {u : User} :
    u ∈ s.listUsers ↔ s.users.get? u.id = some u := by
  rw [listUsers, List.mem_mergeSort, hs.mem_values]

end Store

end Almanac
