/-
  Almanac.Proofs.Table

  What `insert` and `erase` do to a table, seen through `get?`, through its keys, and
  through a sum over its values (`total`), and what follows for tables that keep every record
  under its own id (`KeyedBy`). Nothing here opens a table any further; the modules about the
  store and the broker use these laws only.
-/
import Almanac.Table
import Mathlib.Algebra.GroupWithZero.Nat

namespace Almanac.Table

variable {α β : Type}

/-- The keys of a table. -/
def keys (t : Table α) : List String := t.map (·.1)

/-- The sum of a measure over the values of a table. -/
def total (measure : α → Nat) (t : Table α) : Nat := (t.map fun (_, v) => measure v).sum

@[simp] theorem get?_nil (key : String) : get? ([] : Table α) key = none := rfl

theorem get?_cons (k : String) (v : α) (t : Table α) (key : String) :
    get? ((k, v) :: t) key = if k = key then some v else get? t key := by
  unfold get?
  rw [List.lookup_cons]
  by_cases h : k = key
  · subst h
    simp
  · -- The key that is looked for stands on the other side of this test.
    have hne : (key == k) = false := by simpa using fun e : key = k => h e.symm
    simp [hne, h]

@[simp] theorem total_nil (measure : α → Nat) : total measure ([] : Table α) = 0 := rfl

@[simp] theorem total_cons (measure : α → Nat) (k : String) (v : α) (t : Table α) :
    total measure ((k, v) :: t) = measure v + total measure t := by
  simp [total]

@[simp] theorem keys_nil : keys ([] : Table α) = [] := rfl

@[simp] theorem keys_cons (k : String) (v : α) (t : Table α) :
    keys ((k, v) :: t) = k :: keys t := rfl

/-! ## Looking up -/

theorem get?_insert (t : Table α) (k : String) (v : α) (key : String) :
    (t.insert k v).get? key = if k = key then some v else t.get? key := by
  induction t with
  | nil => simp [insert, get?_cons]
  | cons entry t ih =>
      obtain ⟨k', v'⟩ := entry
      by_cases h : k' = k
      · subst h
        simp only [insert, beq_self_eq_true, if_true, get?_cons]
        split <;> rfl
      · have hne : (k' == k) = false := by simpa using h
        simp only [insert, hne, Bool.false_eq_true, if_false, get?_cons, ih]
        by_cases hk' : k' = key
        · -- The entry in front is the one that is looked for, so it is not replaced.
          have hk : k ≠ key := fun e => h (hk'.trans e.symm)
          simp [hk', hk]
        · simp [hk']

theorem get?_erase (t : Table α) (k key : String) :
    (t.erase k).get? key = if k = key then none else t.get? key := by
  induction t with
  | nil => simp [erase]
  | cons entry t ih =>
      obtain ⟨k', v'⟩ := entry
      simp only [erase] at ih
      by_cases h : k' = k
      · subst h
        simp only [erase, bne_self_eq_false, Bool.false_eq_true, not_false_eq_true,
          List.filter_cons_of_neg, ih, get?_cons]
        split <;> rfl
      · have hne : (k' != k) = true := by simpa using h
        simp only [erase, List.filter_cons, hne, if_true, get?_cons, ih]
        by_cases hk' : k' = key
        · have hk : k ≠ key := fun e => h (hk'.trans e.symm)
          simp [hk', hk]
        · simp [hk']

theorem get?_map (f : α → β) (t : Table α) (key : String) :
    get? (t.map fun (k, v) => (k, f v)) key = (t.get? key).map f := by
  induction t with
  | nil => rfl
  | cons entry t ih =>
      obtain ⟨k, v⟩ := entry
      simp only [List.map_cons, get?_cons, ih]
      split <;> rfl

/-- A value is changed before it is put in, or afterwards with all others. -/
theorem map_insert (f : α → β) (t : Table α) (k : String) (v : α) :
    (t.insert k v).map (fun (k, v) => (k, f v)) =
      Table.insert (t.map fun (k, v) => (k, f v)) k (f v) := by
  induction t with
  | nil => rfl
  | cons entry t ih =>
      simp only [List.map_cons, insert]
      split
      · rfl
      · rw [List.map_cons, ih]

theorem mem_of_get? {t : Table α} {key : String} {v : α} (h : t.get? key = some v) :
    (key, v) ∈ t := by
  induction t with
  | nil => simp at h
  | cons entry t ih =>
      obtain ⟨k, v'⟩ := entry
      rw [get?_cons] at h
      by_cases hk : k = key
      · rw [if_pos hk, Option.some.injEq] at h
        subst hk h
        exact List.mem_cons_self
      · rw [if_neg hk] at h
        exact List.mem_cons_of_mem _ (ih h)

theorem get?_of_mem {t : Table α} (hkeys : t.keys.Nodup) {key : String} {v : α}
    (h : (key, v) ∈ t) : t.get? key = some v := by
  induction t with
  | nil => simp at h
  | cons entry t ih =>
      obtain ⟨k, v'⟩ := entry
      rw [keys_cons, List.nodup_cons] at hkeys
      rw [get?_cons]
      rcases List.mem_cons.mp h with heq | hmem
      · obtain ⟨rfl, rfl⟩ := Prod.mk.inj heq
        rw [if_pos rfl]
      · -- Keys are different, so no earlier entry hides this one.
        have hne : k ≠ key := by
          rintro rfl
          exact hkeys.1 (List.mem_map.mpr ⟨(k, v), hmem, rfl⟩)
        rw [if_neg hne]
        exact ih hkeys.2 hmem

theorem get?_eq_none_iff {t : Table α} {key : String} : t.get? key = none ↔ key ∉ t.keys := by
  induction t with
  | nil => simp
  | cons entry t ih =>
      obtain ⟨k, v⟩ := entry
      rw [get?_cons, keys_cons]
      by_cases h : k = key
      · simp [h]
      · simp [h, ih, Ne.symm h]

/-- There is nothing to remove under a key that is not there. -/
theorem erase_of_get?_none {t : Table α} {key : String} (h : t.get? key = none) :
    t.erase key = t := by
  refine List.filter_eq_self.mpr fun entry hentry => bne_iff_ne.mpr fun hkey => ?_
  exact get?_eq_none_iff.mp h (List.mem_map.mpr ⟨entry, hentry, hkey⟩)

/-- The same keys in the same order, with the same values under them. -/
theorem eq_of_get? {t t' : Table α} (hkeys : t.keys = t'.keys) (hnodup : t.keys.Nodup)
    (h : ∀ key, t.get? key = t'.get? key) : t = t' := by
  induction t generalizing t' with
  | nil => exact (List.map_eq_nil_iff.mp hkeys.symm).symm
  | cons entry t ih =>
      obtain ⟨k, v⟩ := entry
      match t', hkeys, h with
      | (k', v') :: t', hkeys, h =>
        rw [keys_cons, keys_cons] at hkeys
        obtain ⟨rfl, hrest⟩ := List.cons.inj hkeys
        rw [keys_cons, List.nodup_cons] at hnodup
        have hvalue := h k
        simp only [get?_cons, if_true, Option.some.injEq] at hvalue
        subst hvalue
        refine congrArg _ (ih hrest hnodup.2 fun key => ?_)
        have hkey := h key
        rw [get?_cons, get?_cons] at hkey
        by_cases heq : k = key
        · -- The key in front stands in neither rest.
          subst heq
          rw [get?_eq_none_iff.mpr hnodup.1, get?_eq_none_iff.mpr (hrest ▸ hnodup.1)]
        · rwa [if_neg heq, if_neg heq] at hkey

/-! ## Adding at the end -/

theorem get?_append (t t' : Table α) (key : String) :
    get? (t ++ t') key = (t.get? key).or (get? t' key) := List.lookup_append

/-- A new key comes last. -/
theorem insert_of_get?_none {t : Table α} {key : String} (h : t.get? key = none) (v : α) :
    t.insert key v = t ++ [(key, v)] := by
  induction t with
  | nil => rfl
  | cons entry t ih =>
      obtain ⟨k, w⟩ := entry
      rw [get?_cons] at h
      split at h
      · cases h
      · next hne => simp [insert, hne, ih h]

/-- The value of the last key is changed in its place. -/
theorem insert_append_singleton {t : Table α} {key : String} (h : t.get? key = none) (v w : α) :
    insert (t ++ [(key, v)]) key w = t ++ [(key, w)] := by
  induction t with
  | nil => simp [insert]
  | cons entry t ih =>
      obtain ⟨k, u⟩ := entry
      rw [get?_cons] at h
      split at h
      · cases h
      · next hne => simp [insert, hne, ih h]

theorem get?_append_singleton {t : Table α} {key : String} (h : t.get? key = none) (v : α) :
    get? (t ++ [(key, v)]) key = some v := by
  rw [get?_append, h, get?_cons, if_pos rfl]
  rfl

/-- Keys that are new stay so when an entry under another key is added. -/
theorem forall_get?_append_none {t : Table α} {k : String} {keys : List String}
    (hkeys : (k :: keys).Nodup) (hnew : ∀ key ∈ keys, t.get? key = none) (v : α) :
    ∀ key ∈ keys, get? (t ++ [(k, v)]) key = none := by
  intro key hkey
  have hne : k ≠ key := by
    rintro rfl
    exact (List.nodup_cons.mp hkeys).1 hkey
  rw [get?_append, hnew key hkey, get?_cons, if_neg hne]
  rfl

/-! ## Entries -/

/-- Every entry of a table has a property. -/
def All (good : String → α → Prop) (t : Table α) : Prop := ∀ key v, (key, v) ∈ t → good key v

namespace All

variable {good : String → α → Prop} {t : Table α}

theorem empty : All good ([] : Table α) := fun _ _ h => by simp at h

/-- An entry of the new table is the one that was put in, or an old one. -/
theorem insert (ht : All good t) {k : String} {v : α} (hv : good k v) :
    All good (t.insert k v) := by
  induction t with
  | nil =>
      intro key w hmem
      obtain ⟨rfl, rfl⟩ := Prod.mk.inj (List.mem_singleton.mp hmem)
      exact hv
  | cons entry t ih =>
      obtain ⟨k', v'⟩ := entry
      have hrest : All good t := fun key w hmem => ht key w (List.mem_cons_of_mem _ hmem)
      intro key w hmem
      unfold Table.insert at hmem
      split at hmem
      · rcases List.mem_cons.mp hmem with heq | hold
        · obtain ⟨rfl, rfl⟩ := Prod.mk.inj heq
          exact hv
        · exact hrest key w hold
      · rcases List.mem_cons.mp hmem with heq | hmore
        · exact ht key w (heq ▸ List.mem_cons_self)
        · exact ih hrest key w hmore

theorem erase (ht : All good t) (k : String) : All good (t.erase k) :=
  fun key v hmem => ht key v (List.mem_filter.mp hmem).1

end All

/-! ## Keys -/

theorem keys_insert (t : Table α) (k : String) (v : α) :
    (t.insert k v).keys = if k ∈ t.keys then t.keys else t.keys ++ [k] := by
  induction t with
  | nil => rfl
  | cons entry t ih =>
      obtain ⟨k', v'⟩ := entry
      by_cases h : k' = k
      · subst h
        simp [insert]
      · have hne : (k' == k) = false := by simpa using h
        simp only [insert, hne, Bool.false_eq_true, if_false, keys_cons, ih, List.mem_cons,
          Ne.symm h, false_or]
        split <;> simp

theorem nodup_keys_insert {t : Table α} (h : t.keys.Nodup) (k : String) (v : α) :
    (t.insert k v).keys.Nodup := by
  rw [keys_insert]
  by_cases hk : k ∈ t.keys
  · rwa [if_pos hk]
  · -- A new key goes to the end.
    rw [if_neg hk, List.nodup_append]
    refine ⟨h, by simp, ?_⟩
    intro a ha b hb heq
    rw [List.mem_singleton] at hb
    exact hk (hb ▸ heq ▸ ha)

theorem nodup_keys_filter {t : Table α} (h : t.keys.Nodup) (p : String × α → Bool) :
    keys (t.filter p) |>.Nodup :=
  List.Nodup.sublist (List.Sublist.map _ List.filter_sublist) h

theorem keys_map (f : α → β) (t : Table α) : keys (t.map fun (k, v) => (k, f v)) = t.keys := by
  simp [keys, Function.comp_def]

/-! ## The order of a table -/

theorem nodup_keys_perm {t t' : Table α} (hkeys : t.keys.Nodup) (h : t.Perm t') :
    t'.keys.Nodup :=
  (h.map _).nodup_iff.mp hkeys

/-- The same entries in another order are found under the same keys. -/
theorem get?_perm {t t' : Table α} (hkeys : t.keys.Nodup) (h : t.Perm t') (key : String) :
    t'.get? key = t.get? key := by
  have hkeys' := nodup_keys_perm hkeys h
  apply Option.ext
  intro v
  constructor
  · intro hget
    exact get?_of_mem hkeys (h.mem_iff.mpr (mem_of_get? hget))
  · intro hget
    exact get?_of_mem hkeys' (h.mem_iff.mp (mem_of_get? hget))

/-- But for the order, a key is taken out and put in again. -/
theorem insert_perm {t : Table α} (hkeys : t.keys.Nodup) (k : String) (v : α) :
    (t.insert k v).Perm ((k, v) :: t.erase k) := by
  induction t with
  | nil => exact List.Perm.refl _
  | cons entry t ih =>
      obtain ⟨k', v'⟩ := entry
      rw [keys_cons, List.nodup_cons] at hkeys
      by_cases h : k' = k
      · subst h
        -- The key is in front, and nowhere else.
        have hrest : t.filter (fun e => e.1 != k') = t := by
          apply List.filter_eq_self.mpr
          intro e he
          have hne : e.1 ≠ k' := fun heq => hkeys.1 (List.mem_map.mpr ⟨e, he, heq⟩)
          simpa using hne
        simp only [insert, erase, beq_self_eq_true, if_true, bne_self_eq_false, Bool.false_eq_true,
          not_false_eq_true, List.filter_cons_of_neg, hrest]
        exact List.Perm.refl _
      · have hne : (k' == k) = false := by simpa using h
        have hstays : (k' != k) = true := by simpa using h
        simp only [insert, erase, hne, Bool.false_eq_true, if_false, List.filter_cons, hstays,
          if_true]
        exact ((ih hkeys.2).cons _).trans (List.Perm.swap _ _ _)

/-- Putting a value under a key into the same entries in another order. -/
theorem perm_insert {t t' : Table α} (hkeys : t.keys.Nodup) (h : t.Perm t') (k : String) (v : α) :
    (t.insert k v).Perm (t'.insert k v) := by
  have hkeys' := nodup_keys_perm hkeys h
  have herase : (t.erase k).Perm (t'.erase k) := h.filter _
  exact ((insert_perm hkeys k v).trans (herase.cons _)).trans (insert_perm hkeys' k v).symm

/-! ## Sums -/

theorem total_insert_of_some (measure : α → Nat) {t : Table α} {k : String} {old : α} (v : α)
    (h : t.get? k = some old) :
    total measure (t.insert k v) + measure old = total measure t + measure v := by
  induction t with
  | nil => simp at h
  | cons entry t ih =>
      obtain ⟨k', v'⟩ := entry
      rw [get?_cons] at h
      by_cases hk : k' = k
      · rw [if_pos hk, Option.some.injEq] at h
        subst h hk
        simp only [insert, beq_self_eq_true, if_true, total_cons]
        omega
      · rw [if_neg hk] at h
        have hne : (k' == k) = false := by simpa using hk
        simp only [insert, hne, Bool.false_eq_true, if_false, total_cons]
        have := ih h
        omega

theorem total_insert_of_none (measure : α → Nat) {t : Table α} {k : String} (v : α)
    (h : t.get? k = none) : total measure (t.insert k v) = total measure t + measure v := by
  induction t with
  | nil => simp [insert]
  | cons entry t ih =>
      obtain ⟨k', v'⟩ := entry
      rw [get?_cons] at h
      by_cases hk : k' = k
      · simp [hk] at h
      · rw [if_neg hk] at h
        have hne : (k' == k) = false := by simpa using hk
        simp only [insert, hne, Bool.false_eq_true, if_false, total_cons, ih h]
        omega

theorem total_filter (measure : α → Nat) (t : Table α) (p : String × α → Bool) :
    total measure (t.filter p) + total measure (t.filter fun e => !p e) = total measure t := by
  induction t with
  | nil => rfl
  | cons entry t ih =>
      obtain ⟨k, v⟩ := entry
      cases hp : p (k, v) <;> simp [hp] <;> omega

theorem total_map (measure : β → Nat) (f : α → β) (t : Table α) :
    total measure (t.map fun (k, v) => (k, f v)) = total (fun v => measure (f v)) t := by
  simp [total, Function.comp_def]

theorem total_eq_zero {measure : α → Nat} {t : Table α}
    (h : ∀ k v, (k, v) ∈ t → measure v = 0) : total measure t = 0 := by
  induction t with
  | nil => rfl
  | cons entry t ih =>
      obtain ⟨k, v⟩ := entry
      rw [total_cons, h k v List.mem_cons_self, Nat.zero_add]
      exact ih fun k' v' hmem => h k' v' (List.mem_cons_of_mem _ hmem)

theorem le_total (measure : α → Nat) {t : Table α} {key : String} {v : α}
    (h : t.get? key = some v) : measure v ≤ total measure t := by
  induction t with
  | nil => simp at h
  | cons entry t ih =>
      rw [get?_cons] at h
      rw [total_cons]
      split at h
      · rw [Option.some.inj h]
        exact Nat.le_add_right _ _
      · exact Nat.le_trans (ih h) (Nat.le_add_left _ _)

/-- A sum with one term that counts. -/
theorem total_eq_of_forall_ne (measure : α → Nat) {t : Table α} (hkeys : t.keys.Nodup)
    {key : String} {v : α} (h : t.get? key = some v)
    (hother : ∀ k w, t.get? k = some w → key ≠ k → measure w = 0) :
    total measure t = measure v := by
  induction t with
  | nil => simp at h
  | cons entry t ih =>
      obtain ⟨k, w⟩ := entry
      rw [keys_cons, List.nodup_cons] at hkeys
      rw [get?_cons] at h
      have hrest : ∀ k' w', get? t k' = some w' → k ≠ k' := by
        rintro k' w' hw' rfl
        exact hkeys.1 (List.mem_map.mpr ⟨(k, w'), mem_of_get? hw', rfl⟩)
      -- What the rest of the table holds is not hidden by the entry in front.
      have hcons : ∀ k' w', get? t k' = some w' → get? ((k, w) :: t) k' = some w' := by
        intro k' w' hw'
        rw [get?_cons, if_neg (hrest k' w' hw'), hw']
      rw [total_cons]
      by_cases hk : k = key
      · rw [if_pos hk, Option.some.injEq] at h
        subst hk h
        -- The entry in front is the one that counts.
        have hzero : total measure t = 0 :=
          total_eq_zero fun k' w' hmem => hother k' w'
            (hcons k' w' (get?_of_mem hkeys.2 hmem)) (hrest k' w' (get?_of_mem hkeys.2 hmem))
        rw [hzero, Nat.add_zero]
      · rw [if_neg hk] at h
        -- The entry in front counts for nothing.
        have hw : measure w = 0 := hother k w (by rw [get?_cons, if_pos rfl]) (Ne.symm hk)
        rw [hw, ih hkeys.2 h fun k' w' hw' => hother k' w' (hcons k' w' hw')]
        omega

/-! ## Tables of records -/

/-- Every record stands once, under its own id. -/
structure KeyedBy (idOf : α → String) (t : Table α) : Prop where
  names : t.keys.Nodup
  own : ∀ id v, t.get? id = some v → idOf v = id

namespace KeyedBy

variable {idOf : α → String} {t : Table α}

theorem empty : KeyedBy idOf ([] : Table α) where
  names := List.nodup_nil
  own id v h := by simp at h

theorem insert (ht : t.KeyedBy idOf) {id : String} {v : α} (hv : idOf v = id) :
    (t.insert id v).KeyedBy idOf where
  names := nodup_keys_insert ht.names _ _
  own other w h := by
    rw [get?_insert] at h
    split at h
    · next hid =>
      obtain rfl := Option.some.inj h
      exact hv.trans hid
    · exact ht.own other w h

theorem erase (ht : t.KeyedBy idOf) (id : String) : (t.erase id).KeyedBy idOf where
  names := nodup_keys_filter ht.names _
  own other w h := by
    rw [get?_erase] at h
    split at h
    · simp at h
    · exact ht.own other w h

theorem mem_values (ht : t.KeyedBy idOf) {v : α} : v ∈ t.values ↔ t.get? (idOf v) = some v := by
  constructor
  · intro h
    obtain ⟨⟨id, w⟩, hmem, rfl⟩ := List.mem_map.mp h
    have hget := get?_of_mem ht.names hmem
    have hid := ht.own id w hget
    rw [hid]
    exact hget
  · intro h
    exact List.mem_map.mpr ⟨(idOf v, v), mem_of_get? h, rfl⟩

theorem nodup_ids (ht : t.KeyedBy idOf) : (t.values.map idOf).Nodup := by
  -- Records stand under their own ids, so the ids are the keys.
  have hids : t.values.map idOf = t.keys := by
    rw [values, List.map_map]
    exact List.map_congr_left fun e he => ht.own e.1 e.2 (get?_of_mem ht.names he)
  rw [hids]
  exact ht.names

/-- Sorting moves records, and choosing leaves some out, but neither shows one twice. -/
theorem nodup_sorted (ht : t.KeyedBy idOf) (p : α → Bool) (le : α → α → Bool) :
    (((t.values.filter p).mergeSort le).map idOf).Nodup := by
  have hperm := (List.mergeSort_perm (t.values.filter p) le).map idOf
  refine hperm.nodup_iff.mpr (ht.nodup_ids.sublist ?_)
  exact List.Sublist.map _ List.filter_sublist

end KeyedBy

end Almanac.Table
