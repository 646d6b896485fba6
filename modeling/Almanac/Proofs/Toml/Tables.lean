/-
  Almanac.Proofs.Toml.Tables

  The table that sections make. Sections at the top of a file come one after another, each under
  its own key (`addBlocks_tops`), and the sections of a group stand together in one table, which
  their headers lead through (`addBlocks_group`). Keys have to differ, or there is no table.
-/
import Almanac.Proofs.Table
import Almanac.Proofs.Toml.Sections

namespace Almanac.Toml

/-! ## Settings -/

/-- Settings as the entries of a table. -/
def closedOf (settings : List (String × Tree)) : Entries :=
  settings.map fun (key, value) => (key, .closed value)

@[simp] theorem treesOf_closedOf (settings : List (String × Tree)) :
    treesOf (closedOf settings) = settings := by
  induction settings with
  | nil => rfl
  | cons setting settings ih => simp_all [closedOf, treesOf, Node.tree]

@[simp] theorem treesOf_append (entries entries' : Entries) :
    treesOf (entries ++ entries') = treesOf entries ++ treesOf entries' := by
  induction entries with
  | nil => rfl
  | cons entry entries ih => simp [treesOf, ih]

/-- An entry with a plain key goes to the end of its table. -/
theorem fill_entryOf {entries : Entries} {key : String} (hnew : entries.get? key = none)
    (value : Tree) (rest : List Entry) :
    fill entries (entryOf (key, value) :: rest) =
      fill (entries ++ [(key, .closed value)]) rest := by
  have hplace : descend .dotted (entryOf (key, value)).place .header [] entries =
      some (entries ++ [(key, .closed value)]) := by
    simp [descend, Entry.place, entryOf, hnew, Table.insert_of_get?_none hnew]
  rw [fill]
  show (descend .dotted (entryOf (key, value)).place .header [] entries).bind _ = _
  rw [hplace]
  rfl

theorem fill_settings {entries : Entries} {settings : List (String × Tree)}
    (hkeys : (Table.keys settings).Nodup)
    (hnew : ∀ key ∈ Table.keys settings, entries.get? key = none) :
    fill entries (settings.map entryOf) = some (entries ++ closedOf settings) := by
  induction settings generalizing entries with
  | nil => simp [fill, closedOf]
  | cons setting settings ih =>
      obtain ⟨key, value⟩ := setting
      rw [Table.keys_cons] at hkeys hnew
      rw [List.forall_mem_cons] at hnew
      have hlater := ih (List.nodup_cons.mp hkeys).2
        (Table.forall_get?_append_none hkeys hnew.2 (.closed value))
      rw [List.map_cons, fill_entryOf hnew.1, hlater, List.append_assoc]
      rfl

/-! ## Sections -/

/-- The settings of a section under its key. -/
abbrev Part := String × List (String × Tree)

/-- A section at the top of a file. -/
def topSection (part : Part) : Section := ⟨[part.1], part.2⟩

/-- A section in a group. -/
def memberSection (group : String) (part : Part) : Section := ⟨[group, part.1], part.2⟩

/-- Sections as the entries of a table. -/
def headersOf (parts : List Part) : Entries :=
  parts.map fun (key, settings) => (key, .table .header (closedOf settings))

@[simp] theorem treesOf_headersOf (parts : List Part) :
    treesOf (headersOf parts) = parts.map fun (key, settings) => (key, .table settings) := by
  induction parts with
  | nil => rfl
  | cons part parts ih =>
      have hpart := treesOf_closedOf part.2
      simp_all [headersOf, treesOf, Node.tree]

/-- Sections that can stand side by side: their keys differ, and so do those of their settings. -/
structure SideBySide (parts : List Part) : Prop where
  keys : (Table.keys parts).Nodup
  settings : ∀ part ∈ parts, (Table.keys part.2).Nodup

theorem SideBySide.tail {part : Part} {parts : List Part} (h : SideBySide (part :: parts)) :
    SideBySide parts where
  keys := (List.nodup_cons.mp h.keys).2
  settings p hp := h.settings p (List.mem_cons_of_mem _ hp)

/-- The table of a section is added at the end of the table that its path leads to. -/
theorem place_section {part : Part} (hsettings : (Table.keys part.2).Nodup) {entries : Entries}
    (hnew : entries.get? part.1 = none) (path : List String) :
    Block.place ⟨false, path, part.1, part.2.map entryOf⟩ entries =
      some (entries ++ headersOf [part]) := by
  have hfill : fill [] (part.2.map entryOf) = some ([] ++ closedOf part.2) :=
    fill_settings hsettings (fun _ _ => rfl)
  simp only [Block.place, hnew, hfill, Option.bind_eq_bind, Option.bind_some, List.nil_append,
    Table.insert_of_get?_none hnew]
  rfl

/-- Sections at the top come after the tables that are there. -/
theorem addBlocks_tops {root : Entries} {parts : List Part} (hparts : SideBySide parts)
    (hnew : ∀ key ∈ Table.keys parts, root.get? key = none) (rest : List Block) :
    addBlocks root (parts.map (fun part => (topSection part).block) ++ rest) =
      addBlocks (root ++ headersOf parts) rest := by
  induction parts generalizing root with
  | nil => simp [headersOf]
  | cons part parts ih =>
      have hkeys := hparts.keys
      rw [Table.keys_cons] at hkeys hnew
      rw [List.forall_mem_cons] at hnew
      have hplace := place_section (hparts.settings part List.mem_cons_self) hnew.1 []
      have hlater := ih hparts.tail (Table.forall_get?_append_none hkeys hnew.2
        (.table .header (closedOf part.2)))
      rw [List.map_cons, List.cons_append, addBlocks]
      show (Block.place ⟨false, [], part.1, part.2.map entryOf⟩ root).bind _ = _
      rw [hplace, Option.bind_some]
      apply Eq.trans hlater
      rw [List.append_assoc]
      rfl

/-- One more section of a group that is the last table. -/
theorem addBlocks_under {root : Entries} {group : String} (hgroup : root.get? group = none)
    {inner : Entries} {part : Part} (hsettings : (Table.keys part.2).Nodup)
    (hnew : inner.get? part.1 = none) (rest : List Block) :
    addBlocks (root ++ [(group, .table .passage inner)])
        ((memberSection group part).block :: rest) =
      addBlocks (root ++ [(group, .table .passage (inner ++ headersOf [part]))]) rest := by
  have hplace := place_section hsettings hnew [group]
  have hdescend : descend .passage
      (fun _ => Block.place ⟨false, [group], part.1, part.2.map entryOf⟩) .header [group]
      (root ++ [(group, .table .passage inner)]) =
      some (root ++ [(group, .table .passage (inner ++ headersOf [part]))]) := by
    have hfound := Table.get?_append_singleton hgroup (Node.table .passage inner)
    simp only [descend, hfound, hplace, Option.bind_eq_bind, Option.bind_some,
      Table.insert_append_singleton hgroup]
    rfl
  rw [addBlocks]
  show (descend .passage (fun _ => Block.place ⟨false, [group], part.1, part.2.map entryOf⟩) .header
    [group] _).bind _ = _
  rw [hdescend]
  rfl

/-- The first section of a group makes the table of the group. -/
theorem addBlocks_under_first {root : Entries} {group : String} (hgroup : root.get? group = none)
    {part : Part} (hsettings : (Table.keys part.2).Nodup) (rest : List Block) :
    addBlocks root ((memberSection group part).block :: rest) =
      addBlocks (root ++ [(group, .table .passage (headersOf [part]))]) rest := by
  have hplace : Block.place ⟨false, [group], part.1, part.2.map entryOf⟩ [] =
      some ([] ++ headersOf [part]) := place_section hsettings rfl [group]
  have hdescend : descend .passage
      (fun _ => Block.place ⟨false, [group], part.1, part.2.map entryOf⟩) .header [group] root =
      some (root ++ [(group, .table .passage (headersOf [part]))]) := by
    simp only [descend, hgroup, hplace, Option.bind_eq_bind, Option.bind_some,
      Table.insert_of_get?_none hgroup, List.nil_append]
  rw [addBlocks]
  show (descend .passage (fun _ => Block.place ⟨false, [group], part.1, part.2.map entryOf⟩) .header
    [group] _).bind _ = _
  rw [hdescend]
  rfl

/-- More sections of a group come after those in its table. -/
theorem addBlocks_members {root : Entries} {group : String} (hgroup : root.get? group = none)
    {inner : Entries} {parts : List Part} (hparts : SideBySide parts)
    (hnew : ∀ key ∈ Table.keys parts, inner.get? key = none) (rest : List Block) :
    addBlocks (root ++ [(group, .table .passage inner)])
        (parts.map (fun part => (memberSection group part).block) ++ rest) =
      addBlocks (root ++ [(group, .table .passage (inner ++ headersOf parts))]) rest := by
  induction parts generalizing inner with
  | nil => simp [headersOf]
  | cons part parts ih =>
      have hkeys := hparts.keys
      rw [Table.keys_cons] at hkeys hnew
      rw [List.forall_mem_cons] at hnew
      have hlater := ih hparts.tail (Table.forall_get?_append_none hkeys hnew.2
        (.table .header (closedOf part.2)))
      rw [List.map_cons, List.cons_append,
        addBlocks_under hgroup (hparts.settings part List.mem_cons_self) hnew.1]
      apply Eq.trans hlater
      rw [List.append_assoc]
      rfl

/-- The sections of a group stand together in the table of the group. -/
theorem addBlocks_group {root : Entries} {group : String} (hgroup : root.get? group = none)
    {parts : List Part} (hne : parts ≠ []) (hparts : SideBySide parts) (rest : List Block) :
    addBlocks root (parts.map (fun part => (memberSection group part).block) ++ rest) =
      addBlocks (root ++ [(group, .table .passage (headersOf parts))]) rest := by
  obtain ⟨first, others, rfl⟩ := List.exists_cons_of_ne_nil hne
  have hkeys := hparts.keys
  rw [Table.keys_cons] at hkeys
  have hnew := Table.forall_get?_append_none (t := []) hkeys (fun _ _ => rfl)
    (Node.table .header (closedOf first.2))
  rw [List.map_cons, List.cons_append,
    addBlocks_under_first hgroup (hparts.settings first List.mem_cons_self)]
  exact addBlocks_members hgroup hparts.tail hnew rest

end Almanac.Toml
