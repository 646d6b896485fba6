/-
  Almanac.Proofs.Config.Layout

  The settings of a section are read back from the table of them (`Layout.keeps`), for every
  layout whose names differ and whose parts are read back one by one (`Settles`). A part that is
  missing has no entry in the table, and none is found.
-/
import Almanac.Config.Layout
import Almanac.Proofs.Table
import Mathlib.Data.List.Forall2

namespace Almanac.Config

/-! ## Parts -/

/-- A part of a section, which may be missing. -/
def readPart (fit : Fit) (kind : Kind) : Option Tree → Option (Option Tree)
  | none => some none
  | some value => kind.read fit value

/-- A part that is read back as a setting of a kind. -/
def Settles (kind : Kind) (part : Option Tree) : Prop := ∀ fit, readPart fit kind part = some part

theorem settles_text (s : String) : Settles .text (some (.text s)) := fun _ => rfl

theorem settles_optionalText (s : Option String) : Settles .optionalText (s.map .text) := by
  intro fit
  cases s <;> rfl

theorem settles_flag (b : Bool) : Settles .flag (some (.flag b)) := fun _ => rfl

theorem settles_number {limit n : Nat} (h : n ≤ limit) :
    Settles (.number limit) (some (.integer n)) := by
  intro fit
  have hrange : (0 : Int) ≤ n ∧ (n : Int) ≤ limit := by omega
  simp [readPart, Kind.read, hrange]

theorem settles_choice {names : List String} {s : String} (h : s ∈ names) :
    Settles (.choice names) (some (.text s)) := by
  intro fit
  simp [readPart, Kind.read, h]

theorem mapM_readPart (fit : Fit) {fields : List (String × Kind)} {parts : List (Option Tree)}
    (hparts : List.Forall₂ (fun field part => Settles field.2 part) fields parts) :
    ((fields.zip parts).mapM fun field => readPart fit field.1.2 field.2) = some parts := by
  induction hparts with
  | nil => rfl
  | cons hpart _ ih => simp [hpart fit, ih]

/-! ## Tables of settings -/

/-- The settings under names, without those that are missing. -/
def present (names : List String) (parts : List (Option Tree)) : List (String × Tree) :=
  (names.zip parts).filterMap fun (name, value) => value.map fun v => (name, v)

theorem present_cons (name : String) (names : List String) (part : Option Tree)
    (parts : List (Option Tree)) :
    present (name :: names) (part :: parts) =
      (part.map fun v => (name, v)).toList ++ present names parts := by
  cases part <;> rfl

theorem keys_present (names : List String) (parts : List (Option Tree)) :
    (Table.keys (present names parts)).Sublist names := by
  induction names generalizing parts with
  | nil => exact List.Sublist.slnil
  | cons name names ih =>
      cases parts with
      | nil => exact List.nil_sublist _
      | cons part parts =>
          rw [present_cons]
          cases part with
          | none => exact (ih parts).cons name
          | some v => exact (ih parts).cons_cons name

/-- Every part is found under its name. -/
theorem get?_present {names : List String} (hnames : names.Nodup) {parts : List (Option Tree)}
    (hlength : parts.length = names.length) :
    names.map (Table.get? (present names parts)) = parts := by
  induction names generalizing parts with
  | nil => exact (List.length_eq_zero_iff.mp hlength).symm
  | cons name names ih =>
      obtain ⟨part, parts, rfl⟩ := List.exists_cons_of_length_eq_add_one hlength
      obtain ⟨hname, hnodup⟩ := List.nodup_cons.mp hnames
      have hlater := ih hnodup (Nat.succ.inj hlength)
      rw [present_cons]
      cases part with
      | none =>
          have hmissing : Table.get? (present names parts) name = none :=
            Table.get?_eq_none_iff.mpr fun h => hname ((keys_present names parts).subset h)
          rw [List.map_cons]
          exact congr (congrArg _ hmissing) hlater
      | some v =>
          -- the names that follow are other names
          have hothers : names.map (Table.get? ((name, v) :: present names parts)) =
              names.map (Table.get? (present names parts)) := by
            apply List.map_congr_left
            intro other hother
            have hne : name ≠ other := by
              rintro rfl
              exact hname hother
            rw [Table.get?_cons, if_neg hne]
          rw [List.map_cons]
          apply congr (congrArg _ _) (hothers.trans hlater)
          exact (Table.get?_cons _ _ _ _).trans (if_pos rfl)

/-- So they are what a table has under its names. -/
theorem members_present (fit : Fit) {names : List String} (hnames : names.Nodup)
    {parts : List (Option Tree)} (hlength : parts.length = names.length) :
    members fit names (.table (present names parts)) = some parts :=
  congrArg some (get?_present hnames hlength)

/-- What holds of the parts that are there holds of the settings, and the other way round. -/
theorem forall_present {names : List String} {parts : List (Option Tree)}
    (hlength : parts.length = names.length) (P : Tree → Prop) :
    (∀ setting ∈ present names parts, P setting.2) ↔ ∀ value, some value ∈ parts → P value := by
  induction names generalizing parts with
  | nil =>
      obtain rfl := List.length_eq_zero_iff.mp hlength
      simp [present]
  | cons name names ih =>
      obtain ⟨part, parts, rfl⟩ := List.exists_cons_of_length_eq_add_one hlength
      rw [present_cons, List.forall_mem_append, ih (Nat.succ.inj hlength)]
      cases part <;> simp

/-! ## Sections -/

namespace Layout

variable {α : Type} {l : Layout α} {a : α}

/-- A section that is read back from the table of its settings. -/
def Keeps (l : Layout α) (a : α) : Prop :=
  ∀ fit, l.read fit (some (.table (l.settings a))) = some a

theorem settings_eq (l : Layout α) (a : α) : l.settings a = present l.names (l.parts a) := rfl

theorem read_of_members {fit : Fit} {tree : Tree} {parts : List (Option Tree)}
    (h : members fit l.names tree = some parts) :
    l.read fit (some tree) = ((l.fields.zip parts).mapM fun field =>
      readPart fit field.1.2 field.2).map l.build := by
  unfold Layout.read
  rw [Option.getD_some, h, Option.map_eq_bind]
  refine congrArg (fun read : (String × Kind) × Option Tree → Option (Option Tree) =>
    ((l.fields.zip parts).mapM read).bind fun values => some (l.build values)) ?_
  funext ⟨field, part⟩
  cases part <;> rfl

theorem keeps (hnames : l.names.Nodup)
    (hparts : List.Forall₂ (fun field part => Settles field.2 part) l.fields (l.parts a))
    (hbuild : l.build (l.parts a) = a) : l.Keeps a := by
  intro fit
  have hlength : (l.parts a).length = l.names.length := by
    rw [Layout.names, List.length_map, hparts.length_eq]
  rw [settings_eq, read_of_members (members_present fit hnames hlength), mapM_readPart fit hparts,
    Option.map_some, hbuild]

end Layout

end Almanac.Config
