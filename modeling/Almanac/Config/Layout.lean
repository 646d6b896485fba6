/-
  Almanac.Config.Layout

  Sections of a configuration. A `Layout` names the settings of a section in their
  order, takes a section apart and puts one together; `read` and `settings` work for
  every layout. Every setting has a default.

  A section is read from a table, whose unknown entries do not count, or from a list of
  its settings in order. A moment stands for a section that says nothing.
-/
import Almanac.Json.Record
import Almanac.Table
import Almanac.Tree

namespace Almanac.Config

/-- How closely a tree has to fit. Files fit loosely: a list may be too long, and a choice may be
    a table of one empty entry. -/
inductive Fit
  | loose
  | strict
deriving DecidableEq, Repr

/-- What a setting holds. -/
inductive Kind
  | text
  /-- A text that may be missing, which null says too. -/
  | optionalText
  | number (limit : Nat)
  | flag
  | choice (names : List String)
deriving DecidableEq

/-- Whether a value stands for nothing beside the name of a choice. -/
def isNothing (fit : Fit) (value : Tree) : Bool :=
  match fit, value with
  | .loose, .table [] => true
  | .loose, .list [] => true
  | .strict, .null => true
  | _, _ => false

/-- The setting of a kind that a value stands for; nothing inside when it says that there is
    none. -/
def Kind.read (fit : Fit) (kind : Kind) (value : Tree) : Option (Option Tree) :=
  match kind, value with
  | .text, .text s => some (some (.text s))
  | .optionalText, .text s => some (some (.text s))
  | .optionalText, .null => some none
  | .number limit, .integer n => if 0 ≤ n ∧ n ≤ limit then some (some (.integer n)) else none
  | .flag, .flag b => some (some (.flag b))
  | .choice names, .text s => if names.contains s then some (some (.text s)) else none
  | .choice names, .table [(s, inner)] =>
    if names.contains s && isNothing fit inner then some (some (.text s)) else none
  | _, _ => none

/-- The members of a section or a group of sections, in the order of their names. -/
def members (fit : Fit) (names : List String) : Tree → Option (List (Option Tree))
  | .table entries => some (names.map (Table.get? entries))
  | .list items =>
    if fit == .strict && names.length < items.length then none
    else some ((names.zipIdx).map fun (_, i) => items[i]?)
  | .moment => some (names.map fun _ => none)
  | _ => none

/-- How a section is laid out. `build` gets one entry for each setting, `none` for one that the
    tree does not have. -/
structure Layout (α : Type) where
  fields : List (String × Kind)
  parts : α → List (Option Tree)
  build : List (Option Tree) → α

namespace Layout

variable {α : Type}

def names (l : Layout α) : List String := l.fields.map (·.1)

/-- A section from a tree. A section that is missing has all its defaults. -/
def read (l : Layout α) (fit : Fit) (tree : Option Tree) : Option α := do
  let found ← members fit l.names (tree.getD (.table []))
  let values ← (l.fields.zip found).mapM fun ((_, kind), value) =>
    match value with
    | none => some none
    | some value => kind.read fit value
  some (l.build values)

def settings (l : Layout α) (a : α) : List (String × Tree) :=
  (l.names.zip (l.parts a)).filterMap fun (name, value) => value.map fun v => (name, v)

end Layout

/-! ## Values of settings -/

def textOr (default : String) : Option Tree → String
  | some (.text s) => s
  | _ => default

def numberOr (default : Nat) : Option Tree → Nat
  | some (.integer n) => n.toNat
  | _ => default

def flagOr (default : Bool) : Option Tree → Bool
  | some (.flag b) => b
  | _ => default

/-! ## Records as sections -/

/-- The kind of setting that a field of a record is. -/
def Kind.ofRecord : Json.Kind → Kind
  | .natural limit => .number limit
  | .flag => .flag
  | .text | .instant | .date => .text

/-- A field of a record as a setting. -/
def settingOfScalar : Json.Scalar → Tree
  | .text s => .text s
  | .natural n => .integer n
  | .flag b => .flag b
  | .instant t => .text t.text
  | .date d => .text d.text

/-- A setting as a field of a record. -/
def scalarOfSetting : Tree → Option Json.Scalar
  | .text s => some (.text s)
  | .integer n => some (.natural n.toNat)
  | .flag b => some (.flag b)
  | _ => none

/-- The layout of a record of texts, numbers and flags that all have defaults. -/
def Layout.ofRecord {α : Type} (record : Json.Layout α) (default : α) : Layout α where
  fields := record.fields.map fun (name, kind) => (name, .ofRecord kind)
  parts a := (record.parts a).map fun v => some (settingOfScalar v)
  build values := (record.build (values.map fun v => v.bind scalarOfSetting)).getD default

end Almanac.Config
