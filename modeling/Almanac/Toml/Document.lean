/-
  Almanac.Toml.Document

  TOML files as a whole: the entries at the top, and blocks of entries under headers.
  `parse?` reads the table that a file describes.
-/
import Almanac.Toml.Line

namespace Almanac.Toml

/-- A header and the entries under it. -/
structure Block where
  /-- The block is one table of a list. -/
  isItem : Bool
  path : List String
  key : String
  entries : List Entry

/-- The lines of a file in order: entries above the first header, and blocks. -/
def blocksOf : List Line → List Entry × List Block
  | [] => ([], [])
  | line :: rest =>
    let (entries, blocks) := blocksOf rest
    match line with
    | .entry e => (e :: entries, blocks)
    | .header path key => ([], ⟨false, path, key, entries⟩ :: blocks)
    | .item path key => ([], ⟨true, path, key, entries⟩ :: blocks)

/-- Adds the table of a block under its key. A table may have been named only by longer headers
    before, and a list only by headers of its items. -/
def Block.place (b : Block) (entries : Entries) : Option Entries :=
  if b.isItem then
    match entries.get? b.key with
    | none => do some (entries.insert b.key (.tables [← fill [] b.entries]))
    | some (.tables items) => do
      some (entries.insert b.key (.tables (items ++ [← fill [] b.entries])))
    | _ => none
  else
    match entries.get? b.key with
    | none => do some (entries.insert b.key (.table .header (← fill [] b.entries)))
    | some (.table .passage inner) => do
      some (entries.insert b.key (.table .header (← fill inner b.entries)))
    | _ => none

/-- Adds blocks to a table, one after another. -/
def addBlocks (root : Entries) : List Block → Option Entries
  | [] => some root
  | b :: rest => do
    addBlocks (← descend .passage (fun _ entries => b.place entries) .header b.path root) rest

/-- The text behind a byte order mark, if it starts with one. -/
def skipMark : List Char → List Char
  | '\ufeff' :: cs => cs
  | cs => cs

/-- The table that a file describes. -/
def parse? (text : String) : Option Tree := do
  let cs := skipMark text.toList
  let (top, blocks) := blocksOf (← readLines (cs.length + 1) cs)
  some (.table (treesOf (← addBlocks (← fill [] top) blocks)))

end Almanac.Toml
