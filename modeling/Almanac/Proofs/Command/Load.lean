/-
  Almanac.Proofs.Command.Load

  Writing a configuration as a file and reading it. A configuration can be written if no number of
  64 bits needs the sign, and then the file holds this configuration.
-/
import Almanac.Command.Load
import Almanac.Proofs.Config.Settings

namespace Almanac.Command

theorem dump_eq_ok_iff {c : Config} {text : String} :
    dump c = .ok text ↔ Toml.print? c.sections = some text := by
  unfold dump
  split
  · next found h => simp [h]
  · next h => simp [h]

/-- What was written is read back, and can be written just when the numbers of 64 bits fit into
    numbers with a sign. -/
theorem load_of_dump {c : Config} (h : c.InRange) :
    ((∃ text, dump c = .ok text) ↔ ∀ n ∈ c.seconds, n ≤ 9223372036854775807) ∧
      ∀ text, dump c = .ok text → ∀ path, load path (some (utf8 text)) = .ok c := by
  constructor
  · rw [← Config.print?_sections h, Option.isSome_iff_exists]
    simp only [dump_eq_ok_iff]
  · intro text htext path
    have hparse := Config.parse?_sections (dump_eq_ok_iff.mp htext)
    simp only [load, ofUtf8?_utf8, hparse, Option.bind_some, Config.ofTree?_tree h]

/-- A configuration whose texts hold quotes of both kinds, line ends and controls. -/
def wildConfig : Config where
  logger := { level := "\"\"\"in\\fo'''", format := "com\r\npact\n" }
  storage := .sql
  database := {
    url := some "postgres://\x01\x7f#=[]\"'"
    port := 65535
    password := "\n\n'''\t\"\"\"" }
  scheduler := { intervalSeconds := 9223372036854775807, retentionMonths := 4294967295 }
  publish := { exchange := "broker.queue = 'é'" }
  drainSeconds := 0

/-- It is written and read back, wherever the file is. -/
theorem wildConfig_loaded :
    wildConfig.InRange ∧ ∃ text, dump wildConfig = .ok text ∧
      ∀ path, load path (some (utf8 text)) = .ok wildConfig := by
  have hrange : wildConfig.InRange := ⟨by decide, by decide, by decide⟩
  obtain ⟨hwritten, hread⟩ := load_of_dump hrange
  obtain ⟨text, htext⟩ := hwritten.mpr (by decide)
  exact ⟨hrange, text, htext, hread text htext⟩

end Almanac.Command
