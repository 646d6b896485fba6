/-
  Almanac.Proofs.Config.Settings

  The sections of a configuration as a file and as a tree. Every layout keeps its section
  (`ofTree?_tree`), if the numbers are in their ranges. A file of the sections describes the tree
  (`parse?_sections`); there is such a file if no number of 64 bits needs the sign
  (`print?_sections`).
-/
import Almanac.Config.Settings
import Almanac.Proofs.Config.Layout
import Almanac.Proofs.Toml.Tables

namespace Almanac.Config

/-! ## Numbers -/

/-- The settings of 16 bits. -/
def ports (c : Config) : List Nat := [c.database.port, c.http.port, c.grpc.port]

/-- The settings of 32 bits. -/
def counts (c : Config) : List Nat := [c.database.maxConnections, c.scheduler.retentionMonths]

/-- The settings of 64 bits. -/
def seconds (c : Config) : List Nat :=
  [c.database.connectTimeoutSeconds, c.scheduler.intervalSeconds, c.scheduler.catchUpSeconds,
    c.drainSeconds]

/-- A configuration whose numbers have no more bits than their settings. -/
structure InRange (c : Config) : Prop where
  ports : ∀ n ∈ c.ports, n ≤ limit16
  counts : ∀ n ∈ c.counts, n ≤ limit32
  seconds : ∀ n ∈ c.seconds, n ≤ limit64

/-! ## Sections -/

theorem LogSection.keeps (s : LogSection) : LogSection.layout.Keeps s :=
  Layout.keeps (by decide) (.cons (settles_text _) (.cons (settles_text _) .nil)) rfl

theorem StorageChoice.keeps (k : StorageChoice) : StorageChoice.layout.Keeps k := by
  have hname : k.name ∈ [StorageChoice.memory.name, StorageChoice.sql.name] := by
    cases k <;> decide
  have hbuild : StorageChoice.layout.build (StorageChoice.layout.parts k) = k := by
    cases k <;> decide
  exact Layout.keeps (by decide) (.cons (settles_choice hname) .nil) hbuild

theorem DatabaseSection.keeps {s : DatabaseSection} (hport : s.port ≤ limit16)
    (hconnections : s.maxConnections ≤ limit32) (htimeout : s.connectTimeoutSeconds ≤ limit64) :
    DatabaseSection.layout.Keeps s := by
  have hbuild : DatabaseSection.layout.build (DatabaseSection.layout.parts s) = s := by
    obtain ⟨url, _⟩ := s
    cases url <;> rfl
  apply Layout.keeps (by decide) _ hbuild
  exact .cons (settles_optionalText _) (.cons (settles_text _) (.cons (settles_number hport)
    (.cons (settles_text _) (.cons (settles_text _) (.cons (settles_text _)
      (.cons (settles_number hconnections) (.cons (settles_number htimeout)
        (.cons (settles_flag _) .nil))))))))

theorem ServerSection.keeps {s : ServerSection} (hport : s.port ≤ limit16) (defaultPort : Nat) :
    (ServerSection.layout defaultPort).Keeps s :=
  Layout.keeps (show List.Nodup ["host", "port"] by decide)
    (.cons (settles_text _) (.cons (settles_number hport) .nil)) rfl

theorem SchedulerSection.keeps {s : SchedulerSection} (hinterval : s.intervalSeconds ≤ limit64)
    (hretention : s.retentionMonths ≤ limit32) (hcatchUp : s.catchUpSeconds ≤ limit64) :
    SchedulerSection.layout.Keeps s :=
  Layout.keeps (by decide) (.cons (settles_number hinterval) (.cons (settles_number hretention)
    (.cons (settles_number hcatchUp) .nil))) rfl

theorem drainLayout_keeps {seconds : Nat} (h : seconds ≤ limit64) : drainLayout.Keeps seconds :=
  Layout.keeps (by decide) (.cons (settles_number h) .nil) rfl

theorem queueLayout_keeps (q : Broker.QueueSettings) : queueLayout.Keeps q :=
  Layout.keeps (by decide) (.cons (settles_text _) (.cons (settles_flag _)
    (.cons (settles_flag _) (.cons (settles_flag _) .nil)))) rfl

theorem consumeLayout_keeps (s : Broker.ConsumeSettings) : consumeLayout.Keeps s :=
  Layout.keeps (by decide) (.cons (settles_text _) (.cons (settles_text _)
    (.cons (settles_flag _) (.cons (settles_flag _) .nil)))) rfl

theorem publishLayout_keeps (p : Broker.PublishSettings) : publishLayout.Keeps p :=
  Layout.keeps (by decide) (.cons (settles_text _) (.cons (settles_text _)
    (.cons (settles_text _) (.cons (settles_flag _) .nil)))) rfl

/-! ## The tree of a configuration -/

/-- The sections of the broker. -/
def brokerParts (c : Config) : List (Option Tree) :=
  [some (.table (queueLayout.settings c.queue)), some (.table (consumeLayout.settings c.consume)),
    some (.table (publishLayout.settings c.publish))]

/-- The sections, and the table of the broker among them. -/
def sectionParts (c : Config) : List (Option Tree) :=
  [some (.table (LogSection.layout.settings c.logger)),
    some (.table (StorageChoice.layout.settings c.storage)),
    some (.table (DatabaseSection.layout.settings c.database)),
    some (.table ((ServerSection.layout defaultHttpPort).settings c.http)),
    some (.table ((ServerSection.layout defaultRpcPort).settings c.grpc)),
    some (.table (SchedulerSection.layout.settings c.scheduler)),
    some (.table (present brokerNames c.brokerParts)),
    some (.table (drainLayout.settings c.drainSeconds))]

/-- A configuration as a tree that says everything. -/
def tree (c : Config) : Tree := .table (present sectionNames c.sectionParts)

theorem ofTree?_tree {c : Config} (h : c.InRange) (fit : Fit) : ofTree? fit c.tree = some c := by
  have hsections : members fit sectionNames c.tree = some c.sectionParts :=
    members_present fit (by decide) rfl
  have hbroker : members fit brokerNames (.table (present brokerNames c.brokerParts)) =
      some c.brokerParts := members_present fit (by decide) rfl
  obtain ⟨hports, hcounts, hseconds⟩ := h
  simp only [ports, counts, seconds, List.forall_mem_cons] at hports hcounts hseconds
  obtain ⟨hdatabase, hhttp, hgrpc, -⟩ := hports
  obtain ⟨hconnections, hretention, -⟩ := hcounts
  obtain ⟨htimeout, hinterval, hcatchUp, hdrain, -⟩ := hseconds
  have hread := DatabaseSection.keeps hdatabase hconnections htimeout fit
  unfold ofTree?
  rw [hsections]
  simp only [Option.bind_eq_bind, Option.bind_some, sectionParts, Option.getD_some, hbroker]
  simp only [brokerParts, LogSection.keeps c.logger fit, StorageChoice.keeps c.storage fit, hread,
    ServerSection.keeps hhttp defaultHttpPort fit, ServerSection.keeps hgrpc defaultRpcPort fit,
    SchedulerSection.keeps hinterval hretention hcatchUp fit, queueLayout_keeps c.queue fit,
    consumeLayout_keeps c.consume fit, publishLayout_keeps c.publish fit,
    drainLayout_keeps hdrain fit, Option.bind_some]

/-! ## The file of a configuration -/

/-- Settings that can stand in a section: their names differ and need no quotes. -/
structure Tidy (settings : List (String × Tree)) : Prop where
  nodup : (Table.keys settings).Nodup
  bare : ∀ setting ∈ settings, Toml.IsBareName setting.1

theorem Tidy.of_layout {α : Type} {l : Layout α} {a : α} (hnodup : l.names.Nodup)
    (hbare : ∀ name ∈ l.names, Toml.IsBareName name) : Tidy (l.settings a) where
  nodup := hnodup.sublist (keys_present l.names (l.parts a))
  bare setting hsetting := hbare setting.1
    ((keys_present l.names (l.parts a)).subset (List.mem_map_of_mem hsetting))

theorem Tidy.of_server {port : Nat} {s : ServerSection} :
    Tidy ((ServerSection.layout port).settings s) :=
  .of_layout (show List.Nodup ["host", "port"] by decide)
    (show ∀ name ∈ ["host", "port"], Toml.IsBareName name by decide)

theorem tidy_sections (c : Config) : ∀ s ∈ c.sections, Tidy s.settings := by
  simp only [sections, List.forall_mem_cons]
  exact ⟨.of_layout (by decide) (by decide), .of_layout (by decide) (by decide),
    .of_layout (by decide) (by decide), .of_server, .of_server,
    .of_layout (by decide) (by decide), .of_layout (by decide) (by decide),
    .of_layout (by decide) (by decide), .of_layout (by decide) (by decide),
    .of_layout (by decide) (by decide), List.forall_mem_nil _⟩

theorem wellFormed_sections (c : Config) : ∀ s ∈ c.sections, s.WellFormed := by
  have hpaths : ∀ path ∈ c.sections.map (·.path),
      path ≠ [] ∧ (∀ name ∈ path, Toml.IsBareName name) ∧ path.length < Toml.depthLimit := by
    show ∀ path ∈ [["logger"], ["storage"], ["database"], ["http_server"], ["grpc_server"],
      ["scheduler"], ["broker", "queue"], ["broker", "consume"], ["broker", "publish"],
      ["shutdown"]], _
    decide
  intro s hs
  obtain ⟨hne, hbare, hshort⟩ := hpaths s.path (List.mem_map_of_mem hs)
  exact ⟨hne, hbare, hshort, (c.tidy_sections s hs).bare⟩

/-- The sections above those of the broker. -/
def upperSections (c : Config) : List Toml.Part :=
  [("logger", LogSection.layout.settings c.logger),
    ("storage", StorageChoice.layout.settings c.storage),
    ("database", DatabaseSection.layout.settings c.database),
    ("http_server", (ServerSection.layout defaultHttpPort).settings c.http),
    ("grpc_server", (ServerSection.layout defaultRpcPort).settings c.grpc),
    ("scheduler", SchedulerSection.layout.settings c.scheduler)]

/-- The sections of the broker. -/
def brokerSections (c : Config) : List Toml.Part :=
  [("queue", queueLayout.settings c.queue), ("consume", consumeLayout.settings c.consume),
    ("publish", publishLayout.settings c.publish)]

/-- The sections below those of the broker. -/
def lowerSections (c : Config) : List Toml.Part :=
  [("shutdown", drainLayout.settings c.drainSeconds)]

theorem sections_eq (c : Config) :
    c.sections = c.upperSections.map Toml.topSection ++
      c.brokerSections.map (Toml.memberSection "broker") ++
      c.lowerSections.map Toml.topSection := rfl

/-- The table of the sections, one after another. -/
theorem addBlocks_sections (c : Config) :
    Toml.addBlocks [] (c.sections.map Toml.Section.block) =
      some (Toml.headersOf c.upperSections ++
        [("broker", .table .passage (Toml.headersOf c.brokerSections))] ++
        Toml.headersOf c.lowerSections) := by
  have htidy := c.tidy_sections
  rw [sections_eq, List.forall_mem_append, List.forall_mem_append, List.forall_mem_map,
    List.forall_mem_map, List.forall_mem_map] at htidy
  obtain ⟨⟨hupper, hbroker⟩, hlower⟩ := htidy
  have hupper : Toml.SideBySide c.upperSections :=
    ⟨show List.Nodup ["logger", "storage", "database", "http_server", "grpc_server", "scheduler"]
      by decide, fun part hpart => (hupper part hpart).nodup⟩
  have hbroker : Toml.SideBySide c.brokerSections :=
    ⟨show brokerNames.Nodup by decide, fun part hpart => (hbroker part hpart).nodup⟩
  have hlower : Toml.SideBySide c.lowerSections :=
    ⟨show List.Nodup ["shutdown"] by decide, fun part hpart => (hlower part hpart).nodup⟩
  -- neither the group nor the section below it has been there before
  have hgroup : Table.get? (Toml.headersOf c.upperSections) "broker" = none :=
    Table.get?_eq_none_iff.mpr
      (show "broker" ∉ ["logger", "storage", "database", "http_server", "grpc_server", "scheduler"]
        by decide)
  have hnew : ∀ key ∈ Table.keys c.lowerSections, Table.get? (Toml.headersOf c.upperSections ++
      [("broker", .table .passage (Toml.headersOf c.brokerSections))]) key = none := by
    rintro key hkey
    obtain rfl := List.mem_singleton.mp hkey
    exact Table.get?_eq_none_iff.mpr
      (show "shutdown" ∉ ["logger", "storage", "database", "http_server", "grpc_server",
        "scheduler", "broker"] by decide)
  have hblocks : c.sections.map Toml.Section.block =
      c.upperSections.map (fun part => (Toml.topSection part).block) ++
        (c.brokerSections.map (fun part => (Toml.memberSection "broker" part).block) ++
          (c.lowerSections.map (fun part => (Toml.topSection part).block) ++ [])) := rfl
  have hsome : c.brokerSections ≠ [] := List.cons_ne_nil _ _
  rw [hblocks, Toml.addBlocks_tops hupper (fun _ _ => rfl), List.nil_append,
    Toml.addBlocks_group hgroup hsome hbroker, Toml.addBlocks_tops hlower hnew]
  rfl

/-- A file of the sections describes the tree of the configuration. -/
theorem parse?_sections {c : Config} {text : String} (h : Toml.print? c.sections = some text) :
    Toml.parse? text = some c.tree := by
  rw [Toml.parse?_of_print? c.wellFormed_sections h, addBlocks_sections]
  simp only [Option.map_some, Toml.treesOf_append, Toml.treesOf_headersOf, Toml.treesOf,
    Toml.Node.tree]
  rfl

/-! ## Settings with a text -/

/-- A part that is missing, or can be written. -/
def HasText (part : Option Tree) : Prop := ∀ value ∈ part, (Toml.scalarText? value).isSome

@[simp] theorem hasText_some (value : Tree) :
    HasText (some value) ↔ (Toml.scalarText? value).isSome :=
  ⟨fun h => h value rfl, by rintro h _ ⟨⟩; exact h⟩

@[simp] theorem hasText_optionalText (s : Option String) : HasText (s.map .text) := by
  intro value hvalue
  obtain ⟨s, -, rfl⟩ := Option.map_eq_some_iff.mp hvalue
  rfl

@[simp] theorem isSome_text (s : String) : (Toml.scalarText? (.text s)).isSome := rfl

@[simp] theorem isSome_flag (b : Bool) : (Toml.scalarText? (.flag b)).isSome := rfl

@[simp] theorem isSome_number (n : Nat) :
    (Toml.scalarText? (.integer n)).isSome ↔ n ≤ 9223372036854775807 := by
  have hrange : (-9223372036854775808 ≤ (n : Int) ∧ (n : Int) ≤ 9223372036854775807) ↔
      n ≤ 9223372036854775807 := by omega
  rw [Toml.scalarText?, ← hrange]
  split <;> simp_all

/-- The settings of a section can be written if its parts can. -/
theorem isSome_settings_iff {α : Type} {l : Layout α} {a : α}
    (hlength : (l.parts a).length = l.names.length) :
    (∀ setting ∈ l.settings a, (Toml.scalarText? setting.2).isSome) ↔
      ∀ part ∈ l.parts a, HasText part := by
  apply Iff.trans (forall_present hlength fun value => (Toml.scalarText? value).isSome)
  constructor
  · rintro h part hpart value rfl
    exact h value hpart
  · intro h value hvalue
    exact h _ hvalue value rfl

/-- Of the sections of the broker, all settings are texts and flags. -/
theorem forall_hasText_ofRecord {α : Type} (record : Json.Layout α) (default a : α)
    (h : ∀ v ∈ record.parts a, (∃ s, v = .text s) ∨ ∃ b, v = .flag b) :
    ∀ part ∈ (Layout.ofRecord record default).parts a, HasText part := by
  intro part hpart
  obtain ⟨v, hv, rfl⟩ := List.mem_map.mp hpart
  rcases h v hv with ⟨s, rfl⟩ | ⟨b, rfl⟩
  · simp [settingOfScalar]
  · simp [settingOfScalar]

theorem print?_sections {c : Config} (h : c.InRange) :
    (Toml.print? c.sections).isSome ↔ ∀ n ∈ c.seconds, n ≤ 9223372036854775807 := by
  obtain ⟨hports, hcounts, -⟩ := h
  simp only [ports, counts, limit16, limit32, List.forall_mem_cons] at hports hcounts
  have hqueue : ∀ part ∈ queueLayout.parts c.queue, HasText part :=
    forall_hasText_ofRecord _ _ _ (by simp [Broker.QueueSettings.layout])
  have hconsume : ∀ part ∈ consumeLayout.parts c.consume, HasText part :=
    forall_hasText_ofRecord _ _ _ (by simp [Broker.ConsumeSettings.layout])
  have hpublish : ∀ part ∈ publishLayout.parts c.publish, HasText part :=
    forall_hasText_ofRecord _ _ _ (by simp [Broker.PublishSettings.layout])
  rw [Toml.print?_isSome]
  simp only [sections, List.forall_mem_cons]
  repeat rw [isSome_settings_iff rfl]
  rw [iff_true_intro hqueue, iff_true_intro hconsume, iff_true_intro hpublish]
  -- texts and flags can always be written, and numbers of 32 bits too
  simp [LogSection.layout, StorageChoice.layout, DatabaseSection.layout, ServerSection.layout,
    SchedulerSection.layout, drainLayout, text, number, seconds]
  omega

end Almanac.Config
