/-
  Almanac.Config.Settings

  The configuration of the service: its settings, their defaults, and the sections they
  stand in. `sections` lists the settings section by section, and `ofTree?` reads them
  from a tree.
-/
import Almanac.Broker.Settings
import Almanac.Config.Layout
import Almanac.Toml.Printer

namespace Almanac

namespace Config

/-! ## Sections -/

/-- Settings of the log: the names of a level and a format. -/
structure LogSection where
  level : String := "info"
  format : String := "compact"
deriving DecidableEq, Inhabited

/-- Where users and events are kept. -/
inductive StorageChoice
  /-- In memory, until the service ends. -/
  | memory
  /-- In a database. -/
  | sql
deriving DecidableEq, Repr, Inhabited

def StorageChoice.name : StorageChoice → String
  | memory => "memory"
  | sql => "sql"

def StorageChoice.ofName? (s : String) : Option StorageChoice := [memory, sql].find? (·.name == s)

/-- Settings of the database. -/
structure DatabaseSection where
  /-- The whole address; it comes before the single parts. -/
  url : Option String := none
  host : String := "localhost"
  port : Nat := 5432
  databaseName : String := "calendar"
  userName : String := "calendar"
  password : String := ""
  maxConnections : Nat := 5
  connectTimeoutSeconds : Nat := 5
  /-- Brings the tables of the database up to date at the start. -/
  migrate : Bool := true
deriving DecidableEq, Inhabited

/-- Where a server listens. -/
structure ServerSection where
  host : String := "127.0.0.1"
  port : Nat
deriving DecidableEq, Inhabited

/-- Settings of the scheduler. -/
structure SchedulerSection where
  intervalSeconds : Nat := 1
  retentionMonths : Nat := 12
  /-- How far the first tick looks back. -/
  catchUpSeconds : Nat := 60
deriving DecidableEq, Inhabited

/-- The largest number of 16 bits. -/
def limit16 : Nat := 65535

/-- The largest number of 32 bits. -/
def limit32 : Nat := 4294967295

/-- The largest number of 64 bits. -/
def limit64 : Nat := 18446744073709551615

def number (n : Nat) : Option Tree := some (.integer n)

def text (s : String) : Option Tree := some (.text s)

def LogSection.layout : Layout LogSection where
  fields := [("level", .text), ("format", .text)]
  parts s := [text s.level, text s.format]
  build
    | [level, format] =>
      let d : LogSection := {}
      { level := textOr d.level level, format := textOr d.format format }
    | _ => {}

def StorageChoice.layout : Layout StorageChoice where
  fields := [("kind", .choice [StorageChoice.memory.name, StorageChoice.sql.name])]
  parts k := [text k.name]
  build
    | [name] => (StorageChoice.ofName? (textOr "" name)).getD .memory
    | _ => .memory

def DatabaseSection.layout : Layout DatabaseSection where
  fields := [("url", .optionalText), ("host", .text), ("port", .number limit16),
    ("database_name", .text), ("user_name", .text), ("password", .text),
    ("max_connections", .number limit32), ("connect_timeout_secs", .number limit64),
    ("migrate", .flag)]
  parts s := [s.url.map .text, text s.host, number s.port, text s.databaseName, text s.userName,
    text s.password, number s.maxConnections, number s.connectTimeoutSeconds,
    some (.flag s.migrate)]
  build
    | [url, host, port, databaseName, userName, password, maxConnections, timeout, migrate] =>
      let d : DatabaseSection := {}
      { url := url.map fun u => textOr "" (some u)
        host := textOr d.host host
        port := numberOr d.port port
        databaseName := textOr d.databaseName databaseName
        userName := textOr d.userName userName
        password := textOr d.password password
        maxConnections := numberOr d.maxConnections maxConnections
        connectTimeoutSeconds := numberOr d.connectTimeoutSeconds timeout
        migrate := flagOr d.migrate migrate }
    | _ => {}

def ServerSection.layout (defaultPort : Nat) : Layout ServerSection where
  fields := [("host", .text), ("port", .number limit16)]
  parts s := [text s.host, number s.port]
  build
    | [host, port] =>
      let d : ServerSection := { port := defaultPort }
      { host := textOr d.host host, port := numberOr d.port port }
    | _ => { port := defaultPort }

def SchedulerSection.layout : Layout SchedulerSection where
  fields := [("interval_secs", .number limit64), ("retention_months", .number limit32),
    ("catch_up_secs", .number limit64)]
  parts s := [number s.intervalSeconds, number s.retentionMonths, number s.catchUpSeconds]
  build
    | [interval, retention, catchUp] =>
      let d : SchedulerSection := {}
      { intervalSeconds := numberOr d.intervalSeconds interval
        retentionMonths := numberOr d.retentionMonths retention
        catchUpSeconds := numberOr d.catchUpSeconds catchUp }
    | _ => {}

/-- How many seconds a step of the teardown may take, unless something else is said. -/
def defaultDrainSeconds : Nat := 5

def drainLayout : Layout Nat where
  fields := [("drain_timeout_secs", .number limit64)]
  parts seconds := [number seconds]
  build
    | [seconds] => numberOr defaultDrainSeconds seconds
    | _ => defaultDrainSeconds

def queueLayout : Layout Broker.QueueSettings := .ofRecord Broker.QueueSettings.layout {}

def consumeLayout : Layout Broker.ConsumeSettings := .ofRecord Broker.ConsumeSettings.layout {}

def publishLayout : Layout Broker.PublishSettings := .ofRecord Broker.PublishSettings.layout {}

/-- The port of the HTTP server, unless another is chosen. -/
def defaultHttpPort : Nat := 8080

/-- The port of the gRPC server, unless another is chosen. -/
def defaultRpcPort : Nat := 50051

end Config

/-- The configuration of the service. -/
structure Config where
  logger : Config.LogSection := {}
  storage : Config.StorageChoice := .memory
  database : Config.DatabaseSection := {}
  http : Config.ServerSection := { port := Config.defaultHttpPort }
  grpc : Config.ServerSection := { port := Config.defaultRpcPort }
  scheduler : Config.SchedulerSection := {}
  queue : Broker.QueueSettings := {}
  consume : Broker.ConsumeSettings := {}
  publish : Broker.PublishSettings := {}
  /-- How many seconds a step of the teardown may take. -/
  drainSeconds : Nat := Config.defaultDrainSeconds
deriving DecidableEq, Inhabited

namespace Config

def sections (c : Config) : List Toml.Section :=
  [⟨["logger"], LogSection.layout.settings c.logger⟩,
   ⟨["storage"], StorageChoice.layout.settings c.storage⟩,
   ⟨["database"], DatabaseSection.layout.settings c.database⟩,
   ⟨["http_server"], (ServerSection.layout defaultHttpPort).settings c.http⟩,
   ⟨["grpc_server"], (ServerSection.layout defaultRpcPort).settings c.grpc⟩,
   ⟨["scheduler"], SchedulerSection.layout.settings c.scheduler⟩,
   ⟨["broker", "queue"], queueLayout.settings c.queue⟩,
   ⟨["broker", "consume"], consumeLayout.settings c.consume⟩,
   ⟨["broker", "publish"], publishLayout.settings c.publish⟩,
   ⟨["shutdown"], drainLayout.settings c.drainSeconds⟩]

/-- The names of the sections and of the group of sections, in order. -/
def sectionNames : List String :=
  ["logger", "storage", "database", "http_server", "grpc_server", "scheduler", "broker", "shutdown"]

/-- The names of the sections of the broker, in order. -/
def brokerNames : List String := ["queue", "consume", "publish"]

def ofTree? (fit : Fit) (tree : Tree) : Option Config := do
  match ← members fit sectionNames tree with
  | [logger, storage, database, http, grpc, scheduler, broker, shutdown] =>
    match ← members fit brokerNames (broker.getD (.table [])) with
    | [queue, consume, publish] =>
      some {
        logger := ← LogSection.layout.read fit logger
        storage := ← StorageChoice.layout.read fit storage
        database := ← DatabaseSection.layout.read fit database
        http := ← (ServerSection.layout defaultHttpPort).read fit http
        grpc := ← (ServerSection.layout defaultRpcPort).read fit grpc
        scheduler := ← SchedulerSection.layout.read fit scheduler
        queue := ← queueLayout.read fit queue
        consume := ← consumeLayout.read fit consume
        publish := ← publishLayout.read fit publish
        drainSeconds := ← drainLayout.read fit shutdown }
    | _ => none
  | _ => none

end Config

end Almanac
