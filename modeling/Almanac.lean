import Almanac.Action
import Almanac.Broker.Client
import Almanac.Broker.Error
import Almanac.Broker.Queue
import Almanac.Broker.Settings
import Almanac.Broker.State
import Almanac.Calendar
import Almanac.Command.Error
import Almanac.Command.Load
import Almanac.Command.Run
import Almanac.Command.Usage
import Almanac.Config.Check
import Almanac.Config.Layout
import Almanac.Config.Settings
import Almanac.Event
import Almanac.Http.Body
import Almanac.Http.MediaType
import Almanac.Http.Router
import Almanac.Http.Target
import Almanac.Json.Lexeme
import Almanac.Json.Record
import Almanac.Json.Skip
import Almanac.Json.Window
import Almanac.Logging.Filter
import Almanac.Logging.Level
import Almanac.Logging.Settings
import Almanac.Main
import Almanac.Net.Address
import Almanac.Net.Listener
import Almanac.Notification
import Almanac.Proofs.Action
import Almanac.Proofs.Broker.Attended
import Almanac.Proofs.Broker.AutoDelete
import Almanac.Proofs.Broker.Balance
import Almanac.Proofs.Broker.Blocks
import Almanac.Proofs.Broker.Bodies
import Almanac.Proofs.Broker.Connected
import Almanac.Proofs.Broker.Conservation
import Almanac.Proofs.Broker.ConsumerTags
import Almanac.Proofs.Broker.DeliveryTags
import Almanac.Proofs.Broker.Dispatch
import Almanac.Proofs.Broker.Drained
import Almanac.Proofs.Broker.EachQueue
import Almanac.Proofs.Broker.Effect
import Almanac.Proofs.Broker.Exclusive
import Almanac.Proofs.Broker.Fairness
import Almanac.Proofs.Broker.FirstInFirstOut
import Almanac.Proofs.Broker.Journal
import Almanac.Proofs.Broker.Leaving
import Almanac.Proofs.Broker.Ledger
import Almanac.Proofs.Broker.Origins
import Almanac.Proofs.Broker.Owned
import Almanac.Proofs.Broker.Recorded
import Almanac.Proofs.Broker.Recounted
import Almanac.Proofs.Broker.Redelivered
import Almanac.Proofs.Broker.Refused
import Almanac.Proofs.Broker.Registered
import Almanac.Proofs.Broker.Removal
import Almanac.Proofs.Broker.Retagged
import Almanac.Proofs.Broker.Rotation
import Almanac.Proofs.Broker.RoundRobin
import Almanac.Proofs.Broker.Run
import Almanac.Proofs.Broker.Serving
import Almanac.Proofs.Broker.Settling
import Almanac.Proofs.Broker.Sound
import Almanac.Proofs.Broker.Stopped
import Almanac.Proofs.Broker.Terminating
import Almanac.Proofs.Broker.Turns
import Almanac.Proofs.Broker.VisitOrder
import Almanac.Proofs.Calendar.Brought
import Almanac.Proofs.Calendar.Directory
import Almanac.Proofs.Calendar.FrontEnds
import Almanac.Proofs.Calendar.Linearized
import Almanac.Proofs.Calendar.Refinement
import Almanac.Proofs.Calendar.Sent
import Almanac.Proofs.Calendar.Tiling
import Almanac.Proofs.Calendar.Traffic
import Almanac.Proofs.Calendar.Visits
import Almanac.Proofs.Calendar.WellFormed
import Almanac.Proofs.Calendar.Windowed
import Almanac.Proofs.Calendar.WriteBack
import Almanac.Proofs.Command.Load
import Almanac.Proofs.Config.Address
import Almanac.Proofs.Config.Layout
import Almanac.Proofs.Config.Settings
import Almanac.Proofs.Http.Escape
import Almanac.Proofs.Http.Failures
import Almanac.Proofs.Http.Routed
import Almanac.Proofs.Json.Admitted
import Almanac.Proofs.Json.Domain
import Almanac.Proofs.Json.Lexeme
import Almanac.Proofs.Json.Number
import Almanac.Proofs.Json.Record
import Almanac.Proofs.Notification
import Almanac.Proofs.Pipeline.InOrder
import Almanac.Proofs.Pipeline.Step
import Almanac.Proofs.Protobuf.Field
import Almanac.Proofs.Rehearsal.Alarms
import Almanac.Proofs.Rehearsal.Attending
import Almanac.Proofs.Rehearsal.BrokerLast
import Almanac.Proofs.Rehearsal.Calm
import Almanac.Proofs.Rehearsal.Delivering
import Almanac.Proofs.Rehearsal.FailFast
import Almanac.Proofs.Rehearsal.Hosted
import Almanac.Proofs.Rehearsal.Reliable
import Almanac.Proofs.Rehearsal.Staffed
import Almanac.Proofs.Rehearsal.Tasks
import Almanac.Proofs.Rehearsal.Tended
import Almanac.Proofs.Rpc.Called
import Almanac.Proofs.Rpc.Message
import Almanac.Proofs.Scheduler.Accounts
import Almanac.Proofs.Scheduler.Deeds
import Almanac.Proofs.Scheduler.ExactlyOnce
import Almanac.Proofs.Scheduler.FailedSelection
import Almanac.Proofs.Scheduler.FirstTick
import Almanac.Proofs.Scheduler.Process
import Almanac.Proofs.Scheduler.Retention
import Almanac.Proofs.Scheduler.Step
import Almanac.Proofs.Scheduler.Sweep
import Almanac.Proofs.Sender
import Almanac.Proofs.Sender.Accounts
import Almanac.Proofs.Sender.Exits
import Almanac.Proofs.Sender.Loop
import Almanac.Proofs.Shutdown
import Almanac.Proofs.Shutdown.Crowd
import Almanac.Proofs.Storage.DueWindows
import Almanac.Proofs.Storage.Keyed
import Almanac.Proofs.Storage.Listing
import Almanac.Proofs.Storage.Queries
import Almanac.Proofs.Supervisor.Step
import Almanac.Proofs.Supervisor.Teardown
import Almanac.Proofs.Table
import Almanac.Proofs.Text.Decimal
import Almanac.Proofs.Text.Pieces
import Almanac.Proofs.Time.Civil
import Almanac.Proofs.Time.Dates
import Almanac.Proofs.Time.Months
import Almanac.Proofs.Time.Notation
import Almanac.Proofs.Time.Order
import Almanac.Proofs.Time.Window
import Almanac.Proofs.Toml.Scalars
import Almanac.Proofs.Toml.Sections
import Almanac.Proofs.Toml.Strings
import Almanac.Proofs.Toml.Tables
import Almanac.Protobuf.Field
import Almanac.Protobuf.Varint
import Almanac.Rehearsal.Clock
import Almanac.Rehearsal.Fault
import Almanac.Rehearsal.Front
import Almanac.Rehearsal.Gate
import Almanac.Rehearsal.Handles
import Almanac.Rehearsal.Service
import Almanac.Rehearsal.Task
import Almanac.Rehearsal.World
import Almanac.Rpc.Message
import Almanac.Rpc.Service
import Almanac.Scheduler.Tally
import Almanac.Scheduler.Tick
import Almanac.Sender
import Almanac.Service.Error
import Almanac.Shutdown
import Almanac.Storage.Backend
import Almanac.Storage.Error
import Almanac.Storage.Identifier
import Almanac.Storage.Store
import Almanac.Supervisor
import Almanac.Table
import Almanac.Text.Alphanumeric
import Almanac.Text.Blank
import Almanac.Text.Bytes
import Almanac.Text.Case
import Almanac.Text.Decimal
import Almanac.Text.Pieces
import Almanac.Text.Printable
import Almanac.Text.Quoted
import Almanac.Text.Ranges
import Almanac.Time.Civil
import Almanac.Time.Instant
import Almanac.Time.Notation
import Almanac.Time.Window
import Almanac.Toml.Document
import Almanac.Toml.Line
import Almanac.Toml.Node
import Almanac.Toml.Printer
import Almanac.Toml.Scalar
import Almanac.Tree
import Almanac.User
