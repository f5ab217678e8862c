import DownloadQueue.Command
import DownloadQueue.CommandLine
import DownloadQueue.Config
import DownloadQueue.Controller
import DownloadQueue.Counter
import DownloadQueue.Decimal
import DownloadQueue.Decimal.Shortest
import DownloadQueue.Duration
import DownloadQueue.Enclosure
import DownloadQueue.Error
import DownloadQueue.Event
import DownloadQueue.Fetch.Basic
import DownloadQueue.Fetch.ContentRange
import DownloadQueue.Fetch.Run
import DownloadQueue.FileSystem.Basic
import DownloadQueue.FileSystem.Change
import DownloadQueue.Http.Request
import DownloadQueue.Http.Response
import DownloadQueue.Item.Basic
import DownloadQueue.Json.Basic
import DownloadQueue.Json.Decode
import DownloadQueue.Json.Float
import DownloadQueue.Json.Printer
import DownloadQueue.Json.Reader
import DownloadQueue.Main
import DownloadQueue.Path
import DownloadQueue.Program.Disk
import DownloadQueue.Program.Network
import DownloadQueue.QueueFile
import DownloadQueue.Rehearsal
import DownloadQueue.Retry
import DownloadQueue.Scheduler.Adding
import DownloadQueue.Scheduler.Admission
import DownloadQueue.Scheduler.Basic
import DownloadQueue.Scheduler.Commit
import DownloadQueue.Scheduler.Control
import DownloadQueue.Scheduler.Dispatch
import DownloadQueue.Scheduler.Lifecycle
import DownloadQueue.Scheduler.Message
import DownloadQueue.Scheduler.Timer
import DownloadQueue.Snapshot
import DownloadQueue.Table
import DownloadQueue.Text.Blank
import DownloadQueue.Text.CodePoints
import DownloadQueue.Text.CombiningClass
import DownloadQueue.Text.Composite
import DownloadQueue.Text.Direction
import DownloadQueue.Text.Joining
import DownloadQueue.Text.Mark
import DownloadQueue.Text.Normal
import DownloadQueue.Text.Printable
import DownloadQueue.Text.Quoted
import DownloadQueue.TextQueue
import DownloadQueue.Timestamp.Basic
import DownloadQueue.Timestamp.Calendar
import DownloadQueue.Timestamp.Printer
import DownloadQueue.Timestamp.Reader
import DownloadQueue.Transfer
import DownloadQueue.Url.Basic
import DownloadQueue.Url.Domain
import DownloadQueue.Url.DomainMapping
import DownloadQueue.Url.Host
import DownloadQueue.Url.Percent
import DownloadQueue.Url.Punycode
import DownloadQueue.Wire.Command
import DownloadQueue.Wire.Config
import DownloadQueue.Wire.Event
import DownloadQueue.Wire.Item
import DownloadQueue.Wire.Snapshot
import DownloadQueue.Proofs.Path
import DownloadQueue.Proofs.FileSystem.Places
import DownloadQueue.Proofs.FileSystem.Edits
import DownloadQueue.Proofs.FileSystem.Moves
import DownloadQueue.Proofs.FileSystem.Directories
import DownloadQueue.Proofs.ContentRange
import DownloadQueue.Proofs.Fetch
import DownloadQueue.Proofs.Table
import DownloadQueue.Proofs.Change
import DownloadQueue.Proofs.Operation
import DownloadQueue.Proofs.Commands
import DownloadQueue.Proofs.Binding
import DownloadQueue.Proofs.Destinations
import DownloadQueue.Proofs.Json.Literals
import DownloadQueue.Proofs.Json.RoundTrip
import DownloadQueue.Proofs.QueueFile
import DownloadQueue.Proofs.AtomicSave
import DownloadQueue.Proofs.Attribution
import DownloadQueue.Proofs.Contents
import DownloadQueue.Proofs.Integrity
import DownloadQueue.Proofs.Rounds
import DownloadQueue.Proofs.Saturation
import DownloadQueue.Proofs.Refusals
import DownloadQueue.Proofs.Durability
import DownloadQueue.Proofs.Retries
import DownloadQueue.Proofs.Idleness
import DownloadQueue.Proofs.Records
import DownloadQueue.Proofs.Closing
import DownloadQueue.Proofs.Startup
import DownloadQueue.Proofs.Restart
import DownloadQueue.Proofs.Removals
import DownloadQueue.Proofs.Stops
import DownloadQueue.Proofs.Resumption
import DownloadQueue.Proofs.Notices
import DownloadQueue.Proofs.Stories
import DownloadQueue.Proofs.Chronicle
import DownloadQueue.Proofs.Complete
import DownloadQueue.Proofs.Departures
import DownloadQueue.Proofs.FileSystem.Apart
import DownloadQueue.Proofs.Imprints
import DownloadQueue.Proofs.Exchange
import DownloadQueue.Proofs.Salvage
import DownloadQueue.Proofs.Postings
import DownloadQueue.Proofs.Accounts
import DownloadQueue.Proofs.Progress
import DownloadQueue.Proofs.Reports
import DownloadQueue.Proofs.Shifts
import DownloadQueue.Proofs.Sizes
import DownloadQueue.Proofs.Admission
import DownloadQueue.Proofs.Lowering
import DownloadQueue.Proofs.Batches
import DownloadQueue.Proofs.Additions
import DownloadQueue.Proofs.Repetition
import DownloadQueue.Proofs.Resolution
import DownloadQueue.Proofs.Truncation
import DownloadQueue.Proofs.TextQueue
import DownloadQueue.Proofs.Locality
import DownloadQueue.Proofs.Wire
import DownloadQueue.Proofs.Sessions
import DownloadQueue.Proofs.Snapshots
