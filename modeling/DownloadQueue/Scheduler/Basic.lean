import DownloadQueue.Config
import DownloadQueue.Event
import DownloadQueue.QueueFile
import DownloadQueue.Snapshot
import DownloadQueue.Transfer

/-!
The state of the queue's scheduler and the small changes that its operations are made of.

The scheduler is the only one who changes the table. It looks at the outside world through the file
tree, the clock and the messages of its workers, and it leaves behind what it told others and asked
of them: events, fetches begun, partial files removed and snapshots.
-/

namespace DownloadQueue

/-- A timer that puts its item's number on the retry channel when it is due. -/
structure Timer where
  /-- Tells apart the timers that one item had. -/
  serial : Nat
  id : ItemId
  due : Nat
  deriving DecidableEq, Repr

structure Removal where
  destination : Path
  /-- The destinations of the items that had a worker at that moment. -/
  held : List Path
  deriving DecidableEq, Repr

structure Scheduler where
  config : Config
  table : Table
  active : List Binding := []
  maxConcurrent : UInt64
  autoDownload : Bool
  shuttingDown : Bool := false
  admissions : Nat := 0
  /-- The table holds changes that the queue file does not. -/
  dirty : Bool := false
  inbox : List Message := []
  timers : List Timer := []
  /-- The items that wait to be tried again, with the serial of the timer. -/
  pending : List (ItemId × Nat) := []
  nextSerial : Nat := 0
  /-- Items whose timer went off, oldest first. -/
  retries : List ItemId := []
  files : FileSystem
  clock : Nat := 0
  now : Timestamp
  share : Float
  events : List Event := []
  fetches : List FetchRequest := []
  removals : List Removal := []
  snapshots : List Snapshot := []

/-- What an operation leaves: the scheduler, and its result or the counter that overflowed. -/
structure Step (α : Type) where
  scheduler : Scheduler
  result : Except Overflow α

namespace Step

def done {α : Type} (scheduler : Scheduler) (value : α) : Step α :=
  ⟨scheduler, .ok value⟩

def stopped {α : Type} (scheduler : Scheduler) (overflow : Overflow) : Step α :=
  ⟨scheduler, .error overflow⟩

/-- Two operations in a row; nothing follows an overflow. -/
def andThen {α β : Type} (step : Step α) (next : Scheduler → α → Step β) : Step β :=
  match step.result with
  | .ok value => next step.scheduler value
  | .error overflow => stopped step.scheduler overflow

end Step

namespace Scheduler

def ofTable (config : Config) (table : Table) (files : FileSystem) (now : Timestamp)
    (share : Float) : Scheduler :=
  { config, table, files, now, share, maxConcurrent := config.queue.maxConcurrent,
    autoDownload := config.queue.autoDownload }

def emit (s : Scheduler) (event : Event) : Scheduler :=
  { s with events := s.events ++ [event] }

def binding? (s : Scheduler) (id : ItemId) : Option Binding :=
  s.active.find? fun binding => binding.id = id

def isBound (s : Scheduler) (id : ItemId) : Bool :=
  s.active.any fun binding => binding.id = id

def unbind (s : Scheduler) (id : ItemId) : Scheduler :=
  { s with active := s.active.filter fun binding => binding.id ≠ id }

def rebind (s : Scheduler) (id : ItemId) (change : Binding → Binding) : Scheduler :=
  { s with
    active := s.active.map fun binding => if binding.id = id then change binding else binding }

def modifyItem (s : Scheduler) (id : ItemId) (change : Item → Item) : Scheduler :=
  { s with table := s.table.modify id change }

def markDirty (s : Scheduler) : Scheduler :=
  { s with dirty := true }

/-- An item that gets a status; an error is kept only by failed items. -/
def withStatus (status : Status) (item : Item) : Item :=
  { item with status, lastError := if status = .failed then item.lastError else none }

def setStatus (s : Scheduler) (id : ItemId) (status : Status) : Scheduler :=
  match s.table.get? id with
  | none => s
  | some item =>
    if item.status = status then s
    else
      ((s.modifyItem id (withStatus status)).markDirty).emit (.statusChanged id item.status status)

def held (s : Scheduler) : List Path :=
  s.active.filterMap fun binding => (s.table.get? binding.id).map Item.destination

def discardPartial (s : Scheduler) (id : ItemId) : Scheduler :=
  match s.table.get? id with
  | none => s
  | some item =>
    let files := (s.files.removePartial item.destination).toOption.getD s.files
    let removal : Removal := { destination := item.destination, held := s.held }
    let s := { s with files, removals := s.removals ++ [removal] }
    (s.modifyItem id fun item => { item with bytesDownloaded := 0, bytesTotal := none }).markDirty

def reconcile (s : Scheduler) (id : ItemId) : Scheduler :=
  match s.table.get? id with
  | none => s
  | some item =>
    let length := s.files.fileLength item.destination
    if length = item.bytesDownloaded then s
    else (s.modifyItem id fun item => { item with bytesDownloaded := length }).markDirty

def dropDeleted (s : Scheduler) : Nat × Scheduler :=
  let (removed, table) :=
    s.table.retain fun item => item.status ≠ .deleted || s.isBound item.id
  (removed.length, removed.foldl (fun s item => s.emit (.removed item.id)) { s with table })

end Scheduler

end DownloadQueue
