import DownloadQueue.Counter
import DownloadQueue.Enclosure
import DownloadQueue.Scheduler.Admission
import DownloadQueue.TextQueue

namespace DownloadQueue.Scheduler

/--
No new item may have this destination. A deleted item holds its destination until its worker has
stopped writing to it.
-/
def destinationTaken (s : Scheduler) (destination : Path) : Bool :=
  (s.table.itemsAt destination).any fun item => item.status ≠ .deleted || s.isBound item.id

def newDestination (s : Scheduler) (url : String) (destination : Path) :
    Except QueueError Path := do
  let _ ← validateUrl url
  match resolveDestination s.files.cwd s.config.queue.downloadDir destination with
  | .error error => .error (.io ⟨.other, error.message⟩)
  | .ok destination =>
    if s.destinationTaken destination then .error (.duplicate destination) else .ok destination

def foundItem (item : Item) (status : Option Status) (length : Option UInt64) : Item :=
  match status, length with
  | some status, length =>
    { item with status, bytesDownloaded := length.getD 0, bytesTotal := length }
  | none, some length =>
    { item with status := .alreadyDownloaded, bytesDownloaded := length, bytesTotal := some length }
  | none, none => item

def addItem (s : Scheduler) (url : String) (destination : Path) (status : Option Status) :
    Step ItemId :=
  match s.table.takeId with
  | .error overflow => .stopped s overflow
  | .ok (id, table) =>
    let length := (s.files.fileLength? destination).map UInt64.ofNat
    let item := foundItem (Item.new id url destination s.now) status length
    let s := { s with table }.emit (.queued id url)
    match s.table.upsert item with
    | .error overflow => .stopped s overflow
    | .ok table => .done { s with table } id

def enqueue (s : Scheduler) (url : String) (destination : Path) : Step (Except QueueError ItemId) :=
  match s.newDestination url destination with
  | .error error => .done s (.error error)
  | .ok destination =>
    (s.addItem url destination none).andThen fun s id => .done s.markDirty.tick (.ok id)

def addEntries (s : Scheduler) (count : Nat) : List TextQueue.Entry → Step Nat
  | [] => .done s count
  | entry :: entries =>
    match s.newDestination entry.url entry.destination with
    | .error _ => s.addEntries count entries
    | .ok destination =>
      (s.addItem entry.url destination entry.status).andThen fun s _ =>
        s.addEntries (count + 1) entries

/-- Adds the entries of a plain-text queue; those that cannot be added are passed over. -/
def addAll (s : Scheduler) (entries : List TextQueue.Entry) : Step Nat :=
  (s.addEntries 0 entries).andThen fun s count =>
    .done (if 0 < count then s.markDirty.tick else s) count

end DownloadQueue.Scheduler
