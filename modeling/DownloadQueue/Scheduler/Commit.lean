import DownloadQueue.Scheduler.Basic
import DownloadQueue.Counter

namespace DownloadQueue.Scheduler

/-- Bytes a second; no number makes sense before a millisecond has passed. -/
def speedOf (bytes : UInt64) (elapsed : Duration) : UInt64 :=
  let secs := elapsed.toFloat
  if secs < 0.001 then 0 else (bytes.toFloat / secs).toUInt64

def speedAt (s : Scheduler) (item : Item) : UInt64 :=
  match s.binding? item.id with
  | some binding =>
    if item.status = .downloading then
      let bytes :=
        if binding.startOffset ≤ item.bytesDownloaded then
          item.bytesDownloaded - binding.startOffset
        else 0
      speedOf bytes ⟨s.clock - binding.startedAt⟩
    else 0
  | none => 0

def viewOf (s : Scheduler) (item : Item) : ItemView :=
  { id := item.id, sourceUrl := item.sourceUrl, destination := item.destination,
    status := item.status, bytesDownloaded := item.bytesDownloaded, bytesTotal := item.bytesTotal,
    percent := item.percent, speed := s.speedAt item, attempts := item.attempts,
    lastError := item.lastError }

def sum64 : UInt64 → List UInt64 → Except Overflow UInt64
  | total, [] => .ok total
  | total, n :: ns => (Counter.add64 total n).bind fun total => sum64 total ns

def countStatus (items : List Item) (p : Status → Bool) : UInt64 :=
  UInt64.ofNat (items.countP fun item => p item.status)

def present (s : Scheduler) : List Item :=
  s.table.items.filter fun item => item.status ≠ .deleted

def snapshot (s : Scheduler) : Except Overflow Snapshot := do
  let items := s.table.items
  let bytesDownloaded ← sum64 0 (s.present.map Item.bytesDownloaded)
  let speed ← sum64 0 (items.map s.speedAt)
  return {
    items := items.map s.viewOf
    stats :=
      { total := UInt64.ofNat s.present.length
        queued := countStatus items fun status => status = .queued
        downloading := countStatus items fun status => status = .downloading
        paused := countStatus items fun status => status = .paused
        finished := countStatus items Status.isComplete
        failed := countStatus items fun status => status = .failed
        activeTransfers := UInt64.ofNat s.active.length
        maxConcurrent := s.maxConcurrent
        autoDownload := s.autoDownload
        bytesDownloaded
        speed
        pendingRetries := UInt64.ofNat s.pending.length } }

def publish (s : Scheduler) : Step Unit :=
  match s.snapshot with
  | .error overflow => .stopped s overflow
  | .ok snapshot => .done { s with snapshots := s.snapshots ++ [snapshot] } ()

def persist (s : Scheduler) : Scheduler × Except PersistenceError Unit :=
  let (files, result) := QueueFile.save s.files s.config.queue.queueFile s.table.items
  ({ s with files }, result)

def tellFailure (s : Scheduler) (error : PersistenceError) : Scheduler :=
  s.emit (.persistenceFailed (QueueError.persistence error).message)

/-- Saves pending changes; after a save the deleted items without a worker leave the table. -/
def saveChanges (s : Scheduler) : Scheduler :=
  if s.dirty then
    match s.persist with
    | (s, .ok ()) => { s with dirty := false }.dropDeleted.2
    | (s, .error error) => s.tellFailure error
  else s

def commit (s : Scheduler) : Step Unit :=
  s.saveChanges.publish

end DownloadQueue.Scheduler
