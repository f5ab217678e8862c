import DownloadQueue.Command
import DownloadQueue.Scheduler.Message

namespace DownloadQueue.Scheduler

abbrev Verdict := Except QueueError Outcome

def pause (s : Scheduler) (item : Item) : Scheduler × Verdict :=
  match item.status with
  | .downloading => ((s.stopTransfer item.id .pause).setStatus item.id .paused, .ok .applied)
  | .queued => (s.setStatus item.id .paused, .ok .applied)
  | .paused => (s, .ok .unchanged)
  | status => (s, .error (.invalidTransition item.id "pause" status))

def resume (s : Scheduler) (item : Item) : Scheduler × Verdict :=
  match item.status with
  | .paused => ((s.setStatus item.id .queued).tick, .ok .applied)
  | .queued | .downloading => (s, .ok .unchanged)
  | status => (s, .error (.invalidTransition item.id "resume" status))

def retry (s : Scheduler) (item : Item) : Step Verdict :=
  match item.status with
  | .failed => ((s.cancelTimer item.id).tryAgain item.id item).andThen fun s () =>
      .done s (.ok .applied)
  | status => .done s (.error (.invalidTransition item.id "retry" status))

/-- A worker that is still stopping removes the file when it has stopped. -/
def cancel (s : Scheduler) (item : Item) : Scheduler × Verdict :=
  match item.status with
  | .downloading => ((s.stopTransfer item.id .cancel).setStatus item.id .queued, .ok .applied)
  | .queued | .paused =>
    let s := if s.isBound item.id then s.stopTransfer item.id .cancel else s.discardPartial item.id
    ((s.setStatus item.id .queued).tick, .ok .applied)
  | status => (s, .error (.invalidTransition item.id "cancel" status))

/-- Removes the file of an unfinished item; a complete file stays. -/
def delete (s : Scheduler) (item : Item) : Scheduler × Verdict :=
  if item.status = .deleted then (s, .error (.invalidTransition item.id "delete" item.status))
  else
    let s := s.cancelTimer item.id
    let s :=
      if s.isBound item.id then s.stopTransfer item.id .delete
      else if item.status.isComplete then s
      else s.discardPartial item.id
    (s.setStatus item.id .deleted, .ok .applied)

def deleteFinished (s : Scheduler) : Scheduler × Verdict :=
  let (removed, table) := s.table.retain fun item => !item.status.isComplete
  let s := removed.foldl (fun s item => s.emit (.removed item.id)) { s with table }
  (if removed.isEmpty then s else s.markDirty, .ok (.removed (UInt64.ofNat removed.length)))

def purge (s : Scheduler) : Scheduler × Verdict :=
  let (count, s) := s.dropDeleted
  (s, .ok (.removed (UInt64.ofNat count)))

def pauseOne (s : Scheduler) (id : ItemId) : Scheduler :=
  let running := (s.table.get? id).any fun item => item.status = .downloading
  (if running then s.stopTransfer id .pause else s).setStatus id .paused

def pauseAll (s : Scheduler) : Scheduler × Verdict :=
  let waiting := s.table.items.filter fun item =>
    item.status = .queued || item.status = .downloading
  let ids := waiting.map Item.id
  (ids.foldl pauseOne s, .ok (if ids.isEmpty then .unchanged else .applied))

def resumeAll (s : Scheduler) : Scheduler × Verdict :=
  let ids := s.table.idsWithStatus .paused
  if ids.isEmpty then (s, .ok .unchanged)
  else ((ids.foldl (fun s id => s.setStatus id .queued) s).tick, .ok .applied)

def requeue (s : Scheduler) (id : ItemId) : Scheduler :=
  (s.stopTransfer id .requeue).setStatus id .queued

def running (s : Scheduler) : List ItemId :=
  (s.active.filter fun binding => binding.stop.isNone).map Binding.id

/-- The youngest running transfers over a limit, youngest first. -/
def excess (s : Scheduler) (limit : UInt64) : List ItemId :=
  s.running.reverse.take (s.running.length - limit.toNat)

def setMaxConcurrent (s : Scheduler) (limit : UInt64) : Scheduler × Verdict :=
  if limit = 0 then (s, .error zeroConcurrency)
  else if limit = s.maxConcurrent then (s, .ok .unchanged)
  else
    let raised := s.maxConcurrent < limit
    let s := { s with maxConcurrent := limit }
    (if raised then s.tick else (s.excess limit).foldl requeue s, .ok .applied)

def setAutoDownload (s : Scheduler) (enabled : Bool) : Scheduler × Verdict :=
  if s.autoDownload = enabled then (s, .ok .unchanged)
  else
    let s := { s with autoDownload := enabled }
    (if enabled then s.tick else s, .ok .applied)

def onItem (s : Scheduler) (id : ItemId) (operation : Item → Step Verdict) : Step Verdict :=
  match s.table.get? id with
  | none => .done s (.error (.notFound id))
  | some item => operation item

def plain (ran : Scheduler × Verdict) : Step Verdict :=
  .done ran.1 ran.2

def apply (s : Scheduler) : Command → Step Verdict
  | .pause id => s.onItem id fun item => plain (s.pause item)
  | .resume id => s.onItem id fun item => plain (s.resume item)
  | .retry id => s.onItem id fun item => s.retry item
  | .cancel id => s.onItem id fun item => plain (s.cancel item)
  | .delete id => s.onItem id fun item => plain (s.delete item)
  | .deleteFinished => plain s.deleteFinished
  | .purge => plain s.purge
  | .pauseAll => plain s.pauseAll
  | .resumeAll => plain s.resumeAll
  | .setMaxConcurrent limit => plain (s.setMaxConcurrent limit)
  | .setAutoDownload enabled => plain (s.setAutoDownload enabled)

/-- A command that comes too late for a transfer is answered by the transfer's result. -/
def supersedable : Command → Bool
  | .pause _ | .cancel _ => true
  | _ => false

/-- The answer to a command, given the items whose transfer ended just before it. -/
def judge (command : Command) (ended : List ItemId) : Verdict → Verdict
  | .error (.invalidTransition id operation status) =>
    if supersedable command ∧ id ∈ ended then .ok (.superseded status)
    else .error (.invalidTransition id operation status)
  | verdict => verdict

/-- Applies a command after the transfers of the items `ended` have come to their end. -/
def dispatch (s : Scheduler) (command : Command) (ended : List ItemId) : Step Verdict :=
  (s.apply command).andThen fun s verdict => .done s (judge command ended verdict)

end DownloadQueue.Scheduler
