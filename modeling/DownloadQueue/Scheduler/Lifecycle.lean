import DownloadQueue.Scheduler.Commit
import DownloadQueue.Scheduler.Message

/-!
How the queue starts from its file and how it shuts down.
-/

namespace DownloadQueue.Scheduler

/-- Brings one loaded item in order: no worker survives a restart, and the file decides. -/
def restoreItem (s : Scheduler) (item : Item) : Scheduler :=
  match item.status with
  | .downloading => (s.setStatus item.id .queued).reconcile item.id
  | .queued | .paused | .failed => s.reconcile item.id
  | .finished | .alreadyDownloaded | .deleted => s

def restore (s : Scheduler) : Scheduler :=
  s.table.items.foldl restoreItem s

def stopForShutdown (s : Scheduler) (binding : Binding) : Scheduler :=
  let s := s.stopTransfer binding.id .shutdown
  if binding.stop.isNone then s.setStatus binding.id .queued else s

def beginShutdown (s : Scheduler) : Scheduler :=
  let s := { s with shuttingDown := true }.cancelAllTimers
  s.active.foldl stopForShutdown s

def awaitWorkers (s : Scheduler) : List Message → Step Unit
  | [] => .done { s with inbox := [] } ()
  | message :: messages =>
    if s.active.isEmpty then .done { s with inbox := message :: messages } ()
    else
      ({ s with inbox := messages }.handleMessage message).andThen fun s () =>
        s.awaitWorkers messages

def abandon (s : Scheduler) (id : ItemId) : Scheduler :=
  (s.unbind id).reconcile id

def abandonAll (s : Scheduler) : Scheduler :=
  (s.active.map Binding.id).foldl abandon s

def concludeShutdown (s : Scheduler) : Step (Except QueueError Unit) :=
  let (s, saved) := s.persist
  let (s, result) : Scheduler × Except QueueError Unit :=
    match saved with
    | .ok () => (s, .ok ())
    | .error error => (s.tellFailure error, .error (.persistence error))
  s.publish.andThen fun s () => .done (s.emit .shutdown) result

def takeFinalMessages (s : Scheduler) : Step Unit :=
  s.awaitWorkers s.inbox

/-- Ends a shutdown that has begun: the messages that wait come in, then the workers that are left
are given up on. -/
def endShutdown (s : Scheduler) : Step (Except QueueError Unit) :=
  s.takeFinalMessages.andThen fun s () => s.abandonAll.concludeShutdown

def shutdown (s : Scheduler) : Step (Except QueueError Unit) :=
  s.beginShutdown.endShutdown

end DownloadQueue.Scheduler
