import DownloadQueue.Scheduler.Admission
import DownloadQueue.Scheduler.Timer

namespace DownloadQueue.Scheduler

def knownTotal (reported known : Option UInt64) : Option UInt64 :=
  match reported with
  | some total => some total
  | none => known

def noteStart (s : Scheduler) (id : ItemId) (offset : UInt64) (total : Option UInt64) : Scheduler :=
  let s := s.modifyItem id fun item =>
    { item with bytesDownloaded := offset, bytesTotal := knownTotal total item.bytesTotal }
  let s := s.rebind id fun binding =>
    { binding with startOffset := offset, startedAt := s.clock }
  s.emit (.started id offset)

/-- Handles a progress report; a number below the known one is stale. -/
def handleProgress (s : Scheduler) (id : ItemId) (progress : Progress) : Scheduler :=
  if !s.isBound id then s
  else
    match s.table.get? id with
    | none => s
    | some item =>
      match progress with
      | .started offset total => s.noteStart id offset total
      | .reached bytes total =>
        if bytes < item.bytesDownloaded then s
        else
          let total := knownTotal total item.bytesTotal
          let s := s.modifyItem id fun item =>
            { item with bytesDownloaded := bytes, bytesTotal := total }
          s.emit (.progress id bytes total)

def finish (s : Scheduler) (id : ItemId) : Scheduler :=
  let s := s.modifyItem id fun item =>
    { item with bytesTotal := knownTotal item.bytesTotal (some item.bytesDownloaded) }
  s.setStatus id .finished

def fail (s : Scheduler) (id : ItemId) (reason : String) (retryable : Bool) : Step Unit :=
  let s := s.setStatus id .failed
  match s.table.get? id with
  | none => .done s ()
  | some item =>
    let s := s.modifyItem id fun item => { item with lastError := some reason }
    let s := s.emit (.failed id reason)
    match s.config.retry.automaticDelay s.share retryable item.attempts with
    | .error overflow => .stopped s overflow
    | .ok none => .done s ()
    | .ok (some delay) => .done (s.scheduleRetry id delay) ()

def applyStop (s : Scheduler) (id : ItemId) (stop : StopReason) : Scheduler :=
  if stop.discardsPartial then s.discardPartial id else s.reconcile id

/-- What the ending of an item's worker does, by the stop that was asked for. -/
def settle (s : Scheduler) (id : ItemId) : Option StopReason → Ending → Step Unit
  | none, .completed => .done (s.finish id) ()
  | some .delete, .completed => .done s ()
  | some _, .completed => .done (s.finish id) ()
  | none, .failed reason retryable => s.fail id reason retryable
  | none, .cancelled => .done ((s.setStatus id .queued).reconcile id) ()
  | some stop, _ => .done (s.applyStop id stop) ()

def handleEnding (s : Scheduler) (id : ItemId) (ending : Ending) : Step Unit :=
  match s.binding? id with
  | none => .done s ()
  | some binding =>
    ((s.unbind id).settle id binding.stop ending).andThen fun s () => .done s.tick ()

def handleMessage (s : Scheduler) (message : Message) : Step Unit :=
  match message.report with
  | .progress progress => .done (s.handleProgress message.id progress) ()
  | .ended ending => s.handleEnding message.id ending

def handleMessages (s : Scheduler) : List Message → Step (List ItemId)
  | [] => .done { s with inbox := [] } []
  | message :: messages =>
    ({ s with inbox := messages }.handleMessage message).andThen fun s () =>
      (s.handleMessages messages).andThen fun s ids =>
        .done s (if message.isEnding then message.id :: ids else ids)

def drain (s : Scheduler) : Step (List ItemId) :=
  s.handleMessages s.inbox

def receive (s : Scheduler) (message : Message) : Scheduler :=
  { s with inbox := s.inbox ++ [message] }

def tryAgain (s : Scheduler) (id : ItemId) (item : Item) : Step Unit :=
  match Counter.next32 item.attempts with
  | .error overflow => .stopped s overflow
  | .ok attempts =>
    let s := s.modifyItem id fun item => { item with attempts }
    .done (s.setStatus id .queued).tick ()

def handleRetry (s : Scheduler) (id : ItemId) : Step Unit :=
  let s := s.forgetTimer id
  match s.table.get? id with
  | none => .done s ()
  | some item => if item.status = .failed then s.tryAgain id item else .done s ()

end DownloadQueue.Scheduler
