import DownloadQueue.Scheduler.Adding
import DownloadQueue.Scheduler.Dispatch
import DownloadQueue.Scheduler.Lifecycle

namespace DownloadQueue

inductive Request
  | enqueue (url : String) (destination : Path)
  | addAll (entries : List TextQueue.Entry)
  | dispatch (command : Command)
  | shutdown
  deriving DecidableEq

inductive Reply
  | enqueued (id : ItemId)
  | added (count : Nat)
  | dispatched (outcome : Outcome)
  | stopped
  deriving DecidableEq, Repr

namespace Scheduler

def replyAfterCommit {α : Type} (step : Step (Except QueueError α)) (reply : α → Reply) :
    Step (Except QueueError Reply) :=
  step.andThen fun s result => s.commit.andThen fun s () => .done s (result.map reply)

/-- Handles a request when no message waits; `ended` are the items whose transfer ended before. -/
def answer (s : Scheduler) (ended : List ItemId) : Request → Step (Except QueueError Reply)
  | .enqueue url destination => replyAfterCommit (s.enqueue url destination) .enqueued
  | .addAll entries =>
    replyAfterCommit ((s.addAll entries).andThen fun s count => .done s (.ok count)) .added
  | .dispatch command => replyAfterCommit (s.dispatch command ended) .dispatched
  | .shutdown => s.shutdown.andThen fun s result => .done s (result.map fun () => .stopped)

def request (s : Scheduler) (request : Request) : Step (Except QueueError Reply) :=
  s.drain.andThen fun s ended => s.answer ended request

def takeMessage (s : Scheduler) : Step Unit :=
  match s.inbox with
  | [] => .done s ()
  | message :: messages =>
    ({ s with inbox := messages }.handleMessage message).andThen fun s () => s.commit

def takeRetry (s : Scheduler) : Step Unit :=
  match s.retries with
  | [] => .done s ()
  | id :: ids => ({ s with retries := ids }.handleRetry id).andThen fun s () => s.commit

def launch (s : Scheduler) : Step Unit :=
  s.restore.tick.commit

end Scheduler

end DownloadQueue
