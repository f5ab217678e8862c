import DownloadQueue.Error

namespace DownloadQueue

structure FetchRequest where
  id : ItemId
  url : String
  destination : Path
  resumeOffset : UInt64
  deriving DecidableEq, Repr

inductive Progress
  | started (offset : UInt64) (total : Option UInt64)
  | reached (bytes : UInt64) (total : Option UInt64)
  deriving DecidableEq, Repr

inductive Ending
  | completed
  | failed (reason : String) (retryable : Bool)
  | cancelled
  deriving DecidableEq, Repr

def Ending.ofResult : Except TransferError Unit → Ending
  | .ok () => .completed
  | .error .cancelled => .cancelled
  | .error error => .failed error.message error.isRetryable

def Ending.brokenDown : Ending :=
  .failed "transfer task panicked" false

/-- What a worker tells the queue: any number of progress reports, then one ending. -/
inductive Report
  | progress (progress : Progress)
  | ended (ending : Ending)
  deriving DecidableEq, Repr

structure Message where
  id : ItemId
  report : Report
  deriving DecidableEq, Repr

def Message.isEnding (message : Message) : Bool :=
  match message.report with
  | .ended _ => true
  | .progress _ => false

inductive StopReason
  | pause
  | requeue
  | cancel
  | delete
  | shutdown
  deriving DecidableEq, Repr

namespace StopReason

def name : StopReason → String
  | pause => "pause"
  | requeue => "requeue"
  | cancel => "cancel"
  | delete => "delete"
  | shutdown => "shutdown"

def discardsPartial : StopReason → Bool
  | cancel | delete => true
  | _ => false

/-- A new stop on top of a pending one; stops that throw bytes away win. -/
def merge : Option StopReason → StopReason → StopReason
  | some delete, _ => delete
  | some cancel, new => if new = delete then delete else cancel
  | _, new => new

end StopReason

/-- A worker bound to an item, from its admission until its ending. -/
structure Binding where
  id : ItemId
  seq : Nat
  startOffset : UInt64
  /-- When data began to come in, in nanoseconds. -/
  startedAt : Nat
  cancelled : Bool
  stop : Option StopReason
  deriving DecidableEq, Repr

end DownloadQueue
