import DownloadQueue.Retry
import DownloadQueue.Scheduler.Basic

namespace DownloadQueue.Scheduler

def pendingSerial? (s : Scheduler) (id : ItemId) : Option Nat :=
  (s.pending.find? fun entry => entry.1 = id).map Prod.snd

/-- An item no longer waits for a timer; the timer itself is left alone. -/
def forgetTimer (s : Scheduler) (id : ItemId) : Scheduler :=
  { s with pending := s.pending.filter fun entry => entry.1 ≠ id }

def abortTimer (s : Scheduler) (serial : Nat) : Scheduler :=
  { s with timers := s.timers.filter fun timer => timer.serial ≠ serial }

def cancelTimer (s : Scheduler) (id : ItemId) : Scheduler :=
  match s.pendingSerial? id with
  | none => s
  | some serial => (s.abortTimer serial).forgetTimer id

def cancelAllTimers (s : Scheduler) : Scheduler :=
  { s with
    timers := s.timers.filter fun timer => !(s.pending.any fun entry => entry.2 = timer.serial)
    pending := [] }

/-- No timer runs longer than thirty years. -/
def longestDelay : Duration :=
  .ofSecs (30 * 365 * 86400)

/-- Sets a timer for an item in place of the one it waited for. -/
def scheduleRetry (s : Scheduler) (id : ItemId) (delay : Duration) : Scheduler :=
  let s := s.cancelTimer id
  { s with
    timers := s.timers ++ [⟨s.nextSerial, id, s.clock + min delay.nanos longestDelay.nanos⟩]
    pending := s.pending ++ [(id, s.nextSerial)]
    nextSerial := s.nextSerial + 1 }

def expire (s : Scheduler) (timer : Timer) : Scheduler :=
  { s.abortTimer timer.serial with retries := s.retries ++ [timer.id] }

def nextTimer? (s : Scheduler) : Option Timer :=
  s.timers.foldl
    (fun best timer =>
      match best with
      | none => some timer
      | some first => some (if timer.due < first.due then timer else first))
    none

end DownloadQueue.Scheduler
