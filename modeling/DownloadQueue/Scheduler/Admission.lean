import DownloadQueue.Scheduler.Basic

namespace DownloadQueue.Scheduler

def startTransfer (s : Scheduler) (id : ItemId) : Scheduler :=
  match s.table.get? id with
  | none => s
  | some item =>
    let request : FetchRequest :=
      { id, url := item.sourceUrl, destination := item.destination,
        resumeOffset := s.files.fileLength item.destination }
    let binding : Binding :=
      { id, seq := s.admissions + 1, startOffset := item.bytesDownloaded, startedAt := s.clock,
        cancelled := false, stop := none }
    let s :=
      { s with
        admissions := s.admissions + 1
        active := s.active ++ [binding]
        fetches := s.fetches ++ [request] }
    s.setStatus id .downloading

def candidates (s : Scheduler) : List ItemId :=
  (s.table.items.filter fun item => item.status = .queued && !s.isBound item.id).map Item.id

def fillSlots (s : Scheduler) : List ItemId → Scheduler
  | [] => s
  | id :: ids =>
    if s.maxConcurrent.toNat ≤ s.active.length then s else (s.startTransfer id).fillSlots ids

def tick (s : Scheduler) : Scheduler :=
  if !s.autoDownload || s.shuttingDown then s else s.fillSlots s.candidates

/-- Tells an item's worker to stop; the slot is freed by the worker's ending. -/
def stopTransfer (s : Scheduler) (id : ItemId) (reason : StopReason) : Scheduler :=
  s.rebind id fun binding =>
    { binding with stop := some (StopReason.merge binding.stop reason), cancelled := true }

end DownloadQueue.Scheduler
