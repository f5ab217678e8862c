import DownloadQueue.Item.Basic

namespace DownloadQueue

structure ItemView where
  id : ItemId
  sourceUrl : String
  destination : Path
  status : Status
  bytesDownloaded : UInt64
  bytesTotal : Option UInt64
  percent : Option Float32
  speed : UInt64
  attempts : UInt32
  lastError : Option String

structure QueueStats where
  total : UInt64
  queued : UInt64
  downloading : UInt64
  paused : UInt64
  finished : UInt64
  failed : UInt64
  activeTransfers : UInt64
  maxConcurrent : UInt64
  autoDownload : Bool
  bytesDownloaded : UInt64
  speed : UInt64
  pendingRetries : UInt64
  deriving DecidableEq, Repr

structure Snapshot where
  items : List ItemView
  stats : QueueStats

namespace Snapshot

def item? (snapshot : Snapshot) (id : ItemId) : Option ItemView :=
  snapshot.items.find? fun item => item.id = id

def count (snapshot : Snapshot) (status : Status) : Nat :=
  snapshot.items.countP fun item => item.status = status

/-- Nothing runs, nothing is going to be started, and nothing waits to be tried again. -/
def isIdle (snapshot : Snapshot) : Bool :=
  snapshot.stats.activeTransfers = 0 && snapshot.stats.pendingRetries = 0 &&
    (snapshot.stats.queued = 0 || !snapshot.stats.autoDownload)

def blank : Snapshot :=
  { items := []
    stats :=
      { total := 0, queued := 0, downloading := 0, paused := 0, finished := 0, failed := 0,
        activeTransfers := 0, maxConcurrent := 0, autoDownload := false, bytesDownloaded := 0,
        speed := 0, pendingRetries := 0 } }

end Snapshot

end DownloadQueue
