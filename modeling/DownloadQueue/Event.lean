import DownloadQueue.Item.Basic

namespace DownloadQueue

inductive Event
  | queued (id : ItemId) (url : String)
  | started (id : ItemId) (resumeOffset : UInt64)
  | progress (id : ItemId) (bytesDownloaded : UInt64) (bytesTotal : Option UInt64)
  | statusChanged (id : ItemId) (source target : Status)
  | failed (id : ItemId) (error : String)
  | removed (id : ItemId)
  | persistenceFailed (error : String)
  | shutdown
  deriving DecidableEq, Repr

def Event.id? : Event → Option ItemId
  | queued id _ | started id _ | progress id _ _ | statusChanged id _ _ | failed id _
  | removed id => some id
  | persistenceFailed _ | shutdown => none

end DownloadQueue
