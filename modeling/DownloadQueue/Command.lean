import DownloadQueue.Item.Basic

namespace DownloadQueue

inductive Command
  | pause (id : ItemId)
  | resume (id : ItemId)
  | retry (id : ItemId)
  | cancel (id : ItemId)
  | delete (id : ItemId)
  | deleteFinished
  | purge
  | pauseAll
  | resumeAll
  | setMaxConcurrent (limit : UInt64)
  | setAutoDownload (enabled : Bool)
  deriving DecidableEq, Repr

namespace Command

def name : Command → String
  | pause _ => "pause"
  | resume _ => "resume"
  | retry _ => "retry"
  | cancel _ => "cancel"
  | delete _ => "delete"
  | deleteFinished => "delete_finished"
  | purge => "purge"
  | pauseAll => "pause_all"
  | resumeAll => "resume_all"
  | setMaxConcurrent _ => "set_max_concurrent"
  | setAutoDownload _ => "set_auto_download"

def target? : Command → Option ItemId
  | pause id | resume id | retry id | cancel id | delete id => some id
  | _ => none

end Command

inductive Outcome
  | applied
  | unchanged
  | superseded (status : Status)
  | removed (count : UInt64)
  deriving DecidableEq, Repr

end DownloadQueue
