import DownloadQueue.Duration

namespace DownloadQueue

structure QueueConfig where
  queueFile : Path := ⟨"./queue.json"⟩
  downloadDir : Path := ⟨"./downloads"⟩
  maxConcurrent : UInt64 := 1
  autoDownload : Bool := true

structure TransferConfig where
  connectTimeout : UInt64 := 30
  /-- The seconds without data after which a transfer fails. -/
  stallTimeout : UInt64 := 60
  userAgent : String := "podcast-dl/0.1.0"

inductive RetryPolicy
  | manual
  | automatic
  deriving DecidableEq, Repr

namespace RetryPolicy

def all : List RetryPolicy := [manual, automatic]

def name : RetryPolicy → String
  | manual => "manual"
  | automatic => "automatic"

def ofName? (name : String) : Option RetryPolicy :=
  all.find? fun policy => policy.name = name

end RetryPolicy

structure RetryConfig where
  policy : RetryPolicy := .manual
  maxAttempts : UInt32 := 3
  initialDelay : Duration := .ofSecs 5
  maxDelay : Duration := .ofSecs 300
  multiplier : Float := 2
  jitter : Bool := true

structure Config where
  queue : QueueConfig := {}
  transfer : TransferConfig := {}
  retry : RetryConfig := {}
  /-- The seconds that running transfers have to stop at shutdown. -/
  shutdownTimeout : UInt64 := 30

def zeroConcurrency : QueueError :=
  .config "max_concurrent_downloads must be at least 1" (some "max_concurrent_downloads")

/-- The first setting that the queue cannot work with. -/
def Config.validate (config : Config) : Except QueueError Unit :=
  if config.queue.maxConcurrent = 0 then .error zeroConcurrency
  else if config.queue.queueFile.isEmpty then
    .error (.config "queue_file must not be empty" (some "queue_file"))
  else if config.retry.multiplier < 1 then
    .error (.config "backoff_multiplier must be at least 1.0" (some "backoff_multiplier"))
  else .ok ()

end DownloadQueue
