import DownloadQueue.Config
import DownloadQueue.Wire.Item

namespace DownloadQueue

def RetryPolicy.ofJson? (json : Json) : Option RetryPolicy :=
  (json.variantName? false).bind RetryPolicy.ofName?

def RetryPolicy.toJson (policy : RetryPolicy) : Json :=
  .ofText policy.name

def Duration.ofJson? (json : Json) : Option Duration :=
  json.toUInt64?.map fun secs => Duration.ofSecs secs.toNat

namespace QueueConfig

def ofJson? (json : Json) : Option QueueConfig := do
  let initial : QueueConfig := {}
  match ← json.slots? ["queue_file", "download_dir", "max_concurrent_downloads", "auto_download"]
    with
  | [file, dir, limit, auto] =>
    return {
      queueFile := ← file.defaulted initial.queueFile Path.ofJson?
      downloadDir := ← dir.defaulted initial.downloadDir Path.ofJson?
      maxConcurrent := ← limit.defaulted initial.maxConcurrent Json.toUInt64?
      autoDownload := ← auto.defaulted initial.autoDownload Json.toBool? }
  | _ => none

end QueueConfig

namespace TransferConfig

def ofJson? (json : Json) : Option TransferConfig := do
  let initial : TransferConfig := {}
  match ← json.slots? ["connect_timeout", "stall_timeout", "user_agent"] with
  | [connect, stall, agent] =>
    return {
      connectTimeout := ← connect.defaulted initial.connectTimeout Json.toUInt64?
      stallTimeout := ← stall.defaulted initial.stallTimeout Json.toUInt64?
      userAgent := ← agent.defaulted initial.userAgent Json.toText? }
  | _ => none

end TransferConfig

namespace RetryConfig

def ofJson? (json : Json) : Option RetryConfig := do
  let initial : RetryConfig := {}
  match ← json.slots? ["policy", "max_attempts", "initial_delay", "max_delay",
    "backoff_multiplier", "jitter"] with
  | [policy, attempts, first, longest, multiplier, jitter] =>
    return {
      policy := ← policy.defaulted initial.policy RetryPolicy.ofJson?
      maxAttempts := ← attempts.defaulted initial.maxAttempts Json.toUInt32?
      initialDelay := ← first.defaulted initial.initialDelay Duration.ofJson?
      maxDelay := ← longest.defaulted initial.maxDelay Duration.ofJson?
      multiplier := ← multiplier.defaulted initial.multiplier Json.toFloat?
      jitter := ← jitter.defaulted initial.jitter Json.toBool? }
  | _ => none

end RetryConfig

namespace Config

def ofJson? (json : Json) : Option Config := do
  match ← json.slots? ["queue", "transfer", "retry", "shutdown_timeout"] with
  | [queue, transfer, retry, timeout] =>
    return {
      queue := ← queue.defaulted {} QueueConfig.ofJson?
      transfer := ← transfer.defaulted {} TransferConfig.ofJson?
      retry := ← retry.defaulted {} RetryConfig.ofJson?
      shutdownTimeout := ← timeout.defaulted 30 Json.toUInt64? }
  | _ => none

end Config

end DownloadQueue
