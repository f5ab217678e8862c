import DownloadQueue.Decimal.Shortest
import DownloadQueue.Snapshot
import DownloadQueue.Wire.Item

namespace DownloadQueue

def float32Json (f : Float32) : Json :=
  if f.isFinite then .number (Decimal.shortestNumeral f) else .null

namespace ItemView

def keys : List String :=
  ["id", "source_url", "destination", "status", "bytes_downloaded", "bytes_total", "percent",
   "speed_bps", "attempt_count", "last_error"]

def toJson (item : ItemView) : Json :=
  .record
    [("id", item.id.toJson),
     ("source_url", .ofText item.sourceUrl),
     ("destination", item.destination.toJson),
     ("status", item.status.toJson),
     ("bytes_downloaded", countJson item.bytesDownloaded),
     ("bytes_total", .ofOption countJson item.bytesTotal),
     ("percent", .ofOption float32Json item.percent),
     ("speed_bps", countJson item.speed),
     ("attempt_count", .ofNat item.attempts.toNat),
     ("last_error", .ofOption Json.ofText item.lastError)]

def ofJson? (json : Json) : Option ItemView := do
  match ← json.slots? keys with
  | [id, sourceUrl, destination, status, downloaded, total, percent, speed, attempts, error] =>
    let id ← id.required ItemId.ofJson?
    let sourceUrl ← sourceUrl.required Json.toText?
    let destination ← destination.required Path.ofJson?
    let status ← status.required (Status.ofJson? false)
    let bytesDownloaded ← downloaded.required Json.toUInt64?
    let bytesTotal ← total.optional Json.toUInt64?
    let percent ← percent.optional Json.toFloat32?
    let speed ← speed.required Json.toUInt64?
    let attempts ← attempts.required Json.toUInt32?
    let lastError ← error.optional Json.toText?
    return { id, sourceUrl, destination, status, bytesDownloaded, bytesTotal, percent, speed,
             attempts, lastError }
  | _ => none

end ItemView

namespace QueueStats

def keys : List String :=
  ["total", "queued", "downloading", "paused", "finished", "failed", "active_transfers",
   "max_concurrent_downloads", "auto_download", "bytes_downloaded", "speed_bps", "pending_retries"]

def toJson (stats : QueueStats) : Json :=
  .record
    [("total", countJson stats.total),
     ("queued", countJson stats.queued),
     ("downloading", countJson stats.downloading),
     ("paused", countJson stats.paused),
     ("finished", countJson stats.finished),
     ("failed", countJson stats.failed),
     ("active_transfers", countJson stats.activeTransfers),
     ("max_concurrent_downloads", countJson stats.maxConcurrent),
     ("auto_download", .bool stats.autoDownload),
     ("bytes_downloaded", countJson stats.bytesDownloaded),
     ("speed_bps", countJson stats.speed),
     ("pending_retries", countJson stats.pendingRetries)]

def ofJson? (json : Json) : Option QueueStats := do
  match ← json.slots? keys with
  | [total, queued, downloading, paused, finished, failed, active, limit, auto, bytes, speed,
      pending] =>
    let total ← total.required Json.toUInt64?
    let queued ← queued.required Json.toUInt64?
    let downloading ← downloading.required Json.toUInt64?
    let paused ← paused.required Json.toUInt64?
    let finished ← finished.required Json.toUInt64?
    let failed ← failed.required Json.toUInt64?
    let activeTransfers ← active.required Json.toUInt64?
    let maxConcurrent ← limit.required Json.toUInt64?
    let autoDownload ← auto.required Json.toBool?
    let bytesDownloaded ← bytes.required Json.toUInt64?
    let speed ← speed.required Json.toUInt64?
    let pendingRetries ← pending.defaulted 0 Json.toUInt64?
    return { total, queued, downloading, paused, finished, failed, activeTransfers, maxConcurrent,
             autoDownload, bytesDownloaded, speed, pendingRetries }
  | _ => none

end QueueStats

namespace Snapshot

def toJson (snapshot : Snapshot) : Json :=
  .record
    [("items", .array (snapshot.items.map ItemView.toJson)), ("stats", snapshot.stats.toJson)]

def itemsOfJson? (json : Json) : Option (List ItemView) := do
  (← json.elements?).mapM ItemView.ofJson?

def ofJson? (json : Json) : Option Snapshot := do
  match ← json.slots? ["items", "stats"] with
  | [items, stats] =>
    return { items := ← items.required itemsOfJson?, stats := ← stats.required QueueStats.ofJson? }
  | _ => none

end Snapshot

end DownloadQueue
