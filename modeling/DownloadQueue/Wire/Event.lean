import DownloadQueue.Event
import DownloadQueue.Wire.Command

namespace DownloadQueue.Event

def toJson : Event → Json
  | queued id url =>
    .record [("type", .ofText "queued"), ("id", id.toJson), ("url", .ofText url)]
  | started id offset =>
    .record [("type", .ofText "started"), ("id", id.toJson), ("resume_offset", countJson offset)]
  | progress id downloaded total =>
    .record
      [("type", .ofText "progress"), ("id", id.toJson), ("bytes_downloaded", countJson downloaded),
       ("bytes_total", .ofOption countJson total)]
  | statusChanged id source target =>
    .record
      [("type", .ofText "status_changed"), ("id", id.toJson), ("from", source.toJson),
       ("to", target.toJson)]
  | failed id error =>
    .record [("type", .ofText "failed"), ("id", id.toJson), ("error", .ofText error)]
  | removed id => .record [("type", .ofText "removed"), ("id", id.toJson)]
  | persistenceFailed error =>
    .record [("type", .ofText "persistence_failed"), ("error", .ofText error)]
  | shutdown => .record [("type", .ofText "shutdown")]

def ofTagged? (tagged : Json.Tagged) : Option Event :=
  if tagged.name = "queued" then do
    match ← tagged.content.slots? ["id", "url"] with
    | [id, url] => return queued (← id.required ItemId.ofJson?) (← url.required Json.toText?)
    | _ => none
  else if tagged.name = "started" then do
    match ← tagged.content.slots? ["id", "resume_offset"] with
    | [id, offset] =>
      return started (← id.required ItemId.ofJson?) (← offset.required Json.toUInt64?)
    | _ => none
  else if tagged.name = "progress" then do
    match ← tagged.content.slots? ["id", "bytes_downloaded", "bytes_total"] with
    | [id, downloaded, total] =>
      return progress (← id.required ItemId.ofJson?) (← downloaded.required Json.toUInt64?)
        (← total.optional Json.toUInt64?)
    | _ => none
  else if tagged.name = "status_changed" then do
    match ← tagged.content.slots? ["id", "from", "to"] with
    | [id, source, target] =>
      return statusChanged (← id.required ItemId.ofJson?)
        (← source.required (Status.ofJson? true)) (← target.required (Status.ofJson? true))
    | _ => none
  else if tagged.name = "failed" then do
    match ← tagged.content.slots? ["id", "error"] with
    | [id, error] => return failed (← id.required ItemId.ofJson?) (← error.required Json.toText?)
    | _ => none
  else if tagged.name = "removed" then do
    match ← tagged.content.slots? ["id"] with
    | [id] => return removed (← id.required ItemId.ofJson?)
    | _ => none
  else if tagged.name = "persistence_failed" then do
    match ← tagged.content.slots? ["error"] with
    | [error] => return persistenceFailed (← error.required Json.toText?)
    | _ => none
  else if tagged.name = "shutdown" then if tagged.content.isBare then some shutdown else none
  else none

def ofJson? (json : Json) : Option Event :=
  (json.tagged? "type").bind ofTagged?

end DownloadQueue.Event
