import DownloadQueue.Item.Basic
import DownloadQueue.Json.Decode
import DownloadQueue.Timestamp.Printer
import DownloadQueue.Timestamp.Reader

namespace DownloadQueue

def ItemId.toJson (id : ItemId) : Json :=
  .ofNat id.value.toNat

def ItemId.ofJson? (json : Json) : Option ItemId :=
  json.toUInt64?.map ItemId.mk

def Status.toJson (status : Status) : Json :=
  .ofText status.name

def Status.ofJson? (buffered : Bool) (json : Json) : Option Status :=
  (json.variantName? buffered).bind Status.ofName?

def Path.toJson (path : Path) : Json :=
  .ofText path.text

def Path.ofJson? (json : Json) : Option Path :=
  json.toText?.map Path.mk

def Timestamp.toJson (instant : Timestamp) : Json :=
  .ofText (String.ofList instant.text)

def Timestamp.ofJson? (json : Json) : Option Timestamp :=
  json.toText?.bind fun text => Timestamp.ofText? text.toList

def countJson (n : UInt64) : Json :=
  .ofNat n.toNat

namespace Item

def keys : List String :=
  ["id", "source_url", "destination", "status", "bytes_downloaded", "bytes_total",
   "attempt_count", "last_error", "added_at"]

def errorMember : Option String → List (String × Json)
  | none => []
  | some error => [("last_error", .ofText error)]

def toJson (item : Item) : Json :=
  .record
    ([("id", item.id.toJson),
      ("source_url", .ofText item.sourceUrl),
      ("destination", item.destination.toJson),
      ("status", item.status.toJson),
      ("bytes_downloaded", countJson item.bytesDownloaded),
      ("bytes_total", .ofOption countJson item.bytesTotal),
      ("attempt_count", .ofNat item.attempts.toNat)] ++
      errorMember item.lastError ++
      [("added_at", item.addedAt.toJson)])

def ofJson? (json : Json) : Option Item := do
  match ← json.slots? keys with
  | [id, sourceUrl, destination, status, downloaded, total, attempts, error, addedAt] =>
    let id ← id.required ItemId.ofJson?
    let sourceUrl ← sourceUrl.required Json.toText?
    let destination ← destination.required Path.ofJson?
    let status ← status.required (Status.ofJson? false)
    let bytesDownloaded ← downloaded.required Json.toUInt64?
    let bytesTotal ← total.optional Json.toUInt64?
    let attempts ← attempts.required Json.toUInt32?
    let lastError ← error.defaulted none (Json.Slot.nullable Json.toText?)
    let addedAt ← addedAt.required Timestamp.ofJson?
    return { id, sourceUrl, destination, status, bytesDownloaded, bytesTotal, attempts, lastError,
             addedAt }
  | _ => none

end Item

end DownloadQueue
