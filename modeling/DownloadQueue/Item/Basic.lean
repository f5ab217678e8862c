import DownloadQueue.Path
import DownloadQueue.Timestamp.Basic

namespace DownloadQueue

/-- The number of an item, given once and never to another item. -/
structure ItemId where
  value : UInt64
  deriving DecidableEq, Repr

def ItemId.text (id : ItemId) : String :=
  toString id.value.toNat

inductive Status
  | queued
  | downloading
  | paused
  | finished
  | failed
  /-- To be removed; it is no longer scheduled or saved. -/
  | deleted
  | alreadyDownloaded
  deriving DecidableEq, Repr

namespace Status

def all : List Status :=
  [queued, downloading, paused, finished, failed, deleted, alreadyDownloaded]

def name : Status → String
  | queued => "queued"
  | downloading => "downloading"
  | paused => "paused"
  | finished => "finished"
  | failed => "failed"
  | deleted => "deleted"
  | alreadyDownloaded => "already_downloaded"

def ofName? (name : String) : Option Status :=
  all.find? fun status => status.name = name

def isComplete : Status → Bool
  | finished | alreadyDownloaded => true
  | _ => false

end Status

structure Item where
  id : ItemId
  sourceUrl : String
  destination : Path
  status : Status
  bytesDownloaded : UInt64
  bytesTotal : Option UInt64
  /-- How often the item was tried again. -/
  attempts : UInt32
  lastError : Option String
  addedAt : Timestamp
  deriving DecidableEq

def Item.new (id : ItemId) (sourceUrl : String) (destination : Path) (addedAt : Timestamp) : Item :=
  { id, sourceUrl, destination, status := .queued, bytesDownloaded := 0, bytesTotal := none,
    attempts := 0, lastError := none, addedAt }

/-- How much of the total is there, in percent; an empty file is all there. -/
def percentOf (downloaded : UInt64) : Option UInt64 → Option Float32
  | none => none
  | some total =>
    if total = 0 then some 100
    else some (downloaded.toFloat / total.toFloat * 100).toFloat32

def Item.percent (item : Item) : Option Float32 :=
  percentOf item.bytesDownloaded item.bytesTotal

end DownloadQueue
