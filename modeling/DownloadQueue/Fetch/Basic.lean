import DownloadQueue.Counter
import DownloadQueue.Fetch.ContentRange
import DownloadQueue.Transfer

/-!
One fetch of an enclosure, step by step. A fetch asks for the bytes that are missing at its
destination. An answer with just these is appended to what is there; any other success starts the
file anew.
-/

namespace DownloadQueue

structure ResponseHead where
  status : Nat
  contentRange : Option (List Char)
  contentLength : Option UInt64
  deriving DecidableEq, Repr

def ResponseHead.isSuccess (head : ResponseHead) : Bool :=
  200 ≤ head.status && head.status < 300

def ResponseHead.range (head : ResponseHead) : ContentRange :=
  (head.contentRange.bind ContentRange.parse?).getD .unknown

namespace Fetch

inductive Signal
  | cancel
  | head (head : ResponseHead)
  | chunk (bytes : List UInt8)
  | bodyEnd
  | lost (message : String) (transient : Bool)
  | stall
  deriving DecidableEq, Repr

inductive Effect
  | send (range : Option UInt64)
  | openAt (offset : UInt64)
  | openFresh
  | append (bytes : List UInt8)
  | report (progress : Progress)
  deriving DecidableEq, Repr

inductive Result
  | returned (result : Except TransferError Unit)
  | brokeDown (overflow : Overflow)

def Result.ending : Result → Ending
  | .returned result => .ofResult result
  | .brokeDown _ => .brokenDown

inductive Phase
  | waiting (offset : UInt64)
  | receiving (total : Option UInt64) (downloaded : UInt64)
  | ended (result : Result)

def rangeFor (offset : UInt64) : Option UInt64 :=
  if offset = 0 then none else some offset

def optionText : Option UInt64 → String
  | none => "None"
  | some n => s!"Some({n.toNat})"

def failWith (error : TransferError) : Phase × List Effect :=
  (.ended (.returned (.error error)), [])

def begin (offset : UInt64) : Phase × List Effect :=
  (.waiting offset, [.send (rangeFor offset)])

def onPartial (offset : UInt64) (head : ResponseHead) : Phase × List Effect :=
  let range := head.range
  if range.start ≠ some offset then
    failWith (.invalidResponse
      s!"expected content range starting at {offset.toNat}, got {optionText range.start}")
  else
    let receive (total : Option UInt64) : Phase × List Effect :=
      (.receiving total offset, [.openAt offset, .report (.started offset total)])
    match range.total, head.contentLength with
    | some total, _ => receive (some total)
    | none, none => receive none
    | none, some length =>
      match Counter.add64 length offset with
      | .ok total => receive (some total)
      | .error overflow => (.ended (.brokeDown overflow), [.openAt offset])

/-- The server has nothing behind the offset: the file is complete, or is asked for as a whole. -/
def onUnsatisfiable (offset : UInt64) (head : ResponseHead) : Phase × List Effect :=
  if head.range.total = some offset then
    (.ended (.returned (.ok ())), [.report (.started offset (some offset))])
  else (.waiting 0, [.send none])

def onHead (url : String) (offset : UInt64) (head : ResponseHead) : Phase × List Effect :=
  if head.status = 416 ∧ offset ≠ 0 then onUnsatisfiable offset head
  else if head.status = 206 ∧ offset ≠ 0 then onPartial offset head
  else if head.isSuccess then
    (.receiving head.contentLength 0, [.openFresh, .report (.started 0 head.contentLength)])
  else failWith (.http head.status url)

def onChunk (total : Option UInt64) (downloaded : UInt64) (bytes : List UInt8) :
    Phase × List Effect :=
  match Counter.add64 downloaded (UInt64.ofNat bytes.length) with
  | .ok reached => (.receiving total reached, [.append bytes, .report (.reached reached total)])
  | .error overflow => (.ended (.brokeDown overflow), [.append bytes])

def onBodyEnd (total : Option UInt64) (downloaded : UInt64) : Phase × List Effect :=
  match total with
  | some expected =>
    if downloaded < expected then
      failWith (.invalidResponse
        s!"body ended after {downloaded.toNat} of {expected.toNat} bytes")
    else (.ended (.returned (.ok ())), [])
  | none => (.ended (.returned (.ok ())), [])

/-- One step of a fetch; signals that do not fit its phase are passed over. -/
def step (request : FetchRequest) (stallSecs : UInt64) : Phase → Signal → Phase × List Effect
  | .ended result, _ => (.ended result, [])
  | _, .cancel => failWith .cancelled
  | _, .lost message transient => failWith (.network message transient)
  | .waiting offset, .head head => onHead request.url offset head
  | .waiting offset, _ => (.waiting offset, [])
  | .receiving total downloaded, .chunk bytes => onChunk total downloaded bytes
  | .receiving total downloaded, .bodyEnd => onBodyEnd total downloaded
  | .receiving _ _, .stall => failWith (.stalled stallSecs)
  | .receiving total downloaded, .head _ => (.receiving total downloaded, [])

end Fetch

end DownloadQueue
