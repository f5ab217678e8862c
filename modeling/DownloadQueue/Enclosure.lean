import DownloadQueue.Error
import DownloadQueue.Text.Blank
import DownloadQueue.Text.Quoted
import DownloadQueue.Url.Basic

namespace DownloadQueue

def supportedSchemes : List String := ["http", "https"]

def validateUrl (url : String) : Except QueueError Url :=
  match Url.parse url.toList with
  | .error fault => .error (.invalidUrl url fault.message)
  | .ok parsed =>
    if parsed.scheme ∈ supportedSchemes then .ok parsed
    else .error (.invalidUrl url s!"unsupported scheme {Text.quoted parsed.scheme}")

def isPlainName (name : List Char) : Bool :=
  name ≠ [] && name ≠ ['.'] && name ≠ ['.', '.'] && !name.contains '/' && !name.contains '\\'

def segmentName? (segment : List Char) : Option String :=
  match Url.percentText? segment with
  | none => none
  | some text =>
    let name := Text.trim text.toList
    if isPlainName name then some (String.ofList name) else none

/-- The file name that an address suggests: the last segment of its path. -/
def fileNameOfUrl? (url : String) : Option String :=
  match Url.parse url.toList with
  | .error _ => none
  | .ok parsed => parsed.segments.bind fun segments => segments.getLast?.bind segmentName?

end DownloadQueue
