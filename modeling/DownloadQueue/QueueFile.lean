import DownloadQueue.FileSystem.Change
import DownloadQueue.Json.Printer
import DownloadQueue.Json.Reader
import DownloadQueue.Table
import DownloadQueue.Wire.Item

/-!
The file that keeps the queue between runs. A save writes a temporary file beside it and puts that
in its place, so that a reader finds the old queue or the new one and nothing in between.
-/

namespace DownloadQueue.QueueFile

def formatVersion : UInt32 := 1

structure Document where
  version : UInt32
  items : List Item

def itemsOfJson? (json : Json) : Option (List Item) := do
  (← json.elements?).mapM Item.ofJson?

def Document.ofJson? (json : Json) : Option Document := do
  match ← json.slots? ["version", "items"] with
  | [version, items] =>
    return { version := ← version.required Json.toUInt32?, items := ← items.required itemsOfJson? }
  | _ => none

def Document.toJson (document : Document) : Json :=
  .record
    [("version", .ofNat document.version.toNat),
     ("items", .array (document.items.map Item.toJson))]

/-- The items that are saved: all but the deleted ones. -/
def kept (items : List Item) : List Item :=
  items.filter fun item => item.status ≠ .deleted

def render (items : List Item) : List UInt8 :=
  Json.encodeUtf8 (Document.toJson ⟨formatVersion, kept items⟩).pretty

def firstDuplicate? : List ItemId → List ItemId → Option ItemId
  | _, [] => none
  | seen, id :: ids => if id ∈ seen then some id else firstDuplicate? (id :: seen) ids

def parse (path : Path) (bytes : List UInt8) : Except PersistenceError (List Item) :=
  match (Json.parse? bytes).bind Document.ofJson? with
  | none => .error (.corrupt path (.malformed "not a queue document"))
  | some document =>
    if document.version ≠ formatVersion then .error (.unsupportedVersion path document.version)
    else
      match firstDuplicate? [] (document.items.map Item.id) with
      | some id => .error (.corrupt path (.duplicateId id))
      | none => .ok document.items

/-- The saved items; no file is an empty queue. -/
def load (fs : FileSystem) (path : Path) : Except PersistenceError (List Item) :=
  match fs.read path with
  | .ok bytes => parse path bytes
  | .error error => if error.kind = .notFound then .ok [] else .error (.read path error)

def temporary (path : Path) : Path :=
  path.withSuffix ".tmp"

inductive SaveStep
  | makeRoom
  | createTemporary
  | write (bytes : List UInt8)
  | synchronise
  | replace
  deriving DecidableEq, Repr

def SaveStep.run (path : Path) (fs : FileSystem) : SaveStep → Except IoError FileSystem
  | makeRoom => fs.makeRoomFor path
  | createTemporary => fs.create (temporary path)
  | write bytes => fs.append (temporary path) bytes
  | synchronise => .ok fs
  | replace => fs.rename (temporary path) path

/-- The tree after a step that failed. -/
def SaveStep.leftover (path : Path) (fs : FileSystem) : SaveStep → FileSystem
  | makeRoom => fs.roomLeft path
  | _ => fs

def saveSteps (items : List Item) : List SaveStep :=
  [.makeRoom, .createTemporary, .write (render items), .synchronise, .replace]

def runSteps (path : Path) (fs : FileSystem) : List SaveStep → FileSystem × Except IoError Unit
  | [] => (fs, .ok ())
  | step :: steps =>
    match step.run path fs with
    | .ok fs => runSteps path fs steps
    | .error error => (step.leftover path fs, .error error)

def save (fs : FileSystem) (path : Path) (items : List Item) :
    FileSystem × Except PersistenceError Unit :=
  match runSteps path fs (saveSteps items) with
  | (fs, .ok ()) => (fs, .ok ())
  | (fs, .error error) => (fs, .error (.write path error))

def asidePath (path : Path) (stamp : String) : Path :=
  path.withSuffix (".corrupt-" ++ stamp)

def moveAside (fs : FileSystem) (path : Path) (stamp : String) :
    FileSystem × Except PersistenceError Path :=
  match fs.rename path (asidePath path stamp) with
  | .ok fs => (fs, .ok (asidePath path stamp))
  | .error error => (fs, .error (.write path error))

end DownloadQueue.QueueFile
