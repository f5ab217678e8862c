import DownloadQueue.FileSystem.Basic

namespace DownloadQueue.FileSystem

def makeDirectory (fs : FileSystem) (path : Path) : Except IoError FileSystem := do
  match ← fs.locate path with
  | .here _ => .error .fileExists
  | .entry directory label _ =>
    let place ← childOf directory label
    match fs.node? place with
    | some _ => .error .fileExists
    | none => .ok (fs.put place .directory)

def makeParents (fs : FileSystem) : List Path.Component → Except IoError FileSystem
  | [] => .ok fs
  | last :: above =>
    let path := Path.ofComponents (last :: above).reverse
    match fs.makeDirectory path with
    | .ok fs => .ok fs
    | .error error =>
      if error.kind = .notFound then do
        let fs ← fs.makeParents above
        match fs.makeDirectory path with
        | .ok fs => .ok fs
        | .error error => if fs.isDirectory path then .ok fs else .error error
      else if fs.isDirectory path then .ok fs
      else .error error

def makeDirectories (fs : FileSystem) (path : Path) : Except IoError FileSystem :=
  fs.makeParents path.components.reverse

def makeRoomFor (fs : FileSystem) (path : Path) : Except IoError FileSystem :=
  match path.parent? with
  | none => .ok fs
  | some parent => if parent.isEmpty then .ok fs else fs.makeDirectories parent

/-- The tree after the directory with these components could not be made: those above it that were
made before stay. -/
def parentsLeft (fs : FileSystem) : List Path.Component → FileSystem
  | [] => fs
  | last :: above =>
    match fs.makeDirectory (Path.ofComponents (last :: above).reverse) with
    | .ok _ => fs
    | .error error =>
      if error.kind = .notFound then
        match fs.makeParents above with
        | .ok made => made
        | .error _ => fs.parentsLeft above
      else fs

def roomLeft (fs : FileSystem) (path : Path) : FileSystem :=
  match path.parent? with
  | none => fs
  | some parent => if parent.isEmpty then fs else fs.parentsLeft parent.components.reverse

def openPlace (fs : FileSystem) (path : Path) : Except IoError (Place × List UInt8) := do
  match ← fs.locate path with
  | .here _ => .error .isDirectory
  | .entry directory label closed =>
    if closed then .error .isDirectory
    else
      let place ← childOf directory label
      match fs.node? place with
      | some .directory => .error .isDirectory
      | some (.file content) => .ok (place, content)
      | none => .ok (place, [])

def create (fs : FileSystem) (path : Path) : Except IoError FileSystem := do
  let (place, _) ← fs.openPlace path
  return fs.put place (.file [])

def append (fs : FileSystem) (path : Path) (bytes : List UInt8) : Except IoError FileSystem := do
  let (place, content) ← fs.openPlace path
  return fs.put place (.file (content ++ bytes))

def resized (length : Nat) (content : List UInt8) : List UInt8 :=
  content.take length ++ List.replicate (length - content.length) 0

def setLength (fs : FileSystem) (path : Path) (length : Nat) : Except IoError FileSystem := do
  let (place, content) ← fs.openPlace path
  return fs.put place (.file (resized length content))

def removeFile (fs : FileSystem) (path : Path) : Except IoError FileSystem := do
  match ← fs.locate path with
  | .here _ => .error .isDirectory
  | .entry directory label closed =>
    let place ← childOf directory label
    match fs.node? place with
    | none => .error .noEntry
    | some .directory => .error .isDirectory
    | some (.file _) => if closed then .error .notDirectory else .ok (fs.erase place)

def removePartial (fs : FileSystem) (path : Path) : Except IoError FileSystem :=
  match fs.removeFile path with
  | .ok fs => .ok fs
  | .error error => if error.kind = .notFound then .ok fs else .error error

/-- The name in a directory that a path leads to; other paths cannot be renamed. -/
def renameEnd (fs : FileSystem) (path : Path) : Except IoError (Place × String × Bool) := do
  match ← fs.locate path with
  | .here _ => .error .busy
  | .entry directory label closed => .ok (directory, label, closed)

def move (fs : FileSystem) (source target : Place) : FileSystem :=
  let kept := fs.nodes.filter fun entry => entry.1 ≠ target
  { fs with
    nodes :=
      kept.map fun entry =>
        if entry.1 = source ∨ isBelow source entry.1 then
          (target ++ entry.1.drop source.length, entry.2)
        else entry }

/-- Gives what stands at a path a new path; a file that stood there is replaced. -/
def rename (fs : FileSystem) (source target : Path) : Except IoError FileSystem := do
  let (fromDirectory, fromLabel, fromClosed) ← fs.renameEnd source
  let (toDirectory, toLabel, toClosed) ← fs.renameEnd target
  let fromPlace ← childOf fromDirectory fromLabel
  match fs.node? fromPlace with
  | none => .error .noEntry
  | some node =>
    let toPlace ← childOf toDirectory toLabel
    if node ≠ .directory ∧ (fromClosed ∨ toClosed) then .error .notDirectory
    else if isBelow fromPlace toPlace then .error .invalidArgument
    else if isBelow toPlace fromPlace then .error .notEmpty
    else if fromPlace = toPlace then .ok fs
    else
      match node, fs.node? toPlace with
      | .file _, some .directory => .error .isDirectory
      | .directory, some (.file _) => .error .notDirectory
      | .directory, some .directory =>
        if fs.nodes.any fun entry => isBelow toPlace entry.1 then .error .notEmpty
        else .ok (fs.move fromPlace toPlace)
      | _, _ => .ok (fs.move fromPlace toPlace)

end DownloadQueue.FileSystem
