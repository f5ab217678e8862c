import DownloadQueue.FileSystem.Change

namespace DownloadQueue.Disk

def textOf (place : Place) : String :=
  (Path.ofNames place).text

def entryOf (place : Place) : IO.FS.DirEntry :=
  { root := "/", fileName := "/".intercalate place }

/-- What stands at a place. The bytes of a file count only where they are `wanted`. -/
def nodeAt (wanted : Bool) (place : Place) : IO (Option Node) := do
  try
    let metadata ← (entryOf place).path.metadata
    match metadata.type with
    | .dir => return some .directory
    | .file =>
      if wanted then return some (.file (← IO.FS.readBinFile (textOf place)).toList)
      else return some (.file (List.replicate metadata.byteSize.toNat 0))
    | _ => return none
  catch _ => return none

def look (wanted : Bool) (fs : FileSystem) (place : Place) : IO FileSystem :=
  (List.range place.length).foldlM
    (fun fs n => do
      let above := place.take (n + 1)
      match ← nodeAt wanted above with
      | some node => return fs.put above node
      | none => return fs.erase above)
    fs

def placeOf (fs : FileSystem) (path : Path) : Place :=
  Path.fold (if path.isAbsolute then [] else fs.cwd) path.components

def lookAt (wanted : Bool) (fs : FileSystem) (path : Path) : IO FileSystem :=
  look wanted fs (placeOf fs path)

def replaceFile (place : Place) (content : List UInt8) : IO Unit := do
  let temporary := textOf place ++ ".tmp"
  IO.FS.writeBinFile temporary ⟨content.toArray⟩
  IO.FS.rename temporary (textOf place)

def makeNode (place : Place) : Node → IO Unit
  | .directory => IO.FS.createDirAll (textOf place)
  | .file content => replaceFile place content

def update (before after : FileSystem) : IO Unit := do
  let changed := after.nodes.filter fun entry => before.node? entry.1 ≠ some entry.2
  for entry in changed.mergeSort fun a b => a.1.length ≤ b.1.length do
    makeNode entry.1 entry.2
  for entry in before.nodes do
    if (after.node? entry.1).isNone && entry.2 ≠ .directory then
      try IO.FS.removeFile (textOf entry.1) catch _ => return ()

end DownloadQueue.Disk
