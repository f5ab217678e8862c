import DownloadQueue.Error

/-!
A tree of directories and files as the queue sees it: what stands at each place, and how a path is
followed to its place. There are no links.
-/

namespace DownloadQueue

inductive Node
  | directory
  | file (content : List UInt8)
  deriving DecidableEq, Repr

abbrev Place := List String

structure FileSystem where
  cwd : Place
  nodes : List (Place × Node)
  deriving DecidableEq

namespace FileSystem

def empty : FileSystem := ⟨[], []⟩

/-- What stands at a place; the root is always a directory. -/
def node? (fs : FileSystem) : Place → Option Node
  | [] => some .directory
  | place => (fs.nodes.find? fun entry => entry.1 = place).map Prod.snd

def put (fs : FileSystem) (place : Place) (node : Node) : FileSystem :=
  { fs with nodes := (place, node) :: fs.nodes.filter fun entry => entry.1 ≠ place }

def erase (fs : FileSystem) (place : Place) : FileSystem :=
  { fs with nodes := fs.nodes.filter fun entry => entry.1 ≠ place }

theorem node?_of_ne_nil (fs : FileSystem) {place : Place} (h : place ≠ []) :
    fs.node? place = (fs.nodes.find? fun entry => entry.1 = place).map Prod.snd := by
  cases place with
  | nil => exact absurd rfl h
  | cons name names => rfl

theorem node?_put_self (fs : FileSystem) {place : Place} (h : place ≠ []) (node : Node) :
    (fs.put place node).node? place = some node := by
  rw [node?_of_ne_nil _ h]
  simp [put]

/-- A node that is put in its place leaves all other places as they are. -/
theorem node?_put_of_ne (fs : FileSystem) {place other : Place} (h : other ≠ place) (node : Node) :
    (fs.put place node).node? other = fs.node? other := by
  cases other with
  | nil => rfl
  | cons name names =>
    rw [node?_of_ne_nil _ (List.cons_ne_nil name names),
      node?_of_ne_nil _ (List.cons_ne_nil name names)]
    congr 1
    rw [put, List.find?_cons_of_neg (by simpa using h.symm), List.find?_filter]
    congr 1
    funext entry
    by_cases hentry : entry.1 = name :: names
    · simp [hentry, h]
    · simp [hentry]

theorem node?_erase_self (fs : FileSystem) {place : Place} (h : place ≠ []) :
    (fs.erase place).node? place = none := by
  rw [node?_of_ne_nil _ h]
  simp [erase]

theorem node?_erase_of_ne (fs : FileSystem) {place other : Place} (h : other ≠ place) :
    (fs.erase place).node? other = fs.node? other := by
  cases other with
  | nil => rfl
  | cons name names =>
    rw [node?_of_ne_nil _ (List.cons_ne_nil name names),
      node?_of_ne_nil _ (List.cons_ne_nil name names)]
    congr 1
    rw [erase, List.find?_filter]
    congr 1
    funext entry
    by_cases hentry : entry.1 = name :: names
    · simp [hentry, h]
    · simp [hentry]

def files (fs : FileSystem) : List (Place × List UInt8) :=
  fs.nodes.filterMap fun
    | (place, .file content) => some (place, content)
    | (_, .directory) => none

def isBelow (directory place : Place) : Bool :=
  directory.length < place.length && directory.isPrefixOf place

inductive Target
  | here (place : Place)
  /-- To a name in a directory; `closed` says that a slash follows the name. -/
  | entry (directory : Place) (label : String) (closed : Bool)
  deriving DecidableEq, Repr

def nameLimit : Nat := 255

def pathLimit : Nat := 4095

def childOf (directory : Place) (label : String) : Except IoError Place :=
  if nameLimit < label.utf8ByteSize then .error .nameTooLong else .ok (directory ++ [label])

def enter (fs : FileSystem) (place : Place) : Except IoError Place :=
  match fs.node? place with
  | none => .error .noEntry
  | some (.file _) => .error .notDirectory
  | some .directory => .ok place

def follow (fs : FileSystem) (directory : Place) (piece : String) : Except IoError Place :=
  if piece = "." then .ok directory
  else if piece = ".." then .ok directory.dropLast
  else do fs.enter (← childOf directory piece)

/-- Follows the pieces of a path; the last one is looked at but not followed. -/
def locateFrom (fs : FileSystem) (directory : Place) (closed : Bool) :
    List String → Except IoError Target
  | [] => .ok (.here directory)
  | [piece] =>
    if piece = "." then .ok (.here directory)
    else if piece = ".." then .ok (.here directory.dropLast)
    else .ok (.entry directory piece closed)
  | piece :: pieces => do
    let next ← fs.follow directory piece
    fs.locateFrom next closed pieces

def piecesOf (path : Path) : List String :=
  ((Path.splitSlash path.text.toList).filter fun piece => piece ≠ []).map String.ofList

def locate (fs : FileSystem) (path : Path) : Except IoError Target :=
  if path.text.toList.contains (Char.ofNat 0) then .error .nulByte
  else if path.isEmpty then .error .noEntry
  else if pathLimit < path.text.utf8ByteSize then .error .nameTooLong
  else
    fs.locateFrom (if path.isAbsolute then [] else fs.cwd) (path.text.toList.getLast? = some '/')
      (piecesOf path)

def lookup (fs : FileSystem) (path : Path) : Except IoError (Place × Node) := do
  match ← fs.locate path with
  | .here place => .ok (place, .directory)
  | .entry directory label closed =>
    let place ← childOf directory label
    match fs.node? place with
    | none => .error .noEntry
    | some .directory => .ok (place, .directory)
    | some (.file content) => if closed then .error .notDirectory else .ok (place, .file content)

def read (fs : FileSystem) (path : Path) : Except IoError (List UInt8) := do
  match ← fs.lookup path with
  | (_, .directory) => .error .isDirectory
  | (_, .file content) => .ok content

def fileLength? (fs : FileSystem) (path : Path) : Option Nat :=
  match fs.read path with
  | .ok content => some content.length
  | .error _ => none

/-- The length of the file at a path; no file has no bytes. -/
def fileLength (fs : FileSystem) (path : Path) : UInt64 :=
  UInt64.ofNat ((fs.fileLength? path).getD 0)

def isDirectory (fs : FileSystem) (path : Path) : Bool :=
  match fs.lookup path with
  | .ok (_, .directory) => true
  | _ => false

end FileSystem

end DownloadQueue
