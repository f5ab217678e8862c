/-!
Paths as they are written, and the components that they are made of. Two spellings with the same
components name the same place.
-/

namespace DownloadQueue

structure Path where
  text : String
  deriving DecidableEq, Repr

namespace Path

inductive Component
  | root
  /-- The directory itself, which counts only at the start of a relative path. -/
  | current
  | parent
  | entry (label : String)
  deriving DecidableEq, Repr

def splitSlash : List Char → List (List Char)
  | [] => [[]]
  | c :: cs =>
    if c = '/' then [] :: splitSlash cs
    else
      match splitSlash cs with
      | piece :: pieces => (c :: piece) :: pieces
      | [] => [[c]]

/-- The step that a piece between slashes stands for; empty pieces and inner dots stand for none. -/
def componentOf? (piece : List Char) : Option Component :=
  if piece = [] ∨ piece = ['.'] then none
  else if piece = ['.', '.'] then some .parent
  else some (.entry (String.ofList piece))

def components (path : Path) : List Component :=
  match splitSlash path.text.toList with
  | [] :: rest@(_ :: _) => .root :: rest.filterMap componentOf?
  | ['.'] :: rest => .current :: rest.filterMap componentOf?
  | pieces => pieces.filterMap componentOf?

def isAbsolute (path : Path) : Bool :=
  path.text.toList.head? = some '/'

def isEmpty (path : Path) : Bool :=
  path.text.isEmpty

def same (a b : Path) : Bool :=
  a.components = b.components

def withSuffix (path : Path) (suffix : String) : Path :=
  ⟨path.text ++ suffix⟩

def Component.text : Component → String
  | .root => ""
  | .current => "."
  | .parent => ".."
  | .entry label => label

def ofComponents : List Component → Path
  | [] => ⟨""⟩
  | [.root] => ⟨"/"⟩
  | components => ⟨"/".intercalate (components.map Component.text)⟩

def parent? (path : Path) : Option Path :=
  match path.components with
  | [] => none
  | [.root] => none
  | components => some (ofComponents components.dropLast)

def join (a b : Path) : Path :=
  if b.isAbsolute then b
  else if a.text.isEmpty ∨ a.text.toList.getLast? = some '/' then ⟨a.text ++ b.text⟩
  else ⟨a.text ++ "/" ++ b.text⟩

/--
One step of folding a path away: a name is pushed, a parent step pops the last name and is dropped
at the root.
-/
def foldStep (names : List String) : Component → List String
  | .root => []
  | .current => names
  | .parent => names.dropLast
  | .entry label => names ++ [label]

def fold (names : List String) (components : List Component) : List String :=
  components.foldl foldStep names

def ofNames (names : List String) : Path :=
  ⟨"/" ++ "/".intercalate names⟩

end Path

inductive ResolveError
  | emptyPath
  deriving DecidableEq, Repr

def ResolveError.message : ResolveError → String
  | .emptyPath => "cannot make an empty path absolute"

/--
The absolute path of `destination`: relative ones are taken from `downloadDir`, and that from the
working directory `cwd` (the names from the root). Every spelling of one place gives one path.
-/
def resolveDestination (cwd : List String) (downloadDir destination : Path) :
    Except ResolveError Path :=
  let joined := downloadDir.join destination
  if joined.isEmpty then .error .emptyPath
  else .ok (Path.ofNames (Path.fold cwd joined.components))

end DownloadQueue
