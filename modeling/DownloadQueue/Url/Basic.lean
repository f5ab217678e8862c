import DownloadQueue.Url.Host

namespace DownloadQueue

structure Url where
  scheme : String
  host : Option Url.Host
  portNumber : Option Nat
  /-- The segments of the path; `none` if the path does not start at a root. -/
  segments : Option (List (List Char))
  query : Option (List Char)
  deriving DecidableEq, Repr

namespace Url

inductive SchemeKind
  | web
  | file
  | other
  deriving DecidableEq, Repr

def schemeKind (scheme : String) : SchemeKind :=
  if scheme = "file" then .file
  else if scheme ∈ ["http", "https", "ws", "wss", "ftp"] then .web
  else .other

def isLetter (c : Char) : Bool :=
  ('a' ≤ c && c ≤ 'z') || ('A' ≤ c && c ≤ 'Z')

def isSchemeChar (c : Char) : Bool :=
  isLetter c || isDigit c || c = '+' || c = '-' || c = '.'

def cleaned (text : List Char) : List Char :=
  let isEdge (c : Char) : Bool := c.toNat ≤ 0x20
  let inner := ((text.dropWhile isEdge).reverse.dropWhile isEdge).reverse
  inner.filter fun c => c ≠ '\t' && c ≠ '\n' && c ≠ '\r'

def readScheme (cs : List Char) : Option (String × List Char) :=
  if cs.head?.any isLetter then
    match cs.dropWhile isSchemeChar with
    | ':' :: rest => some (String.ofList ((cs.takeWhile isSchemeChar).map lowerAscii), rest)
    | _ => none
  else none

def endsAuthority (kind : SchemeKind) (c : Char) : Bool :=
  c = '/' || c = '?' || c = '#' || (c = '\\' && kind ≠ .other)

def splitUser (authority : List Char) : Option (List Char × List Char) :=
  if authority.contains '@' then
    let behind := (authority.reverse.takeWhile fun c => c ≠ '@').reverse
    some (authority.take (authority.length - behind.length - 1), behind)
  else none

/-- The host's characters, and what follows them; a colon inside brackets does not end them. -/
def takeHost : Bool → List Char → List Char × List Char
  | _, [] => ([], [])
  | inside, c :: cs =>
    if c = ':' ∧ inside = false then ([], c :: cs)
    else
      let inside := if c = '[' then true else if c = ']' then false else inside
      let (host, rest) := takeHost inside cs
      (c :: host, rest)

def digitsValue (digits : List Char) : Nat :=
  digits.foldl (fun n d => n * 10 + (d.toNat - 48)) 0

structure Authority where
  host : Host
  portNumber : Option Nat
  rest : List Char

/--
What follows a host: nothing, or a colon and a number up to 65535. A backslash behind the number
belongs to the path.
-/
def readPortPart (cs : List Char) : Option (Option Nat × List Char) :=
  match cs with
  | [] => some (none, [])
  | c :: behind =>
    let digits := behind.takeWhile isDigit
    let rest := behind.dropWhile isDigit
    if c = ':' ∧ digitsValue digits ≤ 65535 ∧ (rest = [] ∨ rest.head? = some '\\') then
      some (if digits = [] then none else some (digitsValue digits), rest)
    else none

def hasUser (user : List Char) : Bool :=
  user ≠ [] && user ≠ [':']

/--
Reads the authority of an address: a user, a host and the number of a connection point. `atEnd`
says that nothing follows the authority.
-/
def readAuthority (kind : SchemeKind) (atEnd : Bool) (authority : List Char) :
    Except Fault Authority :=
  let (user, behind) := (splitUser authority).getD ([], authority)
  let (name, portPart) := takeHost false behind
  if splitUser authority = some ([], []) ∧ atEnd = false then .error .emptyHost
  else if name = [] ∧ (kind = .web ∨ portPart ≠ []) then .error .emptyHost
  else do
    let host ← if kind = .web then readHost name else readRawHost name
    match readPortPart portPart with
    | none => .error .invalidPortNumber
    | some (portNumber, rest) =>
      if name = [] ∧ hasUser user then .error .emptyHost else .ok { host, portNumber, rest }

def pathPieces (kind : SchemeKind) : List Char → List (List Char)
  | [] => [[]]
  | c :: cs =>
    if c = '/' ∨ (c = '\\' ∧ kind ≠ .other) then [] :: pathPieces kind cs
    else
      match pathPieces kind cs with
      | piece :: pieces => (c :: piece) :: pieces
      | [] => [[c]]

def plainDots : List Char → List Char
  | '%' :: '2' :: 'e' :: rest => '.' :: plainDots rest
  | '%' :: '2' :: 'E' :: rest => '.' :: plainDots rest
  | c :: rest => c :: plainDots rest
  | [] => []

def isSingleDot (piece : List Char) : Bool :=
  plainDots piece = ['.']

def isDoubleDot (piece : List Char) : Bool :=
  plainDots piece = ['.', '.']

def isDrive (piece : List Char) : Bool :=
  match piece with
  | [c, mark] => isLetter c && (mark = ':' || mark = '|')
  | _ => false

/-- The segment that a first piece of a file's path stands for: a drive is written with a colon. -/
def driveSegment (piece : List Char) : List Char :=
  match piece with
  | [c, '|'] => if isLetter c then [c, ':'] else piece
  | _ => piece

def shorten (segments : List (List Char)) : List (List Char) :=
  if segments.getLast?.any isDrive then segments else segments.dropLast

def resolve (kind : SchemeKind) (segments : List (List Char)) : List (List Char) → List (List Char)
  | [] => segments
  | piece :: pieces =>
    let isLast := pieces.isEmpty
    if isSingleDot piece then
      resolve kind (if isLast then segments ++ [[]] else segments) pieces
    else if isDoubleDot piece then
      let shorter := shorten segments
      resolve kind (if isLast then shorter ++ [[]] else shorter) pieces
    else if kind = .file ∧ segments = [] then
      resolve kind [driveSegment piece] pieces
    else resolve kind (segments ++ [piece]) pieces

def beforeQuery (cs : List Char) : List Char :=
  cs.takeWhile fun c => c ≠ '?' && c ≠ '#'

def queryOf (cs : List Char) : Option (List Char) :=
  match (cs.takeWhile fun c => c ≠ '#').dropWhile fun c => c ≠ '?' with
  | [] => none
  | _ :: query => some query

def pathSegments (kind : SchemeKind) (path : List Char) : List (List Char) :=
  resolve kind [] (pathPieces kind path)

def dropSlash (kind : SchemeKind) : List Char → List Char
  | '/' :: rest => rest
  | '\\' :: rest => if kind = .other then '\\' :: rest else rest
  | cs => cs

def parseAuthority (scheme : String) (kind : SchemeKind) (cs : List Char) : Except Fault Url :=
  let authority := cs.takeWhile fun c => !endsAuthority kind c
  let behind := cs.drop authority.length
  (readAuthority kind behind.isEmpty authority).map fun read =>
    let path := beforeQuery (read.rest ++ behind)
    { scheme
      host := some read.host
      portNumber := read.portNumber
      segments :=
        if kind = .other ∧ path = [] then none else some (pathSegments kind (dropSlash kind path))
      query := queryOf (read.rest ++ behind) }

def withoutAuthority (scheme : String) (segments : Option (List (List Char)))
    (cs : List Char) : Url :=
  { scheme, host := none, portNumber := none, segments, query := queryOf cs }

def filePath (scheme : String) (path : List Char) : Url :=
  withoutAuthority scheme (some (pathSegments .file (beforeQuery path))) path

def parseFileHost (scheme : String) (cs : List Char) : Except Fault Url :=
  let name := cs.takeWhile fun c => !endsAuthority .file c
  if isDrive name then .ok (filePath scheme cs)
  else
    let rest := dropSlash .file (cs.drop name.length)
    if name = [] then .ok (filePath scheme rest)
    else (readHost name).map fun host => { filePath scheme rest with host := some host }

def isSlash (c : Char) : Bool :=
  c = '/' || c = '\\'

def parse (text : List Char) : Except Fault Url :=
  match readScheme (cleaned text) with
  | none => .error .relative
  | some (scheme, rest) =>
    match schemeKind scheme with
    | .web => parseAuthority scheme .web (rest.dropWhile isSlash)
    | .file =>
      match rest with
      | a :: b :: behind =>
        if isSlash a && isSlash b then parseFileHost scheme behind
        else .ok (filePath scheme (dropSlash .file rest))
      | _ => .ok (filePath scheme (dropSlash .file rest))
    | .other =>
      match rest with
      | '/' :: '/' :: behind => parseAuthority scheme .other behind
      | '/' :: behind =>
        .ok (withoutAuthority scheme (some (pathSegments .other (beforeQuery behind))) behind)
      | _ => .ok (withoutAuthority scheme none rest)

end Url

end DownloadQueue
