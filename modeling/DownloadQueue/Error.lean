import DownloadQueue.Item.Basic

namespace DownloadQueue

inductive IoKind
  | notFound
  | timedOut
  | connectionRefused
  | connectionReset
  | connectionAborted
  | interrupted
  | other
  deriving DecidableEq, Repr

structure IoError where
  kind : IoKind
  message : String
  deriving DecidableEq, Repr

namespace IoError

def noEntry : IoError := ⟨.notFound, "No such file or directory (os error 2)"⟩
def fileExists : IoError := ⟨.other, "File exists (os error 17)"⟩
def notDirectory : IoError := ⟨.other, "Not a directory (os error 20)"⟩
def isDirectory : IoError := ⟨.other, "Is a directory (os error 21)"⟩
def nameTooLong : IoError := ⟨.other, "File name too long (os error 36)"⟩
def notEmpty : IoError := ⟨.other, "Directory not empty (os error 39)"⟩
def invalidArgument : IoError := ⟨.other, "Invalid argument (os error 22)"⟩
def busy : IoError := ⟨.other, "Device or resource busy (os error 16)"⟩
def nulByte : IoError := ⟨.other, "file name contained an unexpected NUL byte"⟩
def notUtf8 : IoError := ⟨.other, "stream did not contain valid UTF-8"⟩

def isTransient (error : IoError) : Bool :=
  match error.kind with
  | .timedOut | .connectionRefused | .connectionReset | .connectionAborted | .interrupted => true
  | .notFound | .other => false

end IoError

inductive TransferError
  | http (status : Nat) (url : String)
  | network (message : String) (transient : Bool)
  | io (error : IoError)
  | stalled (secs : UInt64)
  | invalidResponse (message : String)
  | cancelled
  deriving DecidableEq, Repr

namespace TransferError

def message : TransferError → String
  | http status url => s!"HTTP {status} for {url}"
  | network text _ => s!"network error: {text}"
  | io error => s!"I/O error: {error.message}"
  | stalled secs => s!"transfer stalled: no data for {secs.toNat}s"
  | invalidResponse text => s!"invalid response: {text}"
  | cancelled => "transfer cancelled"

def isRetryable : TransferError → Bool
  | http status _ => 500 ≤ status || status = 408 || status = 429
  | network _ transient => transient
  | io error => error.isTransient
  | stalled _ => true
  | invalidResponse _ => false
  | cancelled => false

end TransferError

inductive Corruption
  | malformed (detail : String)
  | duplicateId (id : ItemId)
  deriving DecidableEq, Repr

def Corruption.message : Corruption → String
  | .malformed detail => detail
  | .duplicateId id => s!"duplicate item id {id.text}"

inductive PersistenceError
  | read (path : Path) (error : IoError)
  | corrupt (path : Path) (reason : Corruption)
  | unsupportedVersion (path : Path) (version : UInt32)
  | write (path : Path) (error : IoError)
  deriving DecidableEq, Repr

namespace PersistenceError

def message : PersistenceError → String
  | read path error => s!"failed to read queue file {path.text}: {error.message}"
  | corrupt path reason => s!"queue file {path.text} is corrupt: {reason.message}"
  | unsupportedVersion path version =>
    s!"queue file {path.text} has unsupported format version {version.toNat}"
  | write path error => s!"failed to write queue file {path.text}: {error.message}"

def kind : PersistenceError → String
  | read _ _ => "read"
  | corrupt _ _ => "corrupt"
  | unsupportedVersion _ _ => "unsupported_version"
  | write _ _ => "write"

end PersistenceError

inductive QueueError
  | config (message : String) (key : Option String)
  | persistence (error : PersistenceError)
  | duplicate (path : Path)
  | invalidUrl (url reason : String)
  | notFound (id : ItemId)
  | invalidTransition (id : ItemId) (operation : String) (state : Status)
  | transfer (error : TransferError)
  | shuttingDown
  | io (error : IoError)
  | serialization (message : String)
  | other (message : String)
  deriving DecidableEq, Repr

namespace QueueError

def message : QueueError → String
  | config text _ => s!"configuration error: {text}"
  | persistence error => s!"persistence error: {error.message}"
  | duplicate path => s!"duplicate download: {path.text} is already queued"
  | invalidUrl url reason => s!"invalid URL {url}: {reason}"
  | notFound id => s!"queue item {id.text} not found"
  | invalidTransition id operation state =>
    s!"cannot {operation} item {id.text} in state {state.name}"
  | transfer error => s!"transfer error: {error.message}"
  | shuttingDown => "shutdown in progress: not accepting commands"
  | io error => s!"I/O error: {error.message}"
  | serialization text => s!"serialization error: {text}"
  | other text => text

def code : QueueError → String
  | config _ _ => "config_error"
  | persistence _ => "persistence_error"
  | duplicate _ => "duplicate"
  | invalidUrl _ _ => "invalid_url"
  | notFound _ => "not_found"
  | invalidTransition _ _ _ => "invalid_transition"
  | transfer _ => "transfer_failed"
  | shuttingDown => "shutting_down"
  | io _ => "io_error"
  | serialization _ => "serialization_error"
  | other _ => "internal_error"

/-- The error concerns one request only and leaves the queue as it was. -/
def isCommandError : QueueError → Bool
  | duplicate _ | invalidUrl _ _ | notFound _ | invalidTransition _ _ _ => true
  | _ => false

end QueueError

/-- A counter left its range; whoever was counting stops. -/
inductive Overflow
  | addition
  | negativeDelay
  | hugeDelay
  deriving DecidableEq, Repr

def Overflow.message : Overflow → String
  | .addition => "attempt to add with overflow"
  | .negativeDelay => "cannot convert float seconds to Duration: value is negative"
  | .hugeDelay => "cannot convert float seconds to Duration: value is either too big or NaN"

end DownloadQueue
