import DownloadQueue.Config
import DownloadQueue.Fetch.Basic
import DownloadQueue.FileSystem.Basic
import DownloadQueue.Http.Request
import DownloadQueue.Http.Response
import Std.Async.DNS
import Std.Async.TCP

namespace DownloadQueue.Network

open Std.Async Std.Net

structure Line where
  cancel : IO.Ref Bool
  tell : Report → IO Unit

def pollMillis : UInt32 := 2

/-- Waits for a task, but no longer than the limit and not after a cancellation. -/
partial def await {α : Type} (line : Line) (limit : Nat) (task : AsyncTask α) :
    IO (Except Fetch.Signal α) := do
  let deadline := (← IO.monoMsNow) + limit
  let rec loop : IO (Except Fetch.Signal α) := do
    if ← line.cancel.get then return .error .cancel
    else if ← IO.hasFinished task then
      try return .ok (← task.block) catch error => return .error (.lost (toString error) true)
    else if deadline < (← IO.monoMsNow) then return .error .stall
    else
      IO.sleep pollMillis
      loop
  loop

def socketAddress (number : UInt16) : IPAddr → SocketAddress
  | .v4 address => .v4 ⟨address, number⟩
  | .v6 address => .v6 ⟨address, number⟩

def connect (url : Url) (userAgent : String) (range : Option UInt64) : Async TCP.Socket.Client := do
  match url.host with
  | none => throw (IO.userError "no host")
  | some host =>
    let name := (Http.hostText host).toList.filter fun c => c ≠ '[' && c ≠ ']'
    let found ← DNS.getAddrInfo (String.ofList name) ""
    let number := UInt16.ofNat (url.portNumber.getD Http.usualPort)
    let client ← TCP.Socket.Client.mk
    match found.toList.head? with
    | none => throw (IO.userError "no address")
    | some address =>
      client.connect (socketAddress number address)
      client.send (Http.requestText url host userAgent range).toUTF8
      return client

def redirection? (url : Url) (lines : Http.Reader.Lines) : Option Url :=
  if lines.head.status ∈ [301, 302, 303, 307, 308] then
    lines.location.bind fun location =>
      match Url.parse location with
      | .ok next => some next
      | .error _ =>
        match location with
        | '/' :: path =>
          some { url with
            segments := some (Url.pathSegments .web (Url.beforeQuery path))
            query := Url.queryOf path }
        | _ => none
  else none

structure Exchange where
  client : TCP.Socket.Client
  url : Url
  reader : Http.Reader
  range : Option UInt64
  hops : Nat

abbrev Output := IO.Ref (Option IO.FS.Handle)

def openAt (destination : String) (offset : UInt64) : IO IO.FS.Handle := do
  let there ← try IO.FS.readBinFile destination catch _ => pure ByteArray.empty
  if there.size ≠ offset.toNat then
    IO.FS.writeBinFile destination (there.extract 0 offset.toNat)
  IO.FS.Handle.mk destination .append

def makeParent (destination : Path) : IO Unit :=
  match destination.parent? with
  | some parent => IO.FS.createDirAll parent.text
  | none => return ()

def perform (line : Line) (output : Output) (destination : Path) : Fetch.Effect → IO Unit
  | .send _ => return ()
  | .openAt offset => do
    makeParent destination
    output.set (some (← openAt destination.text offset))
  | .openFresh => do
    makeParent destination
    output.set (some (← IO.FS.Handle.mk destination.text .write))
  | .append bytes => do
    match ← output.get with
    | some handle => handle.write ⟨bytes.toArray⟩; handle.flush
    | none => return ()
  | .report progress => line.tell (.progress progress)

def request? (effects : List Fetch.Effect) : Option (Option UInt64) :=
  effects.findSome? fun
    | .send range => some range
    | _ => none

def exchange (config : TransferConfig) (line : Line) (url : Url) (range : Option UInt64)
    (hops : Nat) : IO (Except Fetch.Signal Exchange) := do
  if url.scheme ≠ "http" then return .error (.lost "invalid URL, scheme is not http" true)
  let task ← (connect url config.userAgent range).toIO
  match ← await line (config.connectTimeout.toNat * 1000) task with
  | .ok client => return .ok { client, url, reader := .start, range, hops }
  | .error .stall => return .error (.lost "connection timed out" true)
  | .error signal => return .error signal

def listen (config : TransferConfig) (line : Line) (ex : Exchange) :
    IO (Exchange × List Fetch.Signal) := do
  if ex.reader = .done then return (ex, [.bodyEnd])
  let task ← (ex.client.recv? 65536).toIO
  match ← await line (config.stallTimeout.toNat * 1000) task with
  | .error signal => return (ex, [signal])
  | .ok none => return (ex, [ex.reader.onClose])
  | .ok (some bytes) =>
    let batch := ex.reader.feed bytes.toList
    let chunk := if batch.body.isEmpty then [] else [Fetch.Signal.chunk batch.body.reverse]
    let ex := { ex with reader := batch.reader }
    match batch.lines with
    | none => return (ex, chunk)
    | some lines =>
      match redirection? ex.url lines, ex.hops with
      | some next, hops + 1 =>
        match ← exchange config line next ex.range hops with
        | .ok ex => return (ex, [])
        | .error signal => return (ex, [signal])
      | _, _ => return (ex, .head lines.head :: chunk)

partial def drive (config : TransferConfig) (request : FetchRequest) (url : Url) (line : Line)
    (output : Output) (ex : Option Exchange) (phase : Fetch.Phase) (signals : List Fetch.Signal) :
    IO Fetch.Result := do
  match phase, signals with
  | .ended result, _ => return result
  | phase, signal :: signals =>
    let (phase, effects) := Fetch.step request config.stallTimeout phase signal
    try
      effects.forM (perform line output request.destination)
    catch error =>
      return .returned (.error (.io ⟨.other, toString error⟩))
    match request? effects with
    | none => drive config request url line output ex phase signals
    | some range =>
      match ← exchange config line url range 10 with
      | .ok ex => drive config request url line output (some ex) phase []
      | .error signal => drive config request url line output none phase [signal]
  | phase, [] =>
    match ex with
    | none => return .returned (.error (.network "no connection" false))
    | some ex =>
      let (ex, signals) ← listen config line ex
      drive config request url line output (some ex) phase signals

def fetch (config : TransferConfig) (request : FetchRequest) (line : Line) : IO Unit := do
  let output ← IO.mkRef none
  let result ← match Url.parse request.url.toList with
    | .error fault => pure (Fetch.Result.returned (.error (.network fault.message false)))
    | .ok url =>
      let (phase, _) := Fetch.begin request.resumeOffset
      match ← exchange config line url (Fetch.rangeFor request.resumeOffset) 10 with
      | .ok ex => drive config request url line output (some ex) phase []
      | .error signal => drive config request url line output none phase [signal]
  output.set none
  line.tell (.ended result.ending)

end DownloadQueue.Network
