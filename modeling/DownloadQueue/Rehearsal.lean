import DownloadQueue.Controller

/-!
A queue whose transfers follow a script on a clock of their own. A transfer waits until it is told
what to do, and does not react by itself when it is told to stop.
-/

namespace DownloadQueue

structure LiveFetch where
  seq : Nat
  id : ItemId
  destination : Path
  cancelled : Bool
  /-- The queue that began it is gone. -/
  orphaned : Bool := false
  deriving DecidableEq, Repr

def LiveFetch.same (a b : LiveFetch) : Bool :=
  a.seq = b.seq && a.id = b.id && a.orphaned = b.orphaned

inductive Act
  | report (progress : Progress)
  | write (length : Nat)
  | remove
  | finish (ending : Ending)
  deriving DecidableEq, Repr

structure Rehearsal where
  controller : Option Controller := none
  files : FileSystem
  clock : Nat := 0
  live : List LiveFetch := []
  known : Nat := 0
  heard : Nat := 0
  fetches : List FetchRequest := []
  events : List Event := []
  last : Option Snapshot := none
  watching : Bool := false
  view : Option Snapshot := none

namespace Rehearsal

def stepNanos : Nat := 1000000

def withController (r : Rehearsal) (change : Controller → Controller) : Rehearsal :=
  match r.controller with
  | none => r
  | some c =>
    let c := change { c with scheduler := { c.scheduler with files := r.files, clock := r.clock } }
    { r with controller := some c, files := c.scheduler.files }

def newFetches (known : Nat) (fetches : List FetchRequest) : List LiveFetch :=
  ((fetches.drop known).zipIdx (known + 1)).map fun (request, seq) =>
    { seq, id := request.id, destination := request.destination, cancelled := false }

def refresh (active : List Binding) (fetch : LiveFetch) : LiveFetch :=
  match active.find? fun binding => !fetch.orphaned && binding.seq = fetch.seq with
  | some binding => { fetch with cancelled := fetch.cancelled || binding.cancelled }
  | none => fetch

/-- The live fetches after one more was begun: an item has one fetch, the one begun last. -/
def withFetch (live : List LiveFetch) (fetch : LiveFetch) : List LiveFetch :=
  (live.filter fun other => other.id ≠ fetch.id) ++ [fetch]

def note (r : Rehearsal) (s : Scheduler) : Rehearsal :=
  { r with
    live := ((newFetches r.known s.fetches).foldl withFetch r.live).map (refresh s.active)
    fetches := r.fetches ++ s.fetches.drop r.known
    known := s.fetches.length
    events := r.events ++ s.events.drop r.heard
    heard := s.events.length }

def observe (r : Rehearsal) : Rehearsal :=
  match r.controller with
  | none => r
  | some c =>
    let r := r.note c.scheduler
    { r with last := some c.snapshot, view := if r.watching then some c.snapshot else r.view }

def settle (r : Rehearsal) : Rehearsal :=
  let waiting := match r.controller with
    | some c => c.scheduler.inbox.length
    | none => 0
  (r.withController fun c => waiting.fold (fun _ _ c => c.takeMessage) c).observe

def ring (target : Nat) (r : Rehearsal) : Rehearsal :=
  match r.controller with
  | none => r
  | some c =>
    if !c.running then r
    else
      match c.scheduler.nextTimer? with
      | none => r
      | some timer =>
        if timer.due ≤ target then
          let r := { r with clock := max r.clock timer.due }
          (r.withController fun c =>
            { c with scheduler := c.scheduler.expire timer }.takeRetry).observe
        else r

def elapse (r : Rehearsal) (nanos : Nat) : Rehearsal :=
  let target := r.clock + nanos
  let count := match r.controller with
    | some c => c.scheduler.timers.length
    | none => 0
  let r := count.fold (fun _ _ r => r.ring target) r
  { r with clock := target }

def withoutController (r : Rehearsal) : Rehearsal :=
  { r with
    controller := none
    live := r.live.map fun fetch => { fetch with orphaned := true }
    known := 0
    heard := 0
    watching := false }

def start (r : Rehearsal) (config : Config) (now : Timestamp) (stamp : String) (share : Float) :
    Rehearsal × Startup :=
  let r := r.withoutController
  let startup := Controller.start config { files := r.files, clock := r.clock, now, stamp, share }
  match startup with
  | .started c => ({ r with controller := some c, files := c.scheduler.files }.observe, startup)
  | .broken scheduler _ =>
    (({ r with files := scheduler.files }.note scheduler).withoutController, startup)
  | _ => (r, startup)

def call {α : Type} (r : Rehearsal) (operation : Controller → Controller × α) :
    Rehearsal × Option α :=
  match r.controller with
  | none => (r, none)
  | some c =>
    let (c, result) :=
      operation { c with scheduler := { c.scheduler with files := r.files, clock := r.clock } }
    ({ r with controller := some c, files := c.scheduler.files }.observe, some result)

def deliver (r : Rehearsal) (fetch : LiveFetch) (report : Report) : Rehearsal :=
  r.withController fun c =>
    if c.running && !fetch.orphaned then
      { c with scheduler := c.scheduler.receive ⟨fetch.id, report⟩ }
    else c

/-- A scripted fetch does one thing; what follows its ending is lost. -/
def act (fetch : LiveFetch) (r : Rehearsal) : Act → Rehearsal
  | .report progress => r.deliver fetch (.progress progress)
  | .write length =>
    let written := (r.files.makeRoomFor fetch.destination).bind fun files =>
      files.setLength fetch.destination length
    { r with files := written.toOption.getD r.files }
  | .remove => { r with files := (r.files.removeFile fetch.destination).toOption.getD r.files }
  | .finish ending =>
    { r with live := r.live.filter fun other => !other.same fetch }.deliver fetch
      (.ended ending)

def perform (fetch : LiveFetch) (r : Rehearsal) : List Act → Rehearsal
  | [] => r
  | .finish ending :: _ => r.act fetch (.finish ending)
  | action :: actions => (r.act fetch action).perform fetch actions

def fetchOf? (r : Rehearsal) (id : ItemId) : Option LiveFetch :=
  r.live.find? fun fetch => fetch.id = id

def direct (r : Rehearsal) (fetch : LiveFetch) (actions : List Act) : Rehearsal :=
  (r.perform fetch actions).settle

def liveInOrder (r : Rehearsal) : List LiveFetch :=
  r.live.mergeSort fun a b => a.id.value ≤ b.id.value

def directAtEnd (script : LiveFetch → List Act) (r : Rehearsal) (fetch : LiveFetch) : Rehearsal :=
  (r.perform fetch (script fetch)).withController Controller.hearWorkers

/--
A shutdown: the fetches do what `script` says, one after the other, while the queue waits for its
workers. A queue that does not wait hears of none of them.
-/
def shutdown (r : Rehearsal) (script : LiveFetch → List Act) : Rehearsal × Except QueueError Unit :=
  match r.controller with
  | none => (r, .error .shuttingDown)
  | some c =>
    if !c.running then (r, .error .shuttingDown)
    else
      let inTime := c.scheduler.config.shutdownTimeout ≠ 0
      let r := r.withController Controller.beginClose
      let r := if inTime then r.liveInOrder.foldl (directAtEnd script) r else r
      let (r, result) := r.call Controller.close
      ({ r with live := r.live.filter fun fetch => fetch.orphaned },
        result.getD (.error .shuttingDown))

def drop (r : Rehearsal) (script : LiveFetch → List Act) : Rehearsal :=
  (r.shutdown script).1.withoutController

end Rehearsal

end DownloadQueue
