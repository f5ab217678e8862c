import DownloadQueue.Scheduler.Control

namespace DownloadQueue

structure Controller where
  scheduler : Scheduler
  running : Bool
  startupError : Option PersistenceError

inductive Startup
  | started (controller : Controller)
  | refused (error : QueueError)
  | exhausted (overflow : Overflow)
  | broken (scheduler : Scheduler) (overflow : Overflow)

structure Surroundings where
  files : FileSystem
  clock : Nat
  now : Timestamp
  /-- The time of day as it is put behind the name of an unusable queue file. -/
  stamp : String
  share : Float

namespace Controller

def launch (config : Config) (around : Surroundings) (files : FileSystem) (table : Table)
    (startupError : Option PersistenceError) : Startup :=
  let scheduler := Scheduler.ofTable config table files around.now around.share
  let step := { scheduler with clock := around.clock }.launch
  match step.result with
  | .ok () => .started { scheduler := step.scheduler, running := true, startupError }
  | .error overflow => .broken step.scheduler overflow

/-- Takes up what the queue file holds. An unusable file is moved aside, and the queue starts empty. -/
def takeUp (config : Config) (around : Surroundings) : Startup :=
  match QueueFile.load around.files config.queue.queueFile with
  | .ok items =>
    match Table.ofItems items with
    | .error overflow => .exhausted overflow
    | .ok table => launch config around around.files table none
  | .error error =>
    let (files, _) := QueueFile.moveAside around.files config.queue.queueFile around.stamp
    launch config around files .empty (some error)

def start (config : Config) (around : Surroundings) : Startup :=
  match config.validate with
  | .error error => .refused error
  | .ok () => takeUp config around

/-- Takes over what a round of the control loop left; an overflow ends the loop. -/
def follow {α : Type} (c : Controller) (step : Step α) : Controller :=
  { c with
    scheduler := step.scheduler
    running :=
      match step.result with
      | .ok _ => c.running
      | .error _ => false }

def request (c : Controller) (request : Request) : Controller × Except QueueError Reply :=
  if c.running then
    let step := c.scheduler.request request
    let after := c.follow step
    match step.result with
    | .ok result => ({ after with running := after.running && request ≠ .shutdown }, result)
    | .error _ => (after, .error .shuttingDown)
  else (c, .error .shuttingDown)

def beginClose (c : Controller) : Controller :=
  if c.running then { c with scheduler := c.scheduler.beginShutdown } else c

def hearWorkers (c : Controller) : Controller :=
  if c.running then c.follow c.scheduler.takeFinalMessages else c

def close (c : Controller) : Controller × Except QueueError Unit :=
  if c.running then
    let step := c.scheduler.endShutdown
    let after := { c.follow step with running := false }
    match step.result with
    | .ok result => (after, result)
    | .error _ => (after, .error .shuttingDown)
  else (c, .error .shuttingDown)

def enqueueUrl (c : Controller) (url : String) : Controller × Except QueueError Reply :=
  match fileNameOfUrl? url with
  | none => (c, .error (.invalidUrl url "no file name in URL path"))
  | some name => c.request (.enqueue url ⟨name⟩)

def readText (files : FileSystem) (path : Path) : Except IoError String :=
  match files.read path with
  | .error error => .error error
  | .ok bytes =>
    match Json.decodeUtf8? bytes with
    | some text => .ok text
    | none => .error .notUtf8

def addTextQueue (c : Controller) (path : Path) : Controller × Except QueueError Reply :=
  match readText c.scheduler.files path with
  | .error error => (c, .error (.io error))
  | .ok text => c.request (.addAll (TextQueue.parse text).entries)

def snapshot (c : Controller) : Snapshot :=
  c.scheduler.snapshots.getLast?.getD .blank

def takeMessage (c : Controller) : Controller :=
  if c.running then c.follow c.scheduler.takeMessage else c

def takeRetry (c : Controller) : Controller :=
  if c.running then c.follow c.scheduler.takeRetry else c

end Controller

end DownloadQueue
