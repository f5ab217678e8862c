import DownloadQueue.CommandLine
import DownloadQueue.Controller
import DownloadQueue.Program.Disk
import DownloadQueue.Program.Network
import Std.Async.Signal
import Std.Time

/-!
The program: it runs a queue on the disk and the network until it is told to stop or, if asked to,
until nothing is left to do.
-/

namespace DownloadQueue.Program

structure Shell where
  controller : Controller
  known : Nat := 0
  lines : List (Nat × Network.Line) := []
  mailbox : IO.Ref (List Message)

def timeOfDay : IO Timestamp := do
  let now := Std.Time.DateTime.ofTimestampWithZone (← Std.Time.Timestamp.now) .UTC
  let date := Date.ofCivil? now.year now.month.val.toNat now.day.val.toNat
  let time := ClockTime.ofNumbers? now.hour.val.toNat now.minute.val.toNat now.second.val.toNat
    now.nanosecond.val.toNat
  match date, time with
  | some date, some time => return { date, time }
  | _, _ => return .epoch

def stampOf (now : Timestamp) : String :=
  let date := Decimal.padded 4 now.date.year.toNat ++ Decimal.padded 2 now.date.month ++
    Decimal.padded 2 now.date.day
  let time := Decimal.padded 2 now.time.hour ++ Decimal.padded 2 now.time.minute ++
    Decimal.padded 2 now.time.second
  String.ofList (date ++ time)

def randomShare : IO Float := do
  return Float.ofNat (← IO.rand 0 999999) / 1000000

def Shell.follow (shell : Shell) : IO Shell := do
  let s := shell.controller.scheduler
  let mut lines := shell.lines
  for (request, n) in (s.fetches.drop shell.known).zipIdx shell.known do
    let line : Network.Line :=
      { cancel := ← IO.mkRef false
        tell := fun report =>
          shell.mailbox.modify fun waiting => waiting ++ [⟨request.id, report⟩] }
    let _ ← IO.asTask (Network.fetch s.config.transfer request line) .dedicated
    lines := lines ++ [(n + 1, line)]
  for binding in s.active do
    if binding.cancelled then
      for (seq, line) in lines do
        if seq = binding.seq then line.cancel.set true
  let bound := lines.filter fun entry => s.active.any fun binding => binding.seq = entry.1
  return { shell with known := s.fetches.length, lines := bound }

def Shell.act {α : Type} (shell : Shell) (paths : List Path)
    (operation : Controller → Controller × α) : IO (Shell × α) := do
  let s := shell.controller.scheduler
  let files ← paths.foldlM (Disk.lookAt false) s.files
  let scheduler :=
    { s with files, clock := ← IO.monoNanosNow, now := ← timeOfDay, share := ← randomShare }
  let (controller, result) := operation { shell.controller with scheduler }
  Disk.update files controller.scheduler.files
  return (← { shell with controller }.follow, result)

def Shell.destination? (shell : Shell) (id : ItemId) : Option Path :=
  (shell.controller.scheduler.table.get? id).map Item.destination

def Shell.take (shell : Shell) (message : Message) : IO Shell := do
  let paths := if message.isEnding then (shell.destination? message.id).toList else []
  let (shell, ()) ← shell.act paths fun c =>
    ({ c with scheduler := c.scheduler.receive message }.takeMessage, ())
  return shell

partial def Shell.ring (shell : Shell) : IO Shell := do
  match shell.controller.scheduler.nextTimer? with
  | none => return shell
  | some timer =>
    if (← IO.monoNanosNow) < timer.due then return shell
    let paths := (shell.destination? timer.id).toList
    let (shell, ()) ← shell.act paths fun c =>
      ({ c with scheduler := c.scheduler.expire timer }.takeRetry, ())
    shell.ring

def Shell.collect (shell : Shell) : IO (List Message) :=
  shell.mailbox.modifyGet fun waiting => (waiting, [])

partial def Shell.serve (shell : Shell) (enough : Controller → IO Bool) : IO Shell := do
  let messages ← shell.collect
  let shell ← messages.foldlM Shell.take shell
  let shell ← shell.ring
  if ← enough shell.controller then return shell
  IO.sleep 5
  shell.serve enough

partial def Shell.await (shell : Shell) (deadline : Nat) : IO Shell := do
  let messages ← shell.collect
  let scheduler := messages.foldl Scheduler.receive shell.controller.scheduler
  let shell := { shell with controller := { shell.controller with scheduler } }
  let ended := scheduler.inbox.filter Message.isEnding
  let waiting := scheduler.active.any fun binding => !ended.any fun m => m.id = binding.id
  if waiting && (← IO.monoMsNow) < deadline then
    IO.sleep 5
    shell.await deadline
  else return shell

def Shell.close (shell : Shell) : IO (Except QueueError Unit) := do
  for (_, line) in shell.lines do
    line.cancel.set true
  let timeout := shell.controller.scheduler.config.shutdownTimeout.toNat * 1000
  let shell ← shell.await ((← IO.monoMsNow) + timeout)
  let paths := shell.controller.scheduler.active.filterMap fun b => shell.destination? b.id
  let (_, result) ← shell.act paths fun c => c.beginClose.close
  return result

def startFiles (config : Config) : IO FileSystem := do
  let cwd := (Path.mk (toString (← IO.currentDir))).components.foldl Path.foldStep []
  let fs ← Disk.lookAt true { FileSystem.empty with cwd } config.queue.queueFile
  match QueueFile.load fs config.queue.queueFile with
  | .ok items => items.foldlM (fun fs item => Disk.lookAt false fs item.destination) fs
  | .error _ => return fs

def Shell.add (shell : Shell) (options : CommandLine.Options) : IO (Except QueueError Shell) := do
  let config := shell.controller.scheduler.config
  let cwd := shell.controller.scheduler.files.cwd
  let resolved (destination : Path) : Option Path :=
    (resolveDestination cwd config.queue.downloadDir destination).toOption
  let mut shell := shell
  if let some path := options.textQueue then
    let files ← Disk.lookAt true shell.controller.scheduler.files path
    let entries := match Controller.readText files path with
      | .ok text => (TextQueue.parse text).entries
      | .error _ => []
    let paths := entries.filterMap fun entry => resolved entry.destination
    let scheduler := { shell.controller.scheduler with files }
    let (next, result) ← { shell with controller := { shell.controller with scheduler } }.act paths
      fun c => c.addTextQueue path
    if let .error error := result then return .error error
    shell := next
  for url in options.urls do
    let paths := (fileNameOfUrl? url).bind fun name => resolved ⟨name⟩
    let (next, result) ← shell.act paths.toList fun c => c.enqueueUrl url
    if let .error error := result then IO.eprintln error.message
    shell := next
  return .ok shell

def operate (controller : Controller) (options : CommandLine.Options) :
    IO (Except QueueError Unit) := do
  let shell ← Shell.follow { controller, mailbox := ← IO.mkRef [] }
  match ← shell.add options with
  | .error error => return .error error
  | .ok shell =>
    let terminate ← (← Std.Async.Signal.Waiter.mk .sigterm false).wait
    let interrupt ← (← Std.Async.Signal.Waiter.mk .sigint false).wait
    let shell ← shell.serve fun c => do
      let told := (← IO.hasFinished terminate) || (← IO.hasFinished interrupt)
      return told || !c.running || (options.exitWhenIdle && c.snapshot.isIdle)
    shell.close

def loadConfig (options : CommandLine.Options) : IO (Except QueueError Config) := do
  let base ← match options.config with
    | none => pure (.ok {})
    | some path =>
      try pure (CommandLine.readConfig (← IO.FS.readBinFile path.text).toList)
      catch error => pure (.error (.io ⟨.other, toString error⟩))
  return base.map options.override

def runWith (options : CommandLine.Options) : IO (Except QueueError Unit) := do
  match ← loadConfig options with
  | .error error => return .error error
  | .ok config =>
    if !Http.isHeaderValue config.transfer.userAgent then
      return .error (.transfer (.network "builder error" false))
    let files ← startFiles config
    let now ← timeOfDay
    let around : Surroundings :=
      { files, clock := ← IO.monoNanosNow, now, stamp := stampOf now, share := ← randomShare }
    match Controller.start config around with
    | .refused error => return .error error
    | .exhausted overflow => return .error (.other overflow.message)
    | .broken _ overflow => return .error (.other overflow.message)
    | .started controller =>
      Disk.update files controller.scheduler.files
      operate controller options

def helpText : String :=
  "Persistent podcast download queue\n\n" ++
  "Usage: podcast-dl [OPTIONS] [URLS]...\n\n" ++
  "Options:\n" ++
  "  -c, --config <CONFIG>                JSON config file; flags below override its values\n" ++
  "      --queue-file <QUEUE_FILE>        Queue file to load and persist\n" ++
  "      --download-dir <DOWNLOAD_DIR>    Directory relative destinations are resolved against\n" ++
  "  -j, --max-downloads <MAX_DOWNLOADS>  Maximum number of concurrent downloads\n" ++
  "      --no-auto-download               Do not start queued items automatically\n" ++
  "      --import <IMPORT>                Import a newsboat-style queue file before starting\n" ++
  "      --exit-when-idle                 Exit once nothing is left to download\n" ++
  "  -v, --verbose                        Enable debug logging\n" ++
  "  -h, --help                           Print help\n" ++
  "  -V, --version                        Print version"

end DownloadQueue.Program

open DownloadQueue in
/-- The program; it ends with 0, with 1 after an error and with 2 if it was misused. -/
def main (arguments : List String) : IO UInt32 := do
  match CommandLine.parse arguments with
  | .error refusal =>
    match refusal with
    | .help => IO.println Program.helpText
    | .version => IO.println "podcast-dl 0.1.0"
    | .misuse reason => IO.eprintln s!"error: {reason}"
    return refusal.exitCode
  | .ok options =>
    match ← Program.runWith options with
    | .ok () => return 0
    | .error error =>
      IO.eprintln s!"podcast-dl failed: {error.message}"
      return 1
