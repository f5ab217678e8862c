import DownloadQueue.Fetch.Basic
import DownloadQueue.FileSystem.Change

namespace DownloadQueue.Fetch

structure Run where
  phase : Phase
  files : FileSystem
  requests : List (Option UInt64) := []
  reports : List Progress := []

/-- Does one thing; a failure of the file system ends the fetch. -/
def perform (destination : Path) (run : Run) : Effect → Except IoError Run
  | .send range => .ok { run with requests := run.requests ++ [range] }
  | .openAt offset => do
    let files ← run.files.makeRoomFor destination
    let files ← files.setLength destination offset.toNat
    return { run with files }
  | .openFresh => do
    let files ← run.files.makeRoomFor destination
    let files ← files.create destination
    return { run with files }
  | .append bytes => do
    let files ← run.files.append destination bytes
    return { run with files }
  | .report progress => .ok { run with reports := run.reports ++ [progress] }

def performAll (destination : Path) (run : Run) : List Effect → Run
  | [] => run
  | effect :: effects =>
    match perform destination run effect with
    | .ok run => performAll destination run effects
    | .error error => { run with phase := .ended (.returned (.error (.io error))) }

def advance (request : FetchRequest) (stallSecs : UInt64) (run : Run) (signal : Signal) : Run :=
  let (phase, effects) := step request stallSecs run.phase signal
  performAll request.destination { run with phase } effects

def run (request : FetchRequest) (stallSecs : UInt64) (files : FileSystem)
    (signals : List Signal) : Run :=
  let (phase, effects) := begin request.resumeOffset
  let run := performAll request.destination { phase, files } effects
  signals.foldl (advance request stallSecs) run

end DownloadQueue.Fetch
