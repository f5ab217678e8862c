import DownloadQueue.Config
import DownloadQueue.Json.Reader
import DownloadQueue.Wire.Config

namespace DownloadQueue.CommandLine

structure Options where
  config : Option Path := none
  queueFile : Option Path := none
  downloadDir : Option Path := none
  maxDownloads : Option UInt64 := none
  noAutoDownload : Bool := false
  textQueue : Option Path := none
  exitWhenIdle : Bool := false
  verbose : Bool := false
  urls : List String := []
  deriving DecidableEq

inductive Refusal
  | help
  | version
  | misuse (reason : String)
  deriving DecidableEq, Repr

inductive Switch
  | config
  | queueFile
  | downloadDir
  | maxDownloads
  | noAutoDownload
  | textQueue
  | exitWhenIdle
  | verbose
  | help
  | version
  deriving DecidableEq, Repr

namespace Switch

def longName : Switch → String
  | config => "config"
  | queueFile => "queue-file"
  | downloadDir => "download-dir"
  | maxDownloads => "max-downloads"
  | noAutoDownload => "no-auto-download"
  | textQueue => "import"
  | exitWhenIdle => "exit-when-idle"
  | verbose => "verbose"
  | help => "help"
  | version => "version"

def all : List Switch :=
  [config, queueFile, downloadDir, maxDownloads, noAutoDownload, textQueue, exitWhenIdle, verbose,
   help, version]

def ofLongName? (name : String) : Option Switch :=
  all.find? fun switch => switch.longName = name

def ofLetter? (c : Char) : Option Switch :=
  if c = 'c' then some config
  else if c = 'j' then some maxDownloads
  else if c = 'v' then some verbose
  else if c = 'h' then some help
  else if c = 'V' then some version
  else none

def takesValue : Switch → Bool
  | config | queueFile | downloadDir | maxDownloads | textQueue => true
  | _ => false

end Switch

def misused {α : Type} (switch : Switch) (what : String) : Except Refusal α :=
  .error (.misuse s!"--{switch.longName} {what}")

def fill {α : Type} (switch : Switch) (slot : Option α) (value : α)
    (store : Option α → Options) : Except Refusal Options :=
  if slot.isSome then misused switch "cannot be used multiple times" else .ok (store (some value))

def pathValue (switch : Switch) (value : String) : Except Refusal Path :=
  if value.isEmpty then misused switch "needs a value" else .ok ⟨value⟩

def setValue (options : Options) (switch : Switch) (value : String) : Except Refusal Options :=
  match switch with
  | .config => do
    fill switch options.config (← pathValue switch value) fun v => { options with config := v }
  | .queueFile => do
    fill switch options.queueFile (← pathValue switch value) fun v =>
      { options with queueFile := v }
  | .downloadDir => do
    fill switch options.downloadDir (← pathValue switch value) fun v =>
      { options with downloadDir := v }
  | .textQueue => do
    fill switch options.textQueue (← pathValue switch value) fun v =>
      { options with textQueue := v }
  | .maxDownloads =>
    match Decimal.read (UInt64.size - 1) value.toList with
    | .ok n =>
      fill switch options.maxDownloads (UInt64.ofNat n) fun v => { options with maxDownloads := v }
    | .error error => misused switch error.message
  | _ => misused switch "takes no value"

def turnOn (switch : Switch) (on : Bool) (options : Options) : Except Refusal Options :=
  if on then misused switch "cannot be used multiple times" else .ok options

def setFlag (options : Options) (switch : Switch) : Except Refusal Options :=
  match switch with
  | .noAutoDownload =>
    turnOn switch options.noAutoDownload { options with noAutoDownload := true }
  | .exitWhenIdle => turnOn switch options.exitWhenIdle { options with exitWhenIdle := true }
  | .verbose => turnOn switch options.verbose { options with verbose := true }
  | .help => .error .help
  | .version => .error .version
  | _ => misused switch "needs a value"

inductive Letters
  | done (options : Options)
  | wants (options : Options) (switch : Switch)

def letterValue : List Char → String
  | '=' :: rest => String.ofList rest
  | rest => String.ofList rest

def readLetters (options : Options) : List Char → Except Refusal Letters
  | [] => .ok (.done options)
  | c :: cs =>
    match Switch.ofLetter? c with
    | none => .error (.misuse s!"unexpected argument -{c}")
    | some switch =>
      if switch.takesValue then
        if cs.isEmpty then .ok (.wants options switch)
        else (setValue options switch (letterValue cs)).map .done
      else do readLetters (← setFlag options switch) cs

def splitEquals : List Char → List Char × Option (List Char)
  | [] => ([], none)
  | c :: cs =>
    if c = '=' then ([], some cs)
    else
      let (name, value) := splitEquals cs
      (c :: name, value)

def readLong (options : Options) (text : List Char) : Except Refusal Letters :=
  let (name, value) := splitEquals text
  match Switch.ofLongName? (String.ofList name), value with
  | none, _ => .error (.misuse s!"unexpected argument --{String.ofList name}")
  | some switch, some value => (setValue options switch (String.ofList value)).map .done
  | some switch, none =>
    if switch.takesValue then .ok (.wants options switch)
    else (setFlag options switch).map .done

def isPlainArgument (argument : String) : Bool :=
  match argument.toList with
  | '-' :: _ :: _ => false
  | _ => true

def addUrl (options : Options) (url : String) : Options :=
  { options with urls := options.urls ++ [url] }

def readSwitch (options : Options) (argument : String) : Except Refusal Letters :=
  match argument.toList with
  | '-' :: '-' :: name => readLong options name
  | '-' :: letters => readLetters options letters
  | _ => .ok (.done (addUrl options argument))

/-- Follows the arguments in order; behind `--` all of them are addresses. -/
def readArguments (options : Options) : List String → Except Refusal Options
  | [] => .ok options
  | "--" :: rest => .ok (rest.foldl addUrl options)
  | argument :: rest =>
    if isPlainArgument argument then readArguments (addUrl options argument) rest
    else do
      match ← readSwitch options argument with
      | .done options => readArguments options rest
      | .wants options switch =>
        match rest with
        | value :: rest =>
          if isPlainArgument value then readArguments (← setValue options switch value) rest
          else misused switch "needs a value"
        | [] => misused switch "needs a value"

def parse (arguments : List String) : Except Refusal Options :=
  readArguments {} arguments

def Options.override (options : Options) (config : Config) : Config :=
  { config with
    queue :=
      { queueFile := options.queueFile.getD config.queue.queueFile
        downloadDir := options.downloadDir.getD config.queue.downloadDir
        maxConcurrent := options.maxDownloads.getD config.queue.maxConcurrent
        autoDownload := config.queue.autoDownload && !options.noAutoDownload } }

def readConfig (bytes : List UInt8) : Except QueueError Config :=
  match Json.decodeUtf8? bytes with
  | none => .error (.io .notUtf8)
  | some _ =>
    match (Json.parse? bytes).bind Config.ofJson? with
    | some config => .ok config
    | none => .error (.serialization "not a settings document")

def Refusal.exitCode : Refusal → UInt32
  | .help | .version => 0
  | .misuse _ => 2

end DownloadQueue.CommandLine
