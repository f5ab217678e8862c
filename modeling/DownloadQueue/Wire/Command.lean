import DownloadQueue.Command
import DownloadQueue.Wire.Item

namespace DownloadQueue

namespace Command

inductive Form
  | item (make : ItemId → Command)
  | limit
  | switch
  | plain (command : Command)

def form? (name : String) : Option Form :=
  if name = "pause" then some (.item .pause)
  else if name = "resume" then some (.item .resume)
  else if name = "retry" then some (.item .retry)
  else if name = "cancel" then some (.item .cancel)
  else if name = "delete" then some (.item .delete)
  else if name = "delete_finished" then some (.plain .deleteFinished)
  else if name = "purge" then some (.plain .purge)
  else if name = "pause_all" then some (.plain .pauseAll)
  else if name = "resume_all" then some (.plain .resumeAll)
  else if name = "set_max_concurrent" then some .limit
  else if name = "set_auto_download" then some .switch
  else none

def ofForm? : Form → Json → Option Command
  | .item make, arg => (ItemId.ofJson? arg).map make
  | .limit, arg => arg.toUInt64?.map .setMaxConcurrent
  | .switch, arg => arg.toBool?.map .setAutoDownload
  | .plain command, .null => some command
  | .plain _, _ => none

def ofBareForm? : Form → Option Command
  | .plain command => some command
  | _ => none

def argument? : Command → Option Json
  | pause id | resume id | retry id | cancel id | delete id => some id.toJson
  | setMaxConcurrent limit => some (countJson limit)
  | setAutoDownload enabled => some (.bool enabled)
  | deleteFinished | purge | pauseAll | resumeAll => none

def toJson (command : Command) : Json :=
  match command.argument? with
  | none => .record [("command", .ofText command.name)]
  | some arg => .record [("command", .ofText command.name), ("arg", arg)]

def formOf? (tag : Json) : Option Form :=
  (tag.variantName? false).bind form?

/-- A command is written as an object, or as its name and its argument in an array. -/
def ofJson? (json : Json) : Option Command :=
  match json with
  | .array [.string (some name), arg] => do ofForm? (← form? name) arg
  | .object members => do
    match ← Json.memberSlots? ["command", "arg"] members with
    | [.given tag, .given arg] => ofForm? (← formOf? tag) arg
    | [.given tag, _] => ofBareForm? (← formOf? tag)
    | _ => none
  | _ => none

end Command

namespace Json

structure Tagged where
  name : String
  content : Json

def without (key : String) : List (Option String × Json) → List (Option String × Json)
  | [] => []
  | (k, value) :: members =>
    if k = some key then without key members else (k, value) :: without key members

def tagged? (key : String) : Json → Option Tagged
  | .object members =>
    match keys? members, lookup? key members with
    | some keys, some (.string (some name)) =>
      if keys.count key = 1 ∧ readableMembers (nestingLimit - 1) (without key members) then
        some { name, content := .object (without key members) }
      else none
    | _, _ => none
  | .array (.string (some name) :: elements) =>
    if readableElements (nestingLimit - 1) elements then
      some { name, content := .array elements }
    else none
  | _ => none

def isBare : Json → Bool
  | .object _ => true
  | .array elements => elements.isEmpty
  | _ => false

end Json

namespace Outcome

def toJson : Outcome → Json
  | applied => .record [("outcome", .ofText "applied")]
  | unchanged => .record [("outcome", .ofText "unchanged")]
  | superseded status => .record [("outcome", .ofText "superseded"), ("status", status.toJson)]
  | removed count => .record [("outcome", .ofText "removed"), ("count", countJson count)]

def ofTagged? (tagged : Json.Tagged) : Option Outcome :=
  if tagged.name = "applied" then if tagged.content.isBare then some applied else none
  else if tagged.name = "unchanged" then if tagged.content.isBare then some unchanged else none
  else if tagged.name = "superseded" then do
    match ← tagged.content.slots? ["status"] with
    | [status] => return superseded (← status.required (Status.ofJson? true))
    | _ => none
  else if tagged.name = "removed" then do
    match ← tagged.content.slots? ["count"] with
    | [count] => return removed (← count.required Json.toUInt64?)
    | _ => none
  else none

def ofJson? (json : Json) : Option Outcome :=
  (json.tagged? "outcome").bind ofTagged?

end Outcome

end DownloadQueue
