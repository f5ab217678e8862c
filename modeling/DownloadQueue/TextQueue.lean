import DownloadQueue.Item.Basic
import DownloadQueue.Text.Blank
import DownloadQueue.Text.Quoted

/-!
Queues written as plain text. A line names an enclosure, its destination and, if the enclosure was
fetched before, a word that says so. The parts are separated by spaces and tabs and may stand in
double quotes; inside them a backslash escapes the next character.
-/

namespace DownloadQueue.TextQueue

structure Entry where
  line : Nat
  url : String
  destination : Path
  status : Option Status
  deriving DecidableEq

inductive Fault
  | unterminatedQuote
  | danglingEscape
  | emptyLine
  | missingDestination
  | unknownStatus (word : String)
  | trailingTokens
  deriving DecidableEq, Repr

def Fault.message : Fault → String
  | .unterminatedQuote => "unterminated quote"
  | .danglingEscape => "dangling escape"
  | .emptyLine => "empty line"
  | .missingDestination => "missing destination"
  | .unknownStatus word => s!"unknown status {Text.quoted word}"
  | .trailingTokens => "trailing tokens"

structure LineFault where
  line : Nat
  fault : Fault
  deriving DecidableEq, Repr

def splitLines : List Char → List (List Char)
  | [] => [[]]
  | c :: cs =>
    if c = '\n' then [] :: splitLines cs
    else
      match splitLines cs with
      | piece :: pieces => (c :: piece) :: pieces
      | [] => [[c]]

def dropReturn (line : List Char) : List Char :=
  if line.getLast? = some '\r' then line.dropLast else line

/-- The lines of a text; a line feed at the end of the text starts no further line. -/
def lines (text : List Char) : List (List Char) :=
  let pieces := splitLines text
  pieces.dropLast.map dropReturn ++ (pieces.getLast?.toList.filter fun piece => piece ≠ [])

/-- Where in a line the reader stands; a token in progress is kept in reverse. -/
inductive Mode
  | between
  | bare (token : List Char)
  | quoted (token : List Char)
  | escaped (token : List Char)

def isSeparator (c : Char) : Bool :=
  c = ' ' || c = '\t'

def unescape (c : Char) : Char :=
  if c = 'n' then '\n' else if c = 'r' then '\r' else if c = 't' then '\t' else c

def scan : Mode → List Char → Except Fault (List String)
  | .between, [] => .ok []
  | .between, c :: cs =>
    if isSeparator c then scan .between cs
    else if c = '"' then scan (.quoted []) cs
    else scan (.bare [c]) cs
  | .bare token, [] => .ok [String.ofList token.reverse]
  | .bare token, c :: cs =>
    if isSeparator c then (scan .between cs).map (String.ofList token.reverse :: ·)
    else scan (.bare (c :: token)) cs
  | .quoted _, [] => .error .unterminatedQuote
  | .quoted token, c :: cs =>
    if c = '"' then (scan .between cs).map (String.ofList token.reverse :: ·)
    else if c = '\\' then scan (.escaped token) cs
    else scan (.quoted (c :: token)) cs
  | .escaped _, [] => .error .danglingEscape
  | .escaped token, c :: cs => scan (.quoted (unescape c :: token)) cs

def finishedWords : List String := ["downloaded", "played", "finished"]

def entryOf (number : Nat) : List String → Except Fault Entry
  | [] => .error .emptyLine
  | [_] => .error .missingDestination
  | url :: destination :: words =>
    if destination = "" then .error .missingDestination
    else
      match words with
      | [] => .ok { line := number, url, destination := ⟨destination⟩, status := none }
      | word :: rest =>
        if word ∈ finishedWords then
          if rest = [] then
            .ok { line := number, url, destination := ⟨destination⟩, status := some .finished }
          else .error .trailingTokens
        else .error (.unknownStatus word)

def readLine (number : Nat) (line : List Char) : Except Fault Entry := do
  entryOf number (← scan .between (Text.trim line))

structure Contents where
  entries : List Entry
  faults : List LineFault
  deriving DecidableEq

/-- The contents of lines numbered from `number` on; blank lines are passed over. -/
def readLines (number : Nat) : List (List Char) → Contents
  | [] => ⟨[], []⟩
  | line :: lines =>
    let rest := readLines (number + 1) lines
    if Text.trim line = [] then rest
    else
      match readLine number line with
      | .ok entry => ⟨entry :: rest.entries, rest.faults⟩
      | .error fault => ⟨rest.entries, ⟨number, fault⟩ :: rest.faults⟩

def parse (text : String) : Contents :=
  readLines 1 (lines text.toList)

end DownloadQueue.TextQueue
