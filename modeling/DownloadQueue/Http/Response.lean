import DownloadQueue.Fetch.Basic

namespace DownloadQueue.Http

/-- Where the reader of an answer stands. Lines in progress are kept in reverse. -/
inductive Reader
  | head (line : List Char) (lines : List (List Char))
  | counted (remaining : Nat)
  | pieceSize (line : List Char)
  | piece (remaining : Nat)
  | pieceEnd
  | trailer (line : List Char)
  | untilClose
  | done
  | garbled
  deriving DecidableEq, Repr

namespace Reader

def start : Reader := .head [] []

def header? (line : List Char) : Option (List Char × List Char) :=
  (ContentRange.splitOnce ':' line).map fun (name, value) =>
    ((Text.trim name).map Char.toLower, Text.trim value)

def headerValue? (name : String) (headers : List (List Char × List Char)) : Option (List Char) :=
  (headers.find? fun header => header.1 = name.toList).map Prod.snd

def status? (line : List Char) : Option Nat :=
  match ContentRange.splitOnce ' ' line with
  | some (_, behind) =>
    let digits := (Decimal.takeDigits 3 behind).1
    if digits.length = 3 then some (Decimal.value digits) else none
  | none => none

structure Lines where
  head : ResponseHead
  chunked : Bool
  location : Option (List Char)

def lines? : List (List Char) → Option Lines
  | [] => none
  | first :: rest =>
    match status? first with
    | none => none
    | some status =>
      let headers := rest.filterMap header?
      let chunked := headerValue? "transfer-encoding" headers = some "chunked".toList
      let bare := status = 204 || status = 304
      let length :=
        if chunked then none else (headerValue? "content-length" headers).bind ContentRange.number?
      some
        { head :=
            { status
              contentRange := headerValue? "content-range" headers
              contentLength := if bare then some 0 else length }
          chunked
          location := headerValue? "location" headers }

def bodyReader (lines : Lines) : Reader :=
  if lines.chunked then .pieceSize []
  else
    match lines.head.contentLength with
    | some n => if n = 0 then .done else .counted n.toNat
    | none => .untilClose

def size? (line : List Char) : Option Nat :=
  let digits := (line.takeWhile fun c => c ≠ ';').filter fun c => c ≠ ' '
  if digits = [] then none
  else
    digits.foldlM
      (fun n c =>
        if c.isDigit then some (n * 16 + (c.toNat - 48))
        else if 'a' ≤ c.toLower ∧ c.toLower ≤ 'f' then some (n * 16 + (c.toLower.toNat - 87))
        else none)
      0

inductive Yield
  | nothing
  | lines (lines : Lines)
  | byte (byte : UInt8)

def lineOf (reversed : List Char) : List Char :=
  match reversed with
  | '\r' :: rest => rest.reverse
  | rest => rest.reverse

def read : Reader → UInt8 → Reader × Yield
  | .head line lines, b =>
    if b = 10 then
      match lineOf line with
      | [] =>
        match lines? lines.reverse with
        | some found => (bodyReader found, .lines found)
        | none => (.garbled, .nothing)
      | text => (.head [] (text :: lines), .nothing)
    else (.head (Char.ofNat b.toNat :: line) lines, .nothing)
  | .counted remaining, b => (if remaining ≤ 1 then .done else .counted (remaining - 1), .byte b)
  | .pieceSize line, b =>
    if b = 10 then
      match size? (lineOf line) with
      | none => (.garbled, .nothing)
      | some 0 => (.trailer [], .nothing)
      | some n => (.piece n, .nothing)
    else (.pieceSize (Char.ofNat b.toNat :: line), .nothing)
  | .piece remaining, b => (if remaining ≤ 1 then .pieceEnd else .piece (remaining - 1), .byte b)
  | .pieceEnd, b => (if b = 10 then .pieceSize [] else .pieceEnd, .nothing)
  | .trailer line, b =>
    if b = 10 then (if lineOf line = [] then .done else .trailer [], .nothing)
    else (.trailer (Char.ofNat b.toNat :: line), .nothing)
  | .untilClose, b => (.untilClose, .byte b)
  | .done, _ => (.done, .nothing)
  | .garbled, _ => (.garbled, .nothing)

structure Batch where
  reader : Reader
  lines : Option Lines := none
  body : List UInt8 := []

def feed (reader : Reader) (bytes : List UInt8) : Batch :=
  bytes.foldl
    (fun batch b =>
      let (reader, yielded) := batch.reader.read b
      match yielded with
      | .nothing => { batch with reader }
      | .lines lines => { batch with reader, lines := some lines }
      | .byte b => { batch with reader, body := b :: batch.body })
    { reader }

def onClose : Reader → Fetch.Signal
  | .done | .untilClose => .bodyEnd
  | .head _ _ => .lost "connection closed before message completed" false
  | .garbled => .lost "invalid answer" false
  | _ => .lost "connection closed in the body" true

end Reader

end DownloadQueue.Http
