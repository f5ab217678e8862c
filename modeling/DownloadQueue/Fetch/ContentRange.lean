import DownloadQueue.Decimal
import DownloadQueue.Text.Blank

namespace DownloadQueue

structure ContentRange where
  start : Option UInt64
  total : Option UInt64
  deriving DecidableEq, Repr

namespace ContentRange

def splitOnce (mark : Char) : List Char → Option (List Char × List Char)
  | [] => none
  | c :: cs =>
    if c = mark then some ([], cs)
    else (splitOnce mark cs).map fun (before, behind) => (c :: before, behind)

def number? (text : List Char) : Option UInt64 :=
  match Decimal.read (UInt64.size - 1) (Text.trim text) with
  | .ok n => some (UInt64.ofNat n)
  | .error _ => none

def behindUnit? : List Char → Option (List Char)
  | 'b' :: 'y' :: 't' :: 'e' :: 's' :: rest => some (Text.trimStart rest)
  | _ => none

def isHeaderText (c : Char) : Bool :=
  c = '\t' || (0x20 ≤ c.toNat && c.toNat < 0x7f)

/-- Reads `bytes START-END/TOTAL` or `bytes */TOTAL`; the end is not looked at. -/
def parse? (header : List Char) : Option ContentRange :=
  if header.all isHeaderText then do
    let rest ← behindUnit? (Text.trim header)
    let (range, total) ← splitOnce '/' rest
    let start := (splitOnce '-' range).bind fun ends => number? ends.1
    return { start, total := number? total }
  else none

def unknown : ContentRange := ⟨none, none⟩

end ContentRange

end DownloadQueue
