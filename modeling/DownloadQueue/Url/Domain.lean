import DownloadQueue.Json.Reader
import DownloadQueue.Text.Direction
import DownloadQueue.Text.Joining
import DownloadQueue.Text.Normal
import DownloadQueue.Url.DomainMapping
import DownloadQueue.Url.Percent
import DownloadQueue.Url.Punycode

namespace DownloadQueue.Url

def isAscii (c : Char) : Bool :=
  c.toNat < 0x80

def isForbiddenInDomain (c : Char) : Bool :=
  c.toNat ≤ 0x20 || c.toNat = 0x7f || "#/:<>?@[\\]^|%".toList.contains c

def isDomainChar (c : Char) : Bool :=
  !isForbiddenInDomain c && mapChar c = some [c]

def encodedPart? : List Char → Option (List Char)
  | 'x' :: 'n' :: '-' :: '-' :: rest => some rest
  | _ => none

/-- The label that the digits behind `xn--` stand for, if it could not be written without them. -/
def decodedLabel? (digits : List Char) : Option (List Char) :=
  if !digits.all isAscii || digits.getLast?.all (fun c => c = '-') || 2000 < digits.length then none
  else
    match Punycode.decode? digits with
    | none => none
    | some label =>
      if label.all isAscii || Text.normalize label ≠ label || label.contains '.' ||
          (encodedPart? label).isSome then
        none
      else some label

def meantLabel? (label : List Char) : Option (List Char) :=
  match encodedPart? label with
  | none => some label
  | some digits => decodedLabel? digits

/--
A joiner stands where it says something: behind a virama, or, if it keeps letters apart, between
letters that would join. `before` is what comes before it, backwards.
-/
def joinerFits (before : List Char) (joiner : Char) (after : List Char) : Bool :=
  before.head?.any Text.isVirama || (joiner.toNat = 0x200c && Text.joinsAcross before after)

def joinersFit (before : List Char) : List Char → Bool
  | [] => true
  | c :: cs => (if isJoiner c then joinerFits before c cs else true) && joinersFit (c :: before) cs

def isLabel (label : List Char) : Bool :=
  !label.head?.any Text.isMark && label.all isDomainChar && joinersFit [] label &&
    (label.all isAscii || label.length ≤ 1000)

def areLabels (labels : List (List Char)) : Bool :=
  labels.all isLabel &&
    if labels.any fun label => label.any Text.isRightToLeft then labels.all Text.keepsDirection
    else true

def plainName? (text : List Char) : Option (List Char) :=
  (text.mapM mapChar).map fun images => Text.normalize images.flatten

def domainName? (host : List Char) : Option (List Char) := do
  let text ← Json.decodeUtf8? (percentDecode host)
  let name ← plainName? text.toList
  let labels ← (Text.pieces (fun c => c = '.') name).mapM meantLabel?
  if areLabels labels then some name else none

end DownloadQueue.Url
