import DownloadQueue.Url.Basic

namespace DownloadQueue.Http

def upperHex (n : Nat) : Char :=
  if n < 10 then Char.ofNat (48 + n) else Char.ofNat (55 + n)

def isEscapedInPath (c : Char) : Bool :=
  c.toNat ≤ 0x20 || 0x7f ≤ c.toNat || "\"#<>?`\x7b\x7d".toList.contains c

def isEscapedInQuery (c : Char) : Bool :=
  c.toNat ≤ 0x20 || 0x7f ≤ c.toNat || "\"#<>'".toList.contains c

def percentEncode (escaped : Char → Bool) (text : List Char) : List Char :=
  text.flatMap fun c =>
    if escaped c then
      (String.utf8EncodeChar c).flatMap fun b =>
        ['%', upperHex (b.toNat / 16), upperHex (b.toNat % 16)]
    else [c]

def target (url : Url) : List Char :=
  let path := (url.segments.getD [[]]).flatMap fun segment =>
    '/' :: percentEncode isEscapedInPath segment
  match url.query with
  | none => path
  | some query => path ++ '?' :: percentEncode isEscapedInQuery query

def asciiLabel (label : List Char) : List Char :=
  if label.all fun c => c.toNat < 0x80 then label
  else "xn--".toList ++ Url.Punycode.encode label

def dotted (address : Nat) : String :=
  s!"{address / 16777216 % 256}.{address / 65536 % 256}.{address / 256 % 256}.{address % 256}"

def hostText : Url.Host → String
  | .domain name =>
    String.ofList (['.'].intercalate ((Text.pieces (fun c => c = '.') name).map asciiLabel))
  | .ipv4 address => dotted address
  | .ipv6 pieces =>
    "[" ++ ":".intercalate (pieces.map fun n => String.ofList (Nat.toDigits 16 n)) ++ "]"
  | .raw name => String.ofList name

def usualPort : Nat := 80

/-- The text of a request for an enclosure, or for what of it lies behind an offset. -/
def requestText (url : Url) (host : Url.Host) (userAgent : String) (range : Option UInt64) :
    String :=
  let place := match url.portNumber with
    | some n => if n = usualPort then hostText host else s!"{hostText host}:{n}"
    | none => hostText host
  let lines :=
    [s!"GET {String.ofList (target url)} HTTP/1.1", "accept: */*", s!"user-agent: {userAgent}"] ++
    (match range with
      | some offset => [s!"range: bytes={offset.toNat}-"]
      | none => []) ++
    [s!"host: {place}", "connection: close"]
  "\r\n".intercalate lines ++ "\r\n\r\n"

def isHeaderValue (text : String) : Bool :=
  text.toList.all fun c => c = '\t' || (0x20 ≤ c.toNat && c.toNat ≠ 0x7f)

end DownloadQueue.Http
