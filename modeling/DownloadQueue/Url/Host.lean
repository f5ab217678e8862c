import DownloadQueue.Url.Domain

namespace DownloadQueue.Url

inductive Fault
  | relative
  | emptyHost
  | invalidDomainName
  | invalidDomainCharacter
  | invalidPortNumber
  | invalidIpv4
  | invalidIpv6
  deriving DecidableEq, Repr

def Fault.message : Fault → String
  | .relative => "relative URL without a base"
  | .emptyHost => "empty host"
  | .invalidDomainName => "invalid international domain name"
  | .invalidDomainCharacter => "invalid domain character"
  | .invalidPortNumber => "invalid port number"
  | .invalidIpv4 => "invalid IPv4 address"
  | .invalidIpv6 => "invalid IPv6 address"

def isDigit (c : Char) : Bool :=
  '0' ≤ c && c ≤ '9'

def numberPart? (part : List Char) : Option Nat :=
  match part with
  | [] => none
  | '0' :: 'x' :: rest => digitsIn 16 rest
  | ['0'] => some 0
  | '0' :: rest => digitsIn 8 rest
  | _ => digitsIn 10 part
where
  digitsIn (base : Nat) (cs : List Char) : Option Nat :=
    cs.foldlM
      (fun n c =>
        match hexValue? c with
        | some d => if d < base then some (n * base + d) else none
        | none => none)
      0

def nameParts (name : List Char) : List (List Char) :=
  let parts := Text.pieces (fun c => c = '.') name
  if parts.getLast? = some [] then parts.dropLast else parts

def endsInNumber (name : List Char) : Bool :=
  match (nameParts name).getLast? with
  | none => false
  | some part => (part ≠ [] && part.all isDigit) || (numberPart? part).isSome

/-- The numeric address with these parts; the last part fills all places that are left. -/
def ipv4Value? (parts : List Nat) : Option Nat :=
  match parts.getLast? with
  | none => none
  | some last =>
    let leading := parts.dropLast
    let room := Nat.pow 256 (4 - leading.length)
    if 4 < parts.length ∨ leading.any (fun n => 255 < n) ∨ room ≤ last then none
    else some (leading.foldl (fun n p => n * 256 + p) 0 * room + last)

def ipv4? (name : List Char) : Option Nat :=
  ((nameParts name).mapM numberPart?).bind ipv4Value?

def takeHex : Nat → List Char → List Nat × List Char
  | 0, cs => ([], cs)
  | _, [] => ([], [])
  | limit + 1, c :: cs =>
    match hexValue? c with
    | some d => let (ds, rest) := takeHex limit cs; (d :: ds, rest)
    | none => ([], c :: cs)

def hexNumber (digits : List Nat) : Nat :=
  digits.foldl (fun n d => n * 16 + d) 0

def octet? (cs : List Char) : Option Nat :=
  match cs with
  | [] => none
  | '0' :: _ :: _ => none
  | _ =>
    if cs.all isDigit then
      let n := cs.foldl (fun n c => n * 10 + (c.toNat - 48)) 0
      if n ≤ 255 then some n else none
    else none

def dottedPieces? (cs : List Char) : Option (List Nat) :=
  match (Text.pieces (fun c => c = '.') cs).mapM octet? with
  | some [a, b, c, d] => some [a * 256 + b, c * 256 + d]
  | _ => none

structure Ipv6Pieces where
  front : List Nat
  back : Option (List Nat)

def Ipv6Pieces.count (p : Ipv6Pieces) : Nat :=
  p.front.length + match p.back with | none => 0 | some back => back.length + 1

def Ipv6Pieces.push (p : Ipv6Pieces) (piece : Nat) : Ipv6Pieces :=
  match p.back with
  | none => { p with front := p.front ++ [piece] }
  | some back => { p with back := some (back ++ [piece]) }

def ipv6Pieces? : Nat → Ipv6Pieces → List Char → Option Ipv6Pieces
  | 0, _, _ => none
  | _, p, [] => some p
  | fuel + 1, p, c :: cs =>
    if p.count = 8 then none
    else if c = ':' then
      if p.back.isSome then none else ipv6Pieces? fuel { p with back := some [] } cs
    else
      let (digits, rest) := takeHex 4 (c :: cs)
      match rest with
      | [] => some (p.push (hexNumber digits))
      | '.' :: _ =>
        if digits = [] ∨ 6 < p.count then none
        else (dottedPieces? (c :: cs)).map fun pieces => pieces.foldl Ipv6Pieces.push p
      | ':' :: rest => if rest = [] then none else ipv6Pieces? fuel (p.push (hexNumber digits)) rest
      | _ => none

/-- The eight pieces of an address; a gap stands for as many zeros as are missing. -/
def Ipv6Pieces.whole? (p : Ipv6Pieces) : Option (List Nat) :=
  match p.back with
  | none => if p.front.length = 8 then some p.front else none
  | some back =>
    some (p.front ++ List.replicate (8 - p.front.length - back.length) 0 ++ back)

def ipv6? (cs : List Char) : Option (List Nat) :=
  match cs with
  | [] | [_] => none
  | ':' :: ':' :: rest => (ipv6Pieces? (rest.length + 1) ⟨[], some []⟩ rest).bind Ipv6Pieces.whole?
  | ':' :: _ => none
  | _ => (ipv6Pieces? (cs.length + 1) ⟨[], none⟩ cs).bind Ipv6Pieces.whole?

inductive Host
  | domain (name : List Char)
  | ipv4 (address : Nat)
  | ipv6 (pieces : List Nat)
  | raw (name : List Char)
  deriving DecidableEq, Repr

def bracketed? (cs : List Char) : Except Fault Host :=
  if cs.getLast? = some ']' then
    match ipv6? cs.dropLast with
    | some pieces => .ok (.ipv6 pieces)
    | none => .error .invalidIpv6
  else .error .invalidIpv6

def readHost (cs : List Char) : Except Fault Host :=
  match cs with
  | '[' :: rest => bracketed? rest
  | _ =>
    match domainName? cs with
    | none => .error .invalidDomainName
    | some [] => .error .emptyHost
    | some name =>
      if endsInNumber name then
        match ipv4? name with
        | some address => .ok (.ipv4 address)
        | none => .error .invalidIpv4
      else .ok (.domain name)

def isForbiddenInHost (c : Char) : Bool :=
  c.toNat = 0 || " #/:<>?@[\\]^|".toList.contains c

def readRawHost (cs : List Char) : Except Fault Host :=
  match cs with
  | '[' :: rest => bracketed? rest
  | _ => if cs.any isForbiddenInHost then .error .invalidDomainCharacter else .ok (.raw cs)

end DownloadQueue.Url
