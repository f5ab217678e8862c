/-!
Labels of domain names with characters beyond ASCII, written with letters, digits and hyphens.
-/

namespace DownloadQueue.Url.Punycode

def adapt (delta count : Nat) (first : Bool) : Nat :=
  let start := if first then delta / 700 else delta / 2
  go 64 0 (start + start / count)
where
  go : Nat → Nat → Nat → Nat
    | 0, k, _ => k
    | steps + 1, k, delta =>
      if 455 < delta then go steps (k + 36) (delta / 35)
      else k + 36 * delta / (delta + 38)

def threshold (k bias : Nat) : Nat :=
  if k ≤ bias then 1 else if bias + 26 ≤ k then 26 else k - bias

def digit? (c : Char) : Option Nat :=
  if 'a' ≤ c ∧ c ≤ 'z' then some (c.toNat - 97)
  else if 'A' ≤ c ∧ c ≤ 'Z' then some (c.toNat - 65)
  else if '0' ≤ c ∧ c ≤ '9' then some (c.toNat - 22)
  else none

def readDelta (bias : Nat) : List Char → Nat → Nat → Nat → Option (Nat × List Char)
  | [], _, _, _ => none
  | c :: cs, i, weight, k =>
    match digit? c with
    | none => none
    | some d =>
      let i := i + d * weight
      let t := threshold k bias
      if UInt32.size ≤ i ∨ UInt32.size ≤ weight then none
      else if d < t then some (i, cs)
      else readDelta bias cs i (weight * (36 - t)) (k + 36)

/-- Places the characters that the digits stand for; each takes one unit of fuel. -/
def place : Nat → List Char → Nat → Nat → Nat → List Char → Option (List Char)
  | 0, _, _, _, _, _ => none
  | fuel + 1, digits, n, i, bias, out =>
    match digits with
    | [] => some out
    | _ =>
      match readDelta bias digits i 1 36 with
      | none => none
      | some (j, rest) =>
        let count := out.length + 1
        let n := n + j / count
        let at' := j % count
        if h : n.isValidChar then
          place fuel rest n (at' + 1) (adapt (j - i) count (i = 0))
            (out.take at' ++ Char.ofNatAux n h :: out.drop at')
        else none

def splitLast (cs : List Char) : List Char × List Char :=
  let tail := (cs.reverse.takeWhile fun c => c ≠ '-').reverse
  let plain := cs.take (cs.length - tail.length - 1)
  if plain = [] then ([], cs) else (plain, tail)

def decode? (cs : List Char) : Option (List Char) :=
  let (plain, digits) := splitLast cs
  if plain.all fun c => c.toNat < 0x80 then
    place (digits.length + 1) digits 128 0 72 plain
  else none

def digitChar (d : Nat) : Char :=
  if d < 26 then Char.ofNat (97 + d) else Char.ofNat (22 + d)

def writeDelta (bias : Nat) : Nat → Nat → Nat → List Char
  | 0, _, _ => []
  | fuel + 1, q, k =>
    let t := threshold k bias
    if q < t then [digitChar q]
    else digitChar (t + (q - t) % (36 - t)) :: writeDelta bias fuel ((q - t) / (36 - t)) (k + 36)

structure Encoding where
  delta : Nat
  bias : Nat
  placed : Nat
  digits : List Char

def encodeChar (basic n : Nat) (e : Encoding) (c : Char) : Encoding :=
  if c.toNat < n then { e with delta := e.delta + 1 }
  else if c.toNat = n then
    { delta := 0
      bias := adapt e.delta (e.placed + 1) (e.placed = basic)
      placed := e.placed + 1
      digits := e.digits ++ writeDelta e.bias 64 e.delta 36 }
  else e

def encodeCodes (label : List Char) (basic : Nat) : Encoding → Nat → List Nat → Encoding
  | e, _, [] => e
  | e, n, code :: codes =>
    let e := { e with delta := e.delta + (code - n) * (e.placed + 1) }
    let e := label.foldl (encodeChar basic code) e
    encodeCodes label basic { e with delta := e.delta + 1 } (code + 1) codes

def encode (label : List Char) : List Char :=
  let plain := label.filter fun c => c.toNat < 0x80
  let codes := ((label.filter fun c => 0x80 ≤ c.toNat).map Char.toNat).eraseDups.mergeSort
  let e := encodeCodes label plain.length ⟨0, 72, plain.length, []⟩ 0x80 codes
  (if plain = [] then [] else plain ++ ['-']) ++ e.digits

end DownloadQueue.Url.Punycode
