import DownloadQueue.Json.Basic

namespace DownloadQueue.Json

def isBlankByte (b : UInt8) : Bool :=
  b = ' '.toUInt8 || b = '\t'.toUInt8 || b = '\n'.toUInt8 || b = '\r'.toUInt8

def skipBlank (bytes : List UInt8) : List UInt8 :=
  bytes.dropWhile isBlankByte

def digit? (b : UInt8) : Option Nat :=
  if '0'.toUInt8 ≤ b ∧ b ≤ '9'.toUInt8 then some (b.toNat - 48) else none

def hexDigit? (b : UInt8) : Option Nat :=
  if '0'.toUInt8 ≤ b ∧ b ≤ '9'.toUInt8 then some (b.toNat - 48)
  else if 'a'.toUInt8 ≤ b ∧ b ≤ 'f'.toUInt8 then some (b.toNat - 87)
  else if 'A'.toUInt8 ≤ b ∧ b ≤ 'F'.toUInt8 then some (b.toNat - 55)
  else none

def readDigits : List UInt8 → List Nat × List UInt8
  | [] => ([], [])
  | b :: rest =>
    match digit? b with
    | some d => let (ds, rest) := readDigits rest; (d :: ds, rest)
    | none => ([], b :: rest)

def readWhole (bytes : List UInt8) : Option (List Nat × List UInt8) :=
  match readDigits bytes with
  | ([], _) => none
  | ([0], rest) => some ([0], rest)
  | (0 :: _ :: _, _) => none
  | (ds, rest) => some (ds, rest)

def readFraction : List UInt8 → Option (List Nat × List UInt8)
  | [] => some ([], [])
  | b :: rest =>
    if b = '.'.toUInt8 then
      match readDigits rest with
      | ([], _) => none
      | (ds, rest) => some (ds, rest)
    else some ([], b :: rest)

def readExponentSign : List UInt8 → Bool × List UInt8
  | [] => (false, [])
  | b :: rest =>
    if b = '-'.toUInt8 then (true, rest)
    else if b = '+'.toUInt8 then (false, rest)
    else (false, b :: rest)

def readExponent : List UInt8 → Option (Option (Bool × List Nat) × List UInt8)
  | [] => some (none, [])
  | b :: rest =>
    if b = 'e'.toUInt8 ∨ b = 'E'.toUInt8 then
      let (negative, rest) := readExponentSign rest
      match readDigits rest with
      | ([], _) => none
      | (ds, rest) => some (some (negative, ds), rest)
    else some (none, b :: rest)

def readUnsigned (negative : Bool) (bytes : List UInt8) : Option (Numeral × List UInt8) := do
  let (whole, rest) ← readWhole bytes
  let (fraction, rest) ← readFraction rest
  let (exponent, rest) ← readExponent rest
  return ({ negative, whole, fraction, exponent }, rest)

def readNumeral : List UInt8 → Option (Numeral × List UInt8)
  | [] => none
  | b :: rest =>
    if b = '-'.toUInt8 then readUnsigned true rest else readUnsigned false (b :: rest)

/-- What a string literal holds: a byte that stands for itself, or an escaped UTF-16 unit. -/
inductive Piece
  | byte (value : UInt8)
  | unit (value : Nat)
  deriving DecidableEq, Repr

def shortEscape? (b : UInt8) : Option Nat :=
  if b = '"'.toUInt8 then some 0x22
  else if b = '\\'.toUInt8 then some 0x5c
  else if b = '/'.toUInt8 then some 0x2f
  else if b = 'b'.toUInt8 then some 0x08
  else if b = 'f'.toUInt8 then some 0x0c
  else if b = 'n'.toUInt8 then some 0x0a
  else if b = 'r'.toUInt8 then some 0x0d
  else if b = 't'.toUInt8 then some 0x09
  else none

def hexUnit? (a b c d : UInt8) : Option Nat := do
  let a ← hexDigit? a
  let b ← hexDigit? b
  let c ← hexDigit? c
  let d ← hexDigit? d
  return ((a * 16 + b) * 16 + c) * 16 + d

def readPieces : List UInt8 → Option (List Piece × List UInt8)
  | [] => none
  | b :: rest =>
    if b = '"'.toUInt8 then some ([], rest)
    else if b = '\\'.toUInt8 then
      match rest with
      | [] => none
      | e :: rest =>
        if e = 'u'.toUInt8 then
          match rest with
          | h₁ :: h₂ :: h₃ :: h₄ :: rest =>
            match hexUnit? h₁ h₂ h₃ h₄, readPieces rest with
            | some u, some (pieces, rest) => some (.unit u :: pieces, rest)
            | _, _ => none
          | _ => none
        else
          match shortEscape? e, readPieces rest with
          | some u, some (pieces, rest) => some (.unit u :: pieces, rest)
          | _, _ => none
    else if b < 0x20 then none
    else
      match readPieces rest with
      | some (pieces, rest) => some (.byte b :: pieces, rest)
      | none => none

def isLeadUnit (u : Nat) : Bool := 0xd800 ≤ u && u ≤ 0xdbff

def isTrailUnit (u : Nat) : Bool := 0xdc00 ≤ u && u ≤ 0xdfff

/-- The bytes of a literal's content; units of a surrogate pair have to stand together. -/
def pieceBytes : List Piece → Option (List UInt8)
  | [] => some []
  | .byte b :: pieces => (pieceBytes pieces).map (b :: ·)
  | .unit u :: .unit v :: pieces =>
    if isLeadUnit u then
      if isTrailUnit v then
        (pieceBytes pieces).map
          (String.utf8EncodeChar (Char.ofNat (0x10000 + (u - 0xd800) * 0x400 + (v - 0xdc00))) ++ ·)
      else none
    else if isTrailUnit u then none
    else (pieceBytes (.unit v :: pieces)).map (String.utf8EncodeChar (Char.ofNat u) ++ ·)
  | .unit u :: pieces =>
    if isLeadUnit u ∨ isTrailUnit u then none
    else (pieceBytes pieces).map (String.utf8EncodeChar (Char.ofNat u) ++ ·)

def decodeUtf8? (bytes : List UInt8) : Option String :=
  String.fromUTF8? ⟨bytes.toArray⟩

def pieceText? (pieces : List Piece) : Option String :=
  (pieceBytes pieces).bind decodeUtf8?

def readString (bytes : List UInt8) : Option (Option String × List UInt8) :=
  (readPieces bytes).map fun (pieces, rest) => (pieceText? pieces, rest)

def ascii (word : String) : List UInt8 :=
  word.toList.map Char.toUInt8

def readWord (word : String) (value : Json) (bytes : List UInt8) : Option (Json × List UInt8) :=
  if (ascii word).isPrefixOf bytes then some (value, bytes.drop (ascii word).length) else none

def readMark (c : Char) (bytes : List UInt8) : Option (List UInt8) :=
  match skipBlank bytes with
  | b :: rest => if b = c.toUInt8 then some rest else none
  | [] => none

mutual

/-- One value after blanks. Each call spends one unit of fuel and at least one byte. -/
def readValue : Nat → List UInt8 → Option (Json × List UInt8)
  | 0, _ => none
  | fuel + 1, bytes =>
    match skipBlank bytes with
    | [] => none
    | b :: rest =>
      if b = '\x7b'.toUInt8 then
        match readMark '\x7d' rest with
        | some rest => some (.object [], rest)
        | none => (readMembers fuel rest).map fun (members, rest) => (.object members, rest)
      else if b = '['.toUInt8 then
        match readMark ']' rest with
        | some rest => some (.array [], rest)
        | none => (readElements fuel rest).map fun (elements, rest) => (.array elements, rest)
      else if b = '"'.toUInt8 then
        (readString rest).map fun (text, rest) => (.string text, rest)
      else if b = 'n'.toUInt8 then readWord "null" .null (b :: rest)
      else if b = 't'.toUInt8 then readWord "true" (.bool true) (b :: rest)
      else if b = 'f'.toUInt8 then readWord "false" (.bool false) (b :: rest)
      else (readNumeral (b :: rest)).map fun (numeral, rest) => (.number numeral, rest)

def readElements : Nat → List UInt8 → Option (List Json × List UInt8)
  | 0, _ => none
  | fuel + 1, bytes =>
    match readValue fuel bytes with
    | none => none
    | some (value, rest) =>
      match readMark ']' rest with
      | some rest => some ([value], rest)
      | none =>
        match readMark ',' rest with
        | none => none
        | some rest => (readElements fuel rest).map fun (values, rest) => (value :: values, rest)

def readMembers : Nat → List UInt8 → Option (List (Option String × Json) × List UInt8)
  | 0, _ => none
  | fuel + 1, bytes =>
    match readMark '"' bytes with
    | none => none
    | some rest =>
      match readString rest with
      | none => none
      | some (key, rest) =>
        match readMark ':' rest with
        | none => none
        | some rest =>
          match readValue fuel rest with
          | none => none
          | some (value, rest) =>
            match readMark '\x7d' rest with
            | some rest => some ([(key, value)], rest)
            | none =>
              match readMark ',' rest with
              | none => none
              | some rest =>
                (readMembers fuel rest).map fun (members, rest) => ((key, value) :: members, rest)

end

def parse? (bytes : List UInt8) : Option Json :=
  match readValue (bytes.length + 1) bytes with
  | some (value, rest) => if (skipBlank rest).isEmpty then some value else none
  | none => none

end DownloadQueue.Json
