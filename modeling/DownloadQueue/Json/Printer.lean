import DownloadQueue.Json.Basic

namespace DownloadQueue.Json

def lowerHex (n : Nat) : Char :=
  if n < 10 then Char.ofNat (48 + n) else Char.ofNat (87 + n)

def escapedChar (c : Char) : List Char :=
  if c = '"' then ['\\', '"']
  else if c = '\\' then ['\\', '\\']
  else if c = '\n' then ['\\', 'n']
  else if c = '\r' then ['\\', 'r']
  else if c = '\t' then ['\\', 't']
  else if c.toNat = 0x08 then ['\\', 'b']
  else if c.toNat = 0x0c then ['\\', 'f']
  else if c.toNat < 0x20 then
    ['\\', 'u', '0', '0', lowerHex (c.toNat / 16), lowerHex (c.toNat % 16)]
  else [c]

/-- A string literal; one that is no text is written as a lone surrogate. -/
def stringLiteral : Option String → List Char
  | some text => '"' :: text.toList.flatMap escapedChar ++ ['"']
  | none => "\"\\ud800\"".toList

def exponentText : Option (Bool × List Nat) → List Char
  | none => []
  | some (negative, ds) => 'e' :: (if negative then '-' else '+') :: ds.map Decimal.digitChar

def numberLiteral (n : Numeral) : List Char :=
  (if n.negative then ['-'] else []) ++ n.whole.map Decimal.digitChar ++
    (if n.fraction = [] then [] else '.' :: n.fraction.map Decimal.digitChar) ++
    exponentText n.exponent

def boolLiteral (value : Bool) : List Char :=
  if value then "true".toList else "false".toList

mutual

def compact : Json → List Char
  | .null => "null".toList
  | .bool value => boolLiteral value
  | .number numeral => numberLiteral numeral
  | .string text => stringLiteral text
  | .array elements => '[' :: compactElements elements ++ [']']
  | .object members => '\x7b' :: compactMembers members ++ ['\x7d']

def compactElements : List Json → List Char
  | [] => []
  | [value] => compact value
  | value :: values => compact value ++ ',' :: compactElements values

def compactMembers : List (Option String × Json) → List Char
  | [] => []
  | [(key, value)] => stringLiteral key ++ ':' :: compact value
  | (key, value) :: members =>
    stringLiteral key ++ ':' :: compact value ++ ',' :: compactMembers members

end

def newline (level : Nat) : List Char :=
  '\n' :: List.replicate (2 * level) ' '

mutual

def prettyAt (level : Nat) : Json → List Char
  | .null => "null".toList
  | .bool value => boolLiteral value
  | .number numeral => numberLiteral numeral
  | .string text => stringLiteral text
  | .array [] => "[]".toList
  | .array (value :: values) =>
    '[' :: prettyElements (level + 1) (value :: values) ++ newline level ++ [']']
  | .object [] => ['\x7b', '\x7d']
  | .object (member :: members) =>
    '\x7b' :: prettyMembers (level + 1) (member :: members) ++ newline level ++ ['\x7d']

def prettyElements (level : Nat) : List Json → List Char
  | [] => []
  | [value] => newline level ++ prettyAt level value
  | value :: values => newline level ++ prettyAt level value ++ ',' :: prettyElements level values

def prettyMembers (level : Nat) : List (Option String × Json) → List Char
  | [] => []
  | [(key, value)] => newline level ++ stringLiteral key ++ ':' :: ' ' :: prettyAt level value
  | (key, value) :: members =>
    newline level ++ stringLiteral key ++ ':' :: ' ' :: prettyAt level value ++
      ',' :: prettyMembers level members

end

def pretty (json : Json) : List Char :=
  prettyAt 0 json

def encodeUtf8 (text : List Char) : List UInt8 :=
  text.flatMap String.utf8EncodeChar

end DownloadQueue.Json
