import DownloadQueue.Decimal

namespace DownloadQueue

/-- A number literal. An empty fraction stands for none. -/
structure Numeral where
  negative : Bool
  whole : List Nat
  fraction : List Nat
  exponent : Option (Bool × List Nat)
  deriving DecidableEq, Repr

/-- A JSON value. A string literal that is no Unicode text is kept without its content. -/
inductive Json
  | null
  | bool (value : Bool)
  | number (numeral : Numeral)
  | string (text : Option String)
  | array (elements : List Json)
  | object (members : List (Option String × Json))

namespace Numeral

def ofNat (n : Nat) : Numeral :=
  { negative := false, whole := Decimal.digits n, fraction := [], exponent := none }

def toNat? (n : Numeral) : Option Nat :=
  if n.negative = false ∧ n.fraction = [] ∧ n.exponent = none then some (Decimal.value n.whole)
  else none

theorem toNat?_ofNat (n : Nat) : (ofNat n).toNat? = some n := by
  simp [ofNat, toNat?, Decimal.value_digits]

end Numeral

namespace Json

def ofNat (n : Nat) : Json :=
  .number (.ofNat n)

def ofText (text : String) : Json :=
  .string (some text)

def record (members : List (String × Json)) : Json :=
  .object (members.map fun (key, value) => (some key, value))

def ofOption {α : Type} (encode : α → Json) : Option α → Json
  | none => .null
  | some a => encode a

def toText? : Json → Option String
  | .string text => text
  | _ => none

def toBool? : Json → Option Bool
  | .bool value => some value
  | _ => none

def toNatBelow? (bound : Nat) : Json → Option Nat
  | .number n =>
    match n.toNat? with
    | some v => if v < bound then some v else none
    | none => none
  | _ => none

def toUInt64? (json : Json) : Option UInt64 :=
  (json.toNatBelow? UInt64.size).map UInt64.ofNat

def toUInt32? (json : Json) : Option UInt32 :=
  (json.toNatBelow? UInt32.size).map UInt32.ofNat

end Json

end DownloadQueue
