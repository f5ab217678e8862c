import DownloadQueue.Json.Basic

/-!
Numbers with a fraction. The digits of a literal are gathered into a 64-bit significand and a power
of ten, further digits are dropped, and the two are combined by one multiplication or division.
-/

namespace DownloadQueue.Numeral

structure Scaled where
  significand : Nat
  exponent : Int

/-- Digits before the point: those that no longer fit are counted only. -/
def scaleWhole (significand : Nat) : List Nat → Scaled
  | [] => ⟨significand, 0⟩
  | d :: ds =>
    if significand * 10 + d < UInt64.size then scaleWhole (significand * 10 + d) ds
    else ⟨significand, (d :: ds).length⟩

/-- Digits after the point: from the first that no longer fits on they are dropped. -/
def scaleFraction (s : Scaled) : List Nat → Scaled
  | [] => s
  | d :: ds =>
    if s.significand * 10 + d < UInt64.size then
      scaleFraction ⟨s.significand * 10 + d, s.exponent - 1⟩ ds
    else s

def tenPower (k : Nat) : Float :=
  Float.ofScientific 1 false k

def divideDown : Nat → Float → Nat → Float
  | 0, f, _ => f
  | steps + 1, f, k =>
    if f == 0 then f
    else if k ≤ 308 then f / tenPower k
    else divideDown steps (f / tenPower 308) (k - 308)

def Scaled.toFloat? (s : Scaled) : Option Float :=
  let f := (UInt64.ofNat s.significand).toFloat
  if 0 ≤ s.exponent then
    if s.significand = 0 then some 0
    else if s.exponent ≤ 308 then
      let product := f * tenPower s.exponent.toNat
      if product.isFinite then some product else none
    else none
  else some (divideDown (s.exponent.natAbs / 308 + 1) f s.exponent.natAbs)

def magnitude? (n : Numeral) : Option Float :=
  let scaled := scaleFraction (scaleWhole 0 n.whole) n.fraction
  match n.exponent with
  | none => scaled.toFloat?
  | some (negative, ds) =>
    let power := Decimal.value ds
    if Nat.pow 2 31 ≤ power then
      if scaled.significand = 0 ∨ negative then some 0 else none
    else
      let exponent : Int := if negative then scaled.exponent - power else scaled.exponent + power
      Scaled.toFloat? ⟨scaled.significand, exponent⟩

def toFloat? (n : Numeral) : Option Float :=
  n.magnitude?.map fun f => if n.negative then -f else f

def isWord (n : Numeral) : Bool :=
  n.fraction = [] && n.exponent = none &&
    if n.negative then 0 < Decimal.value n.whole && Decimal.value n.whole ≤ Nat.pow 2 63
    else Decimal.value n.whole < UInt64.size

/-- The number in single precision; a whole number that fits into a word is rounded once. -/
def toFloat32? (n : Numeral) : Option Float32 :=
  if n.isWord then
    let f := (UInt64.ofNat (Decimal.value n.whole)).toFloat32
    some (if n.negative then -f else f)
  else n.toFloat?.map Float.toFloat32

end DownloadQueue.Numeral

namespace DownloadQueue.Json

def toFloat? : Json → Option Float
  | .number n => n.toFloat?
  | _ => none

def toFloat32? : Json → Option Float32
  | .number n => n.toFloat32?
  | _ => none

end DownloadQueue.Json
