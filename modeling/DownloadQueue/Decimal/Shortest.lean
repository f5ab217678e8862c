import DownloadQueue.Json.Basic

/-!
The shortest decimal number that reads back as a given number in single precision.
-/

namespace DownloadQueue.Decimal

/-- A positive number `mantissa * 2 ^ exponent` and whether its lower neighbour is closer. -/
structure Binary where
  mantissa : Nat
  exponent : Int
  narrowBelow : Bool

def binaryOf (f : Float32) : Binary :=
  let bits := f.toBits.toNat
  let fraction : Nat := bits % Nat.pow 2 23
  let biased : Nat := bits / Nat.pow 2 23 % Nat.pow 2 8
  if biased = 0 then ⟨fraction, -149, false⟩
  else ⟨fraction + Nat.pow 2 23, (biased : Int) - 150, fraction = 0 && 1 < biased⟩

def tenScaled (n : Nat) (power : Int) : Nat × Nat :=
  if 0 ≤ power then (n * Nat.pow 10 power.toNat, 1) else (n, Nat.pow 10 power.natAbs)

def twoScaled (n : Nat) (power : Int) : Nat × Nat :=
  if 0 ≤ power then (n * Nat.pow 2 power.toNat, 1) else (n, Nat.pow 2 power.natAbs)

def quotientLt (a b : Nat × Nat) : Bool := a.1 * b.2 < b.1 * a.2

def quotientLe (a b : Nat × Nat) : Bool := a.1 * b.2 ≤ b.1 * a.2

def readsBack (b : Binary) (n : Nat) (power : Int) : Bool :=
  let low := twoScaled (4 * b.mantissa - (if b.narrowBelow then 1 else 2)) (b.exponent - 2)
  let high := twoScaled (4 * b.mantissa + 2) (b.exponent - 2)
  let point := tenScaled n power
  if b.mantissa % 2 = 0 then quotientLe low point && quotientLe point high
  else quotientLt low point && quotientLt point high

/-- The nearer of the two neighbours of the number on the grid of `10 ^ power` that read back. -/
def neighbour? (b : Binary) (power : Int) : Option Nat :=
  let v := twoScaled b.mantissa b.exponent
  let unit := tenScaled 1 power
  let below := v.1 * unit.2 / (v.2 * unit.1)
  let above := below + 1
  let rest := v.1 * unit.2 % (v.2 * unit.1)
  let belowFits := below ≠ 0 && readsBack b below power
  let aboveFits := readsBack b above power
  let belowNearer := 2 * rest < v.2 * unit.1 || (2 * rest = v.2 * unit.1 && below % 2 = 0)
  if belowFits && (belowNearer || !aboveFits) then some below
  else if aboveFits then some above
  else none

def magnitude (b : Binary) : Int :=
  let v := twoScaled b.mantissa b.exponent
  if v.2 ≤ v.1 then (digits (v.1 / v.2)).length
  else 1 - (digits (v.2 / v.1)).length

def stripZeros : Nat → Nat → Int → Nat × Int
  | 0, n, power => (n, power)
  | steps + 1, n, power =>
    if n % 10 = 0 ∧ n ≠ 0 then stripZeros steps (n / 10) (power + 1) else (n, power)

def searchShortest (b : Binary) (top : Int) : Nat → Nat → Nat × Int
  | 0, _ => (b.mantissa, b.exponent)
  | steps + 1, count =>
    match neighbour? b (top - count) with
    | some n => stripZeros 20 n (top - count)
    | none => searchShortest b top steps (count + 1)

/-- The fewest digits that read back, as a number and the power of ten of its last digit. -/
def shortest (f : Float32) : Nat × Int :=
  let b := binaryOf f
  searchShortest b (magnitude b + 1) 12 0

/--
How such a number is written: positionally with a point as long as the point stands between six
places before and thirteen places behind the first digit, otherwise with an exponent.
-/
def shortestNumeral (f : Float32) : Numeral :=
  let negative := f.toBits.toNat / Nat.pow 2 31 = 1
  if f == 0 then { negative, whole := [0], fraction := [0], exponent := none }
  else
    let (n, power) := shortest f
    let ds := digits n
    let point : Int := ds.length + power
    if 0 ≤ power ∧ point ≤ 13 then
      { negative, whole := ds ++ List.replicate power.toNat 0, fraction := [0], exponent := none }
    else if 0 < point ∧ point ≤ 13 then
      { negative, whole := ds.take point.toNat, fraction := ds.drop point.toNat, exponent := none }
    else if -6 < point ∧ point ≤ 0 then
      { negative, whole := [0], fraction := List.replicate point.natAbs 0 ++ ds, exponent := none }
    else
      { negative, whole := ds.take 1, fraction := ds.drop 1,
        exponent := some (point - 1 < 0, digits (point - 1).natAbs) }

end DownloadQueue.Decimal
