import DownloadQueue.Error

namespace DownloadQueue

structure Duration where
  nanos : Nat
  deriving DecidableEq, Repr

namespace Duration

def ofSecs (secs : Nat) : Duration := ⟨secs * 1000000000⟩

def ofMillis (millis : Nat) : Duration := ⟨millis * 1000000⟩

def secs (d : Duration) : Nat := d.nanos / 1000000000

def subsecNanos (d : Duration) : Nat := d.nanos % 1000000000

def toFloat (d : Duration) : Float :=
  (UInt64.ofNat d.secs).toFloat + (UInt64.ofNat d.subsecNanos).toFloat / 1000000000

/-- `num / den` rounded to the nearest whole number, a half to the even one. -/
def roundHalfEven (num den : Nat) : Nat :=
  let q := num / den
  let r := num % den
  if 2 * r < den ∨ (2 * r = den ∧ q % 2 = 0) then q else q + 1

/-- The nearest span to a number of seconds; `secs` is below `2 ^ 64`. -/
def ofFloat (secs : Float) : Except Overflow Duration :=
  if secs < 0 then .error .negativeDelay
  else
    let bits := secs.toBits.toNat
    let biased : Nat := bits / Nat.pow 2 52 % Nat.pow 2 11
    let mantissa : Nat := bits % Nat.pow 2 52 + Nat.pow 2 52
    if biased = 0 then .ok ⟨0⟩
    else if 1023 + 64 ≤ biased then .error .hugeDelay
    else if 1075 ≤ biased then .ok ⟨mantissa * Nat.pow 2 (biased - 1075) * 1000000000⟩
    else .ok ⟨roundHalfEven (mantissa * 1000000000) (Nat.pow 2 (1075 - biased))⟩

end Duration

end DownloadQueue
