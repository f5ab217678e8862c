import DownloadQueue.Config

namespace DownloadQueue

/-- `base ^ n` by repeated squaring, in `steps` halvings of `n`. -/
def squaringPower : Nat → Float → Float → Nat → Float
  | 0, acc, _, _ => acc
  | steps + 1, acc, base, n =>
    if n = 0 then acc
    else squaringPower steps (if n % 2 = 1 then acc * base else acc) (base * base) (n / 2)

namespace RetryConfig

/-- The factor on the first delay after so many attempts; it stops growing after 32. -/
def growth (config : RetryConfig) (attempts : UInt32) : Float :=
  squaringPower 6 1 config.multiplier (min attempts.toNat 32)

def backoff (config : RetryConfig) (attempts : UInt32) : Except Overflow Duration :=
  let secs := config.initialDelay.toFloat * config.growth attempts
  if !secs.isFinite || config.maxDelay.toFloat ≤ secs then .ok config.maxDelay
  else Duration.ofFloat secs

def lengthen (delay : Duration) (share : Float) : Except Overflow Duration :=
  Duration.ofFloat (delay.toFloat * (1 + share))

def retries (config : RetryConfig) (retryable : Bool) (attempts : UInt32) : Bool :=
  config.policy = .automatic && retryable && attempts < config.maxAttempts

/--
The delay before an automatic attempt, if there is to be one. With jitter the delay is lengthened
by `share`, a number between zero and one.
-/
def automaticDelay (config : RetryConfig) (share : Float) (retryable : Bool) (attempts : UInt32) :
    Except Overflow (Option Duration) :=
  if config.retries retryable attempts then do
    let delay ← config.backoff attempts
    let delay ← if config.jitter then lengthen delay share else pure delay
    return some delay
  else .ok none

end RetryConfig

end DownloadQueue
