import DownloadQueue.Text.Mark

/-!
In which direction characters are written, and the rule by which labels of both directions may
stand in one name. The tables are made for characters that domain names hold; of others they say
nothing.
-/

namespace DownloadQueue.Text

inductive Direction
  | left
  | right
  | arabicNumber
  | europeanNumber
  | neutral
  | mark
  deriving DecidableEq, Repr

def letterMarks : List (Nat × Nat) :=
  intervals "cbf cc6 11a07-11a08 11c3f"

def arabicNumbers : List (Nat × Nat) :=
  intervals "660-669 66b-66c 10d30-10d39 10e60-10e7e"

def europeanNumbers : List (Nat × Nat) :=
  intervals "30-39 6f0-6f9 102e1-102fb"

def neutralRanges : List (Nat × Nat) :=
  intervals "21-60 7b-d7 f7 2b9-2ba 2c2-2cf 2d2-2ed 2ef-2ff 375 3f6 58a-58f 606-607 609-60a 60c
    60e-60f 66a 6de 6e9 7f6-7f9 9f2-9f3 9fb af1 bf3-bfa c78-c7e e3f f3a-f3d 1390-1399 1400
    169b-169c 17db 17f0-180a 1940-1945 19de-19ff 200c-214d 218a-2335 237b-2394 2396-26ab 26ad-27ff
    2900-2bff 2ce5-2cea 2cf9-2cff 2e00-3004 3008-3020 3030 3037 303d-303f 30a0 30fb 31c0-31e5
    4dc0-4dff a490-a4c6 a60d-a60f a673-a67f a700-a721 a788 a828-a82b a838-a839 a874-a877 ab6a-ab6b
    fbc3-fe46 10101 10140-1018c 10190-101a0 1091f 10b39-10b3f 10d6e 10ed0-10ed8 11052-11065
    11660-1166c 11fd5-11ff1 16fe2 1cc00-1cef0 1d1e9-1d245 1d300-1d356 1e2ff 1eef0-1f12f
    1f16d-1f16f 1f1ad 1f260-1fbfa"

def rightRanges : List (Nat × Nat) :=
  intervals "5be-8c9 fbb2-fe73 10800-10ff6 1e800-1ed3d"

def direction (c : Char) : Direction :=
  if isNonspacing c && !inRanges letterMarks c.toNat then .mark
  else if inRanges arabicNumbers c.toNat then .arabicNumber
  else if inRanges europeanNumbers c.toNat then .europeanNumber
  else if inRanges neutralRanges c.toNat then .neutral
  else if inRanges rightRanges c.toNat then .right
  else .left

def isRightToLeft (c : Char) : Bool :=
  0x590 ≤ c.toNat && (direction c = .right || direction c = .arabicNumber)

def lastDirection? (label : List Direction) : Option Direction :=
  label.reverse.find? fun d => d ≠ .mark

/--
A label keeps to one direction. One from the left ends with a letter or a number; one from the right
does too, has no letters from the left, and has numbers of one kind only.
-/
def keepsDirection (label : List Char) : Bool :=
  match label.map direction with
  | [] => true
  | .left :: rest =>
    let label := Direction.left :: rest
    label.all (fun d => d ≠ .right && d ≠ .arabicNumber) &&
      (lastDirection? label = some .left || lastDirection? label = some .europeanNumber)
  | .right :: rest =>
    let label := Direction.right :: rest
    label.all (fun d => d ≠ .left) && lastDirection? label ≠ some .neutral &&
      !(label.contains .arabicNumber && label.contains .europeanNumber)
  | _ => false

end DownloadQueue.Text
