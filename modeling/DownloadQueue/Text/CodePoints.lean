/-!
Tables of code points, written as texts. The words of a table stand between blanks and hold numbers
in small hexadecimal digits: `a-b` is an interval, `a-b=c` maps an interval to the one that starts
at `c`, and `a:` is followed by what the code points from `a` on stand for.
-/

namespace DownloadQueue.Text

def pieces (p : Char → Bool) : List Char → List (List Char)
  | [] => [[]]
  | c :: cs =>
    if p c then [] :: pieces p cs
    else
      match pieces p cs with
      | piece :: rest => (c :: piece) :: rest
      | [] => [[c]]

def words (table : String) : List (List Char) :=
  (pieces (fun c => c = ' ' || c = '\n') table.toList).filter fun word => word ≠ []

def hexValue (digits : List Char) : Nat :=
  digits.foldl (fun n c => n * 16 + if c ≤ '9' then c.toNat - 48 else c.toNat - 87) 0

def interval (word : List Char) : Nat × Nat :=
  let low := word.takeWhile fun c => c ≠ '-'
  match word.dropWhile fun c => c ≠ '-' with
  | [] => (hexValue low, hexValue low)
  | _ :: high => (hexValue low, hexValue high)

def intervals (table : String) : List (Nat × Nat) :=
  (words table).map interval

def inRanges (ranges : List (Nat × Nat)) (code : Nat) : Bool :=
  ranges.any fun range => range.1 ≤ code && code ≤ range.2

/-- An interval that is mapped, in order, to the one of the same length from `target` on. -/
structure Shift where
  first : Nat
  last : Nat
  target : Nat
  deriving DecidableEq, Repr

namespace Shift

def holds (s : Shift) (code : Nat) : Bool :=
  s.first ≤ code && code ≤ s.last

def get? (s : Shift) (code : Nat) : Option Nat :=
  if s.holds code then some (s.target + (code - s.first)) else none

def source? (s : Shift) (image : Nat) : Option Nat :=
  if s.target ≤ image ∧ image ≤ s.target + (s.last - s.first) ∧ s.first ≤ s.last then
    some (s.first + (image - s.target))
  else none

end Shift

def shifts (table : String) : List Shift :=
  (words table).map fun word =>
    let (first, last) := interval (word.takeWhile fun c => c ≠ '=')
    ⟨first, last, hexValue (word.drop (word.takeWhile fun c => c ≠ '=').length.succ)⟩

def imagesFrom : Nat → List (List Char) → List (Nat × List Char)
  | _, [] => []
  | code, word :: rest =>
    if word.getLast? = some ':' then imagesFrom (hexValue word.dropLast) rest
    else
      (code, (pieces (fun c => c = '+') word).map fun digits => Char.ofNat (hexValue digits)) ::
        imagesFrom (code + 1) rest

def images (table : String) : List (Nat × List Char) :=
  imagesFrom 0 (words table)

end DownloadQueue.Text
