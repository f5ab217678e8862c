import DownloadQueue.Decimal
import DownloadQueue.Text.Blank
import DownloadQueue.Timestamp.Basic

namespace DownloadQueue.Timestamp

open Text Decimal

def expect (c : Char) : List Char → Option (List Char)
  | [] => none
  | d :: rest => if d = c then some rest else none

def readNumber (limit : Nat) (cs : List Char) : Option (Nat × List Char) :=
  match takeDigits limit (trimStart cs) with
  | ([], _) => none
  | (ds, rest) => some (value ds, rest)

def readSigned (cs : List Char) : Option (Nat × List Char) :=
  match takeDigits cs.length cs with
  | ([], _) => none
  | (ds, rest) => if value ds < Nat.pow 2 63 then some (value ds, rest) else none

/-- A year: up to four digits, or a sign and any number of digits. -/
def readYear (cs : List Char) : Option (Int × List Char) :=
  match trimStart cs with
  | '-' :: rest => (readSigned rest).map fun (n, rest) => (-(n : Int), rest)
  | '+' :: rest => (readSigned rest).map fun (n, rest) => ((n : Int), rest)
  | cs => (readNumber 4 cs).map fun (n, rest) => ((n : Int), rest)

def readDate (cs : List Char) : Option (Date × List Char) := do
  let (year, cs) ← readYear cs
  let cs ← expect '-' (trimStart cs)
  let (month, cs) ← readNumber 2 cs
  let cs ← expect '-' (trimStart cs)
  let (day, cs) ← readNumber 2 cs
  let date ← Date.ofCivil? year month day
  return (date, cs)

/-- The first nine digits of a fraction of a second, in nanoseconds; further digits are dropped. -/
def readFraction : List Char → Option (Nat × List Char)
  | '.' :: cs =>
    match takeDigits 9 cs with
    | ([], _) => none
    | (ds, rest) =>
      some (value ds * Nat.pow 10 (9 - ds.length), (takeDigits rest.length rest).2)
  | cs => some (0, cs)

def readTime (cs : List Char) : Option (ClockTime × List Char) := do
  let (hour, cs) ← readNumber 2 cs
  let cs ← expect ':' (trimStart cs)
  let (minute, cs) ← readNumber 2 cs
  let cs ← expect ':' (trimStart cs)
  let (second, cs) ← readNumber 2 cs
  let (nano, cs) ← readFraction cs
  let time ← ClockTime.ofNumbers? hour minute second nano
  return (time, cs)

def readPair : List Char → Option (Nat × List Char)
  | a :: b :: rest => do
    let a ← digitOf? a
    let b ← digitOf? b
    return (a * 10 + b, rest)
  | _ => none

def readOffsetMinutes (cs : List Char) : Option (Int × List Char) := do
  let (hours, cs) ← readPair cs
  let (minutes, cs) ← readPair (cs.dropWhile fun c => c == ':' || isBlank c)
  if minutes < 60 ∧ hours < 24 then return ((hours * 60 + minutes : Int), cs) else none

def readOffset (cs : List Char) : Option (Int × List Char) :=
  match cs with
  | 'Z' :: rest => some (0, rest)
  | 'z' :: rest => some (0, rest)
  | '+' :: rest => readOffsetMinutes rest
  | '-' :: rest => (readOffsetMinutes rest).map fun (m, rest) => (-m, rest)
  | '−' :: rest => (readOffsetMinutes rest).map fun (m, rest) => (-m, rest)
  | a :: b :: c :: rest =>
    if [a, b, c].map Char.toUpper = ['U', 'T', 'C'] then some (0, rest) else none
  | _ => none

def readSeparator : List Char → Option (List Char)
  | c :: rest => if c = 'T' ∨ c = 't' ∨ c = ' ' then some rest else none
  | [] => none

def ofText? (text : List Char) : Option Timestamp := do
  let (date, cs) ← readDate text
  let cs ← readSeparator cs
  let (time, cs) ← readTime cs
  let (offset, cs) ← readOffset (trimStart cs)
  if (trimStart cs).isEmpty then ofLocal? { date, time } offset else none

end DownloadQueue.Timestamp
