
namespace DownloadQueue.Decimal

def digits (n : Nat) : List Nat :=
  if n < 10 then [n] else digits (n / 10) ++ [n % 10]
termination_by n
decreasing_by omega

def value (ds : List Nat) : Nat :=
  ds.foldl (fun n d => n * 10 + d) 0

theorem value_append_singleton (ds : List Nat) (d : Nat) :
    value (ds ++ [d]) = value ds * 10 + d := by
  simp [value]

theorem value_digits (n : Nat) : value (digits n) = n := by
  induction n using Nat.strongRecOn with
  | _ n ih =>
    rw [digits]
    split
    · simp [value]
    · rw [value_append_singleton, ih (n / 10) (by omega)]
      omega

theorem digits_lt_ten (n : Nat) : ∀ d ∈ digits n, d < 10 := by
  induction n using Nat.strongRecOn with
  | _ n ih =>
    rw [digits]
    split
    · simpa using by assumption
    · intro d hd
      rcases List.mem_append.1 hd with hd | hd
      · exact ih (n / 10) (by omega) d hd
      · have : d = n % 10 := by simpa using hd
        omega

theorem digits_ne_nil (n : Nat) : digits n ≠ [] := by
  rw [digits]
  split <;> simp

def digitChar (d : Nat) : Char :=
  Char.ofNat (48 + d)

def digitOf? (c : Char) : Option Nat :=
  if 48 ≤ c.toNat ∧ c.toNat ≤ 57 then some (c.toNat - 48) else none

def text (n : Nat) : List Char :=
  (digits n).map digitChar

def padded (width n : Nat) : List Char :=
  List.replicate (width - (digits n).length) '0' ++ text n

def takeDigits : Nat → List Char → List Nat × List Char
  | 0, cs => ([], cs)
  | _, [] => ([], [])
  | limit + 1, c :: cs =>
    match digitOf? c with
    | some d => let (ds, rest) := takeDigits limit cs; (d :: ds, rest)
    | none => ([], c :: cs)

inductive ReadError
  | empty
  | invalidDigit
  | tooLarge
  deriving DecidableEq, Repr

def ReadError.message : ReadError → String
  | .empty => "cannot parse integer from empty string"
  | .invalidDigit => "invalid digit found in string"
  | .tooLarge => "number too large to fit in target type"

/-- Reads digits on top of `n`; the first digit that is none, or that exceeds `limit`, decides. -/
def readDigits (limit n : Nat) : List Char → Except ReadError Nat
  | [] => .ok n
  | c :: cs =>
    match digitOf? c with
    | none => .error .invalidDigit
    | some d => if n * 10 + d ≤ limit then readDigits limit (n * 10 + d) cs else .error .tooLarge

def read (limit : Nat) (text : List Char) : Except ReadError Nat :=
  match text with
  | [] => .error .empty
  | ['+'] => .error .invalidDigit
  | '+' :: cs => readDigits limit 0 cs
  | cs => readDigits limit 0 cs

end DownloadQueue.Decimal
