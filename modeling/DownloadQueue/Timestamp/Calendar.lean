
namespace DownloadQueue

def isLeapYear (year : Int) : Bool :=
  year % 4 = 0 && (year % 100 ≠ 0 || year % 400 = 0)

def daysInMonth (year : Int) (month : Nat) : Nat :=
  if month = 2 then (if isLeapYear year then 29 else 28)
  else if month = 4 ∨ month = 6 ∨ month = 9 ∨ month = 11 then 30
  else 31

structure Date where
  year : Int
  month : Nat
  day : Nat
  year_range : -262143 ≤ year ∧ year ≤ 262142
  month_range : 1 ≤ month ∧ month ≤ 12
  day_range : 1 ≤ day ∧ day ≤ daysInMonth year month
  deriving DecidableEq

namespace Date

def ofCivil? (year : Int) (month day : Nat) : Option Date :=
  if h : (-262143 ≤ year ∧ year ≤ 262142) ∧ (1 ≤ month ∧ month ≤ 12) ∧
      (1 ≤ day ∧ day ≤ daysInMonth year month) then
    some ⟨year, month, day, h.1, h.2.1, h.2.2⟩
  else none

def next? (date : Date) : Option Date :=
  if date.day < daysInMonth date.year date.month then
    ofCivil? date.year date.month (date.day + 1)
  else if date.month < 12 then ofCivil? date.year (date.month + 1) 1
  else ofCivil? (date.year + 1) 1 1

def previous? (date : Date) : Option Date :=
  if 1 < date.day then ofCivil? date.year date.month (date.day - 1)
  else if 1 < date.month then
    ofCivil? date.year (date.month - 1) (daysInMonth date.year (date.month - 1))
  else ofCivil? (date.year - 1) 12 31

theorem ofCivil?_self (date : Date) :
    ofCivil? date.year date.month date.day = some date := by
  simp [ofCivil?, date.year_range, date.month_range, date.day_range]

end Date

end DownloadQueue
