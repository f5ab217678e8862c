import DownloadQueue.Timestamp.Calendar

namespace DownloadQueue

structure ClockTime where
  hour : Nat
  minute : Nat
  second : Nat
  nano : Nat
  hour_lt : hour < 24
  minute_lt : minute < 60
  second_le : second ≤ 60
  nano_lt : nano < 1000000000
  deriving DecidableEq

def ClockTime.ofNumbers? (hour minute second nano : Nat) : Option ClockTime :=
  if h : hour < 24 ∧ minute < 60 ∧ second ≤ 60 ∧ nano < 1000000000 then
    some ⟨hour, minute, second, nano, h.1, h.2.1, h.2.2.1, h.2.2.2⟩
  else none

theorem ClockTime.ofNumbers?_self (time : ClockTime) :
    ofNumbers? time.hour time.minute time.second time.nano = some time := by
  simp [ofNumbers?, time.hour_lt, time.minute_lt, time.second_le, time.nano_lt]

structure Timestamp where
  date : Date
  time : ClockTime
  deriving DecidableEq

namespace Timestamp

def epoch : Timestamp :=
  { date := ⟨1970, 1, 1, by decide, by decide, by decide⟩
    time := ⟨0, 0, 0, 0, by decide, by decide, by decide, by decide⟩ }

/--
The instant at which clocks that are `offset` minutes ahead of universal time show `local`. The
offset is shorter than a day, so that at most one day is crossed.
-/
def ofLocal? (shown : Timestamp) (offset : Int) : Option Timestamp :=
  let minutes : Int := shown.time.hour * 60 + shown.time.minute - offset
  let inDay := (minutes % 1440).toNat
  let date? :=
    if minutes < 0 then shown.date.previous?
    else if 1440 ≤ minutes then shown.date.next?
    else some shown.date
  match date?, ClockTime.ofNumbers? (inDay / 60) (inDay % 60) shown.time.second shown.time.nano with
  | some date, some time => some { date, time }
  | _, _ => none

end Timestamp

end DownloadQueue
