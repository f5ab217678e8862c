import DownloadQueue.Timestamp.Printer
import DownloadQueue.Timestamp.Reader
import Mathlib.Algebra.Group.Nat.Defs

namespace DownloadQueue

namespace Decimal

def Stops (cs : List Char) : Prop :=
  ∀ c ∈ cs.head?, digitOf? c = none

theorem stops_cons {c : Char} (h : digitOf? c = none) (cs : List Char) : Stops (c :: cs) := by
  intro d hmem
  cases hmem
  exact h

theorem digitOf?_digitChar {d : Nat} (h : d < 10) : digitOf? (digitChar d) = some d := by
  revert d
  decide

theorem takeDigits_map {ds : List Nat} (hds : ∀ d ∈ ds, d < 10) {limit : Nat}
    (hlimit : ds.length ≤ limit) {rest : List Char} (hrest : Stops rest) :
    takeDigits limit (ds.map digitChar ++ rest) = (ds, rest) := by
  induction ds generalizing limit with
  | nil =>
    rw [List.map_nil, List.nil_append]
    cases limit with
    | zero => rw [takeDigits]
    | succ limit =>
      cases rest with
      | nil => rfl
      | cons c rest =>
        rw [takeDigits, hrest c rfl]
  | cons d ds ih =>
    cases limit with
    | zero => exact absurd hlimit (Nat.not_succ_le_zero _)
    | succ limit =>
      have htail := ih (fun d hmem => hds d (List.mem_cons_of_mem _ hmem))
        (Nat.le_of_succ_le_succ hlimit)
      rw [List.map_cons, List.cons_append, takeDigits, digitOf?_digitChar (hds d List.mem_cons_self)]
      simp only [htail]

theorem length_digits_le {n width : Nat} (hwidth : 0 < width) (h : n < 10 ^ width) :
    (digits n).length ≤ width := by
  induction width generalizing n with
  | zero => exact absurd hwidth (Nat.lt_irrefl 0)
  | succ width ih =>
    rw [digits]
    split
    · exact Nat.succ_le_succ (Nat.zero_le _)
    · next hlarge =>
      rw [List.length_append, List.length_singleton]
      refine Nat.succ_le_succ (ih ?_ ?_)
      · rcases width with - | width
        · rw [Nat.pow_one] at h
          omega
        · exact Nat.succ_pos _
      · rw [Nat.pow_succ] at h
        omega

def paddedDigits (width n : Nat) : List Nat :=
  List.replicate (width - (digits n).length) 0 ++ digits n

theorem padded_eq (width n : Nat) : padded width n = (paddedDigits width n).map digitChar := by
  rw [padded, paddedDigits, List.map_append, List.map_replicate]
  rfl

theorem paddedDigits_lt_ten (width n : Nat) : ∀ d ∈ paddedDigits width n, d < 10 := by
  intro d hmem
  rcases List.mem_append.mp hmem with hzero | hdigit
  · rw [List.eq_of_mem_replicate hzero]
    decide
  · exact digits_lt_ten n d hdigit

theorem value_paddedDigits (width n : Nat) : value (paddedDigits width n) = n := by
  rw [paddedDigits, value, List.foldl_append]
  have hzeros (k : Nat) : (List.replicate k 0).foldl (fun n d => n * 10 + d) 0 = 0 := by
    induction k with
    | zero => rfl
    | succ k ih => rw [List.replicate_succ, List.foldl_cons, ih]
  rw [hzeros]
  exact value_digits n

theorem length_paddedDigits {width n : Nat} (hwidth : 0 < width) (h : n < 10 ^ width) :
    (paddedDigits width n).length = width := by
  have hle := length_digits_le hwidth h
  rw [paddedDigits, List.length_append, List.length_replicate]
  omega

theorem paddedDigits_ne_nil (width n : Nat) : paddedDigits width n ≠ [] :=
  fun h => digits_ne_nil n (List.append_eq_nil_iff.mp h).2

end Decimal

namespace Timestamp

open Decimal Text

theorem trimStart_digits {ds : List Nat} (hne : ds ≠ []) (hds : ∀ d ∈ ds, d < 10)
    (rest : List Char) : trimStart (ds.map digitChar ++ rest) = ds.map digitChar ++ rest := by
  have hblank {d : Nat} (hd : d < 10) : isBlank (digitChar d) = false := by
    revert d
    decide
  cases ds with
  | nil => exact absurd rfl hne
  | cons d ds =>
    exact List.dropWhile_cons_of_neg (by simp [hblank (hds d List.mem_cons_self)])

/-- A padded number that is not too long is read back. -/
theorem readNumber_padded (width limit : Nat) {n : Nat} (hwidth : 0 < width) (hle : width ≤ limit)
    (h : n < 10 ^ width) {rest : List Char} (hrest : Stops rest) :
    readNumber limit (padded width n ++ rest) = some (n, rest) := by
  have hlength := length_paddedDigits hwidth h
  rw [padded_eq, readNumber,
    trimStart_digits (paddedDigits_ne_nil width n) (paddedDigits_lt_ten width n),
    takeDigits_map (paddedDigits_lt_ten width n) (by omega) hrest]
  split
  · next heq => exact absurd (Prod.mk.inj heq).1 (paddedDigits_ne_nil width n)
  · next heq =>
    obtain ⟨hdigits, hleft⟩ := Prod.mk.inj heq
    rw [← hdigits, ← hleft, value_paddedDigits]

/-- A year is read back with its leading zeros, or with more than four digits. -/
theorem readSigned_padded {n : Nat} (h : n < 2 ^ 63) {rest : List Char} (hrest : Stops rest) :
    readSigned (padded 4 n ++ rest) = some (n, rest) := by
  rw [padded_eq, readSigned, takeDigits_map (paddedDigits_lt_ten 4 n) ?_ hrest]
  · split
    · next heq => exact absurd (Prod.mk.inj heq).1 (paddedDigits_ne_nil 4 n)
    · next heq =>
      obtain ⟨hdigits, hleft⟩ := Prod.mk.inj heq
      rw [← hdigits, ← hleft, value_paddedDigits]
      exact if_pos h
  · rw [List.length_append, List.length_map]
    exact Nat.le_add_right _ _

theorem trimStart_cons {c : Char} (h : isBlank c = false) (cs : List Char) :
    trimStart (c :: cs) = c :: cs :=
  List.dropWhile_cons_of_neg (by simp [h])

theorem expect_self (c : Char) (cs : List Char) : expect c (c :: cs) = some cs := by
  rw [expect, if_pos rfl]

/-- A year is read back, with and without a sign. -/
theorem readYear_yearText {year : Int} (hrange : -262143 ≤ year ∧ year ≤ 262142)
    {rest : List Char} (hrest : Stops rest) :
    readYear (yearText year ++ rest) = some (year, rest) := by
  have hsmall : year.natAbs < 2 ^ 63 := by omega
  have hsigned := readSigned_padded hsmall hrest
  rw [yearText]
  split
  · next hplain =>
    have hnumber : readNumber 4 (padded 4 year.toNat ++ rest) = some (year.toNat, rest) :=
      readNumber_padded _ _ (by decide) (by decide) (by omega) hrest
    have htrim := trimStart_digits (paddedDigits_ne_nil 4 year.toNat)
      (paddedDigits_lt_ten 4 year.toNat) rest
    rw [← padded_eq] at htrim
    -- a plain year starts with a digit, so it is not taken for a signed one
    have hdigit : ∀ c ∈ (padded 4 year.toNat ++ rest).head?, c ≠ '-' ∧ c ≠ '+' := by
      have hne {d : Nat} (hd : d < 10) : digitChar d ≠ '-' ∧ digitChar d ≠ '+' := by
        revert d
        decide
      intro c hmem
      rw [padded_eq] at hmem
      cases hds : paddedDigits 4 year.toNat with
      | nil => exact absurd hds (paddedDigits_ne_nil _ _)
      | cons d ds =>
        rw [hds] at hmem
        cases hmem
        exact hne (paddedDigits_lt_ten 4 year.toNat d (hds ▸ List.mem_cons_self))
    rw [readYear, htrim]
    split
    · next heq => exact absurd rfl (hdigit '-' (by rw [heq]; rfl)).1
    · next heq => exact absurd rfl (hdigit '+' (by rw [heq]; rfl)).2
    · rw [hnumber, Option.map_some]
      simp only [Int.toNat_of_nonneg hplain.1]
  · next hsign =>
    split
    · next hneg =>
      rw [List.cons_append, readYear, trimStart_cons (by decide)]
      simp only [hsigned, Option.map_some]
      congr 2
      omega
    · next hpos =>
      rw [List.cons_append, readYear, trimStart_cons (by decide)]
      simp only [hsigned, Option.map_some]
      congr 2
      omega

/-- A date is read back from its text. -/
theorem readDate_dateText (date : Date) {rest : List Char} (hrest : Stops rest) :
    readDate (dateText date ++ rest) = some (date, rest) := by
  have hdash (cs : List Char) : Stops ('-' :: cs) := stops_cons (by decide) cs
  have hblank : isBlank '-' = false := by decide
  have hdays : daysInMonth date.year date.month ≤ 31 := by
    rw [daysInMonth]
    split
    · split <;> decide
    · split <;> decide
  have hday := date.day_range.2
  have hmonth := date.month_range.2
  have hyear := readYear_yearText date.year_range
    (hdash (padded 2 date.month ++ '-' :: (padded 2 date.day ++ rest)))
  have hmonthRead := readNumber_padded 2 2 (by decide) (by decide)
    (show date.month < 10 ^ 2 by omega) (hdash (padded 2 date.day ++ rest))
  have hdayRead := readNumber_padded 2 2 (by decide) (by decide)
    (show date.day < 10 ^ 2 by omega) hrest
  have htext : dateText date ++ rest =
      yearText date.year ++ '-' :: (padded 2 date.month ++ '-' :: (padded 2 date.day ++ rest)) := by
    simp [dateText]
  rw [htext, readDate, hyear]
  simp only [Option.bind_eq_bind, Option.bind_some, trimStart_cons hblank, expect_self, hmonthRead,
    hdayRead, Date.ofCivil?_self, Option.pure_def]

/-- Nine digits are read whatever was written: those that are left out at the end were zeros. -/
theorem readFraction_digits {width n : Nat} (hwidth : 0 < width) (hle : width ≤ 9)
    (h : n < 10 ^ width) {rest : List Char} (hrest : Stops rest) :
    readFraction ('.' :: padded width n ++ rest) = some (n * 10 ^ (9 - width), rest) := by
  have hlength := length_paddedDigits hwidth h
  have hskip : takeDigits rest.length rest = ([], rest) :=
    @takeDigits_map [] (fun _ hmem => absurd hmem List.not_mem_nil) _ (Nat.zero_le _) _ hrest
  rw [List.cons_append, padded_eq, readFraction]
  rw [takeDigits_map (paddedDigits_lt_ten width n) (by omega) hrest]
  split
  · next heq => exact absurd (Prod.mk.inj heq).1 (paddedDigits_ne_nil width n)
  · next heq =>
    obtain ⟨hdigits, hleft⟩ := Prod.mk.inj heq
    rw [← hdigits, ← hleft, value_paddedDigits, hlength, hskip]
    rfl

theorem readFraction_fractionText {nano : Nat} (h : nano < 1000000000) {rest : List Char}
    (hrest : Stops rest) (hpoint : rest.head? ≠ some '.') :
    readFraction (fractionText nano ++ rest) = some (nano, rest) := by
  rw [fractionText]
  split
  · next hzero =>
    rw [List.nil_append, hzero, readFraction.eq_def]
    split
    · exact absurd rfl hpoint
    · rfl
  · split
    · next hmillis =>
      rw [readFraction_digits (by decide) (by decide) (by omega) hrest]
      congr 2
      omega
    · split
      · next hmicros =>
        rw [readFraction_digits (by decide) (by decide) (by omega) hrest]
        congr 2
        omega
      · rw [readFraction_digits (by decide) (by decide) (by omega) hrest]
        congr 2
        omega

/-- A time is read back from its text, a leap second too. -/
theorem readTime_timeText (time : ClockTime) {rest : List Char} (hrest : Stops rest)
    (hpoint : rest.head? ≠ some '.') : readTime (timeText time ++ rest) = some (time, rest) := by
  have hcolon (cs : List Char) : Stops (':' :: cs) := stops_cons (by decide) cs
  have hblank : isBlank ':' = false := by decide
  have hfraction := readFraction_fractionText time.nano_lt hrest hpoint
  have hstops : Stops (fractionText time.nano ++ rest) := by
    rw [fractionText]
    split
    · exact hrest
    · split
      · exact stops_cons (by decide) _
      · split <;> exact stops_cons (by decide) _
  have hhour := readNumber_padded 2 2 (by decide) (by decide)
    (show time.hour < 10 ^ 2 from Nat.lt_of_lt_of_le time.hour_lt (by decide))
    (hcolon (padded 2 time.minute ++ ':' :: (padded 2 time.second ++
      (fractionText time.nano ++ rest))))
  have hminute := readNumber_padded 2 2 (by decide) (by decide)
    (show time.minute < 10 ^ 2 from Nat.lt_of_lt_of_le time.minute_lt (by decide))
    (hcolon (padded 2 time.second ++ (fractionText time.nano ++ rest)))
  have hsecond := readNumber_padded 2 2 (by decide) (by decide)
    (show time.second < 10 ^ 2 from Nat.lt_of_le_of_lt time.second_le (by decide)) hstops
  have htext : timeText time ++ rest =
      padded 2 time.hour ++ ':' :: (padded 2 time.minute ++ ':' :: (padded 2 time.second ++
        (fractionText time.nano ++ rest))) := by
    simp [timeText]
  rw [htext, readTime, hhour]
  simp only [Option.bind_eq_bind, Option.bind_some, trimStart_cons hblank, expect_self, hminute,
    hsecond, hfraction, ClockTime.ofNumbers?_self, Option.pure_def]

/-- Clocks of universal time show the instant itself. -/
theorem ofLocal?_zero (instant : Timestamp) : ofLocal? instant 0 = some instant := by
  have hhour := instant.time.hour_lt
  have hminute := instant.time.minute_lt
  have hminutes : ((instant.time.hour * 60 + instant.time.minute - 0 : Int) % 1440).toNat =
      instant.time.hour * 60 + instant.time.minute := by omega
  rw [ofLocal?]
  simp only [hminutes]
  rw [if_neg (by omega), if_neg (by omega),
    show (instant.time.hour * 60 + instant.time.minute) / 60 = instant.time.hour by omega,
    show (instant.time.hour * 60 + instant.time.minute) % 60 = instant.time.minute by omega,
    ClockTime.ofNumbers?_self]

/-- The text of an instant is read as the instant. -/
theorem ofText?_text (instant : Timestamp) : ofText? instant.text = some instant := by
  have hstops (cs : List Char) : Stops ('T' :: cs) := stops_cons (by decide) cs
  have hzone : Stops ['Z'] := stops_cons (by decide) []
  have hdate := readDate_dateText instant.date (hstops (timeText instant.time ++ ['Z']))
  have htime := readTime_timeText instant.time hzone (by decide)
  have htext : instant.text = dateText instant.date ++ 'T' :: (timeText instant.time ++ ['Z']) := by
    simp [text]
  rw [htext, ofText?, hdate]
  have hseparator : readSeparator ('T' :: (timeText instant.time ++ ['Z'])) =
      some (timeText instant.time ++ ['Z']) := rfl
  have hoffset : readOffset (trimStart ['Z']) = some (0, []) := rfl
  simp only [Option.bind_eq_bind, Option.bind_some, hseparator, htime, hoffset]
  exact ofLocal?_zero instant

end Timestamp

end DownloadQueue
