import DownloadQueue.Fetch.ContentRange
import DownloadQueue.Proofs.Blanks

namespace DownloadQueue

namespace Decimal

/-- A digit is no blank and no mark. -/
theorem digitChar_plain {d : Nat} (h : d < 10) :
    digitOf? (digitChar d) = some d ∧ Text.isBlank (digitChar d) = false ∧
      ContentRange.isHeaderText (digitChar d) = true ∧ digitChar d ≠ '/' ∧ digitChar d ≠ '-' ∧
      digitChar d ≠ '+' := by
  revert d
  decide

theorem exists_of_mem_text {n : Nat} {c : Char} (h : c ∈ text n) : ∃ d < 10, digitChar d = c := by
  obtain ⟨d, hmem, rfl⟩ := List.mem_map.mp h
  exact ⟨d, digits_lt_ten n d hmem, rfl⟩

theorem text_ne_nil (n : Nat) : text n ≠ [] := by
  simpa [text] using digits_ne_nil n

theorem le_foldl (ds : List Nat) (n : Nat) : n ≤ ds.foldl (fun n d => n * 10 + d) n := by
  induction ds generalizing n with
  | nil => exact Nat.le_refl n
  | cons d ds ih =>
    have hnext := ih (n * 10 + d)
    rw [List.foldl_cons]
    omega

theorem readDigits_map {limit : Nat} (ds : List Nat) (hds : ∀ d ∈ ds, d < 10) (n : Nat)
    (hlimit : ds.foldl (fun n d => n * 10 + d) n ≤ limit) :
    readDigits limit n (ds.map digitChar) = .ok (ds.foldl (fun n d => n * 10 + d) n) := by
  induction ds generalizing n with
  | nil => rfl
  | cons d ds ih =>
    have hnext := le_foldl ds (n * 10 + d)
    rw [List.foldl_cons] at hlimit ⊢
    rw [List.map_cons, readDigits, (digitChar_plain (hds d List.mem_cons_self)).1]
    dsimp only
    rw [if_pos (Nat.le_trans hnext hlimit)]
    exact ih (fun d hmem => hds d (List.mem_cons_of_mem _ hmem)) _ hlimit

/-- A number that fits is read back from its digits. -/
theorem read_text {limit n : Nat} (h : n ≤ limit) : read limit (text n) = .ok n := by
  have hvalue := value_digits n
  have hread := readDigits_map (digits n) (digits_lt_ten n) 0 (hvalue.symm ▸ h : value (digits n) ≤ limit)
  have hplus : ∀ c ∈ text n, c ≠ '+' := by
    intro c hmem
    obtain ⟨d, hd, rfl⟩ := exists_of_mem_text hmem
    exact (digitChar_plain hd).2.2.2.2.2
  rw [← text, ← value, hvalue] at hread
  cases htext : text n with
  | nil => exact absurd htext (text_ne_nil n)
  | cons c cs =>
    rw [htext] at hread
    have hne : c ≠ '+' := hplus c (htext ▸ List.mem_cons_self)
    unfold read
    split
    · next heq => cases heq
    · next heq =>
      cases heq
      exact absurd rfl hne
    · next heq =>
      cases heq
      exact absurd rfl hne
    · exact hread

end Decimal

namespace ContentRange

theorem splitOnce_append {mark : Char} {before : List Char} (h : mark ∉ before) (behind : List Char) :
    splitOnce mark (before ++ mark :: behind) = some (before, behind) := by
  induction before with
  | nil => rw [List.nil_append, splitOnce, if_pos rfl]
  | cons c cs ih =>
    rw [List.mem_cons, not_or] at h
    rw [List.cons_append, splitOnce, if_neg (Ne.symm h.1), ih h.2, Option.map_some]

theorem head?_append {first : List Char} (h : first ≠ []) (rest : List Char) :
    (first ++ rest).head? = first.head? := by
  cases first with
  | nil => exact absurd rfl h
  | cons c cs => rfl

theorem not_isBlank_of_mem_text {n : Nat} {c : Char} (h : c ∈ Decimal.text n) :
    Text.isBlank c = false := by
  obtain ⟨d, hd, rfl⟩ := Decimal.exists_of_mem_text h
  exact (Decimal.digitChar_plain hd).2.1

theorem isHeaderText_of_mem_text {n : Nat} {c : Char} (h : c ∈ Decimal.text n) :
    isHeaderText c = true := by
  obtain ⟨d, hd, rfl⟩ := Decimal.exists_of_mem_text h
  exact (Decimal.digitChar_plain hd).2.2.1

theorem number?_text {n : Nat} (h : n < UInt64.size) :
    number? (Decimal.text n) = some (UInt64.ofNat n) := by
  have htrim : Text.trim (Decimal.text n) = Decimal.text n := by
    apply Text.trim_eq_self
    · exact fun c hmem => not_isBlank_of_mem_text (List.mem_of_mem_head? hmem)
    · exact fun c hmem => not_isBlank_of_mem_text (List.mem_of_getLast? hmem)
  rw [number?, htrim, Decimal.read_text (Nat.le_sub_one_of_lt h)]

theorem not_mem_text {mark : Char} (h : mark = '/' ∨ mark = '-') (n : Nat) : mark ∉ Decimal.text n := by
  intro hmem
  obtain ⟨d, hd, heq⟩ := Decimal.exists_of_mem_text hmem
  obtain ⟨-, -, -, hslash, hdash, -⟩ := Decimal.digitChar_plain hd
  rcases h with rfl | rfl
  · exact hslash heq
  · exact hdash heq

def headerText (part : List Char) (total : Nat) : List Char :=
  ['b', 'y', 't', 'e', 's', ' '] ++ part ++ '/' :: Decimal.text total

def restHeader (offset total : Nat) : List Char :=
  headerText (Decimal.text offset ++ '-' :: Decimal.text (total - 1)) total

def beyondHeader (total : Nat) : List Char :=
  headerText ['*'] total

/-- What stands before the slash is the part, and what stands behind it is the total. -/
theorem parse?_headerText {part : List Char} {total : Nat} (htotal : total < UInt64.size)
    (hpart : part.all isHeaderText = true) (hfirst : ∀ c ∈ part.head?, Text.isBlank c = false)
    (hne : part ≠ []) (hslash : '/' ∉ part) :
    parse? (headerText part total) = some
      { start := (splitOnce '-' part).bind fun ends => number? ends.1
        total := some (UInt64.ofNat total) } := by
  have hbehindPart : ('/' :: Decimal.text total).all isHeaderText = true := by
    rw [List.all_cons, List.all_eq_true.mpr fun c hmem => isHeaderText_of_mem_text hmem]
    rfl
  have hall : (headerText part total).all isHeaderText = true := by
    rw [headerText, List.all_append, List.all_append, hpart, hbehindPart]
    rfl
  have htrim : Text.trim (headerText part total) = headerText part total := by
    apply Text.trim_eq_self
    · intro c hmem
      cases hmem
      rfl
    · intro c hmem
      rw [headerText, List.getLast?_append, List.getLast?_cons, Option.some_or,
        List.getLast?_eq_some_getLast (Decimal.text_ne_nil total), Option.getD_some,
        Option.mem_some_iff] at hmem
      rw [← hmem]
      exact not_isBlank_of_mem_text (List.getLast_mem _)
  have hbehind : behindUnit? (headerText part total) = some (part ++ '/' :: Decimal.text total) := by
    change some (Text.trimStart (' ' :: (part ++ '/' :: Decimal.text total))) = _
    rw [Text.trimStart, List.dropWhile_cons_of_pos (by decide), ← Text.trimStart, Text.trimStart_eq_self]
    intro c hmem
    rw [head?_append hne] at hmem
    exact hfirst c hmem
  rw [parse?, if_pos hall, htrim, hbehind]
  simp only [Option.bind_eq_bind, Option.bind_some, splitOnce_append hslash, number?_text htotal,
    Option.pure_def]

/-- The answer that a server gives from an offset on is understood. -/
theorem parse?_restHeader {offset total : Nat} (hoffset : offset < total) (htotal : total < UInt64.size) :
    parse? (restHeader offset total) =
      some ⟨some (UInt64.ofNat offset), some (UInt64.ofNat total)⟩ := by
  rw [restHeader, parse?_headerText htotal]
  · rw [splitOnce_append (not_mem_text (.inr rfl) offset), Option.bind_some,
      number?_text (Nat.lt_trans hoffset htotal)]
  · rw [List.all_append, List.all_cons]
    simp only [Bool.and_eq_true, List.all_eq_true]
    exact ⟨fun c hmem => isHeaderText_of_mem_text hmem, by decide,
      fun c hmem => isHeaderText_of_mem_text hmem⟩
  · intro c hmem
    rw [head?_append (Decimal.text_ne_nil offset)] at hmem
    exact not_isBlank_of_mem_text (List.mem_of_mem_head? hmem)
  · simp
  · rw [List.mem_append, List.mem_cons]
    simp [not_mem_text (.inl rfl)]

theorem parse?_beyondHeader {total : Nat} (htotal : total < UInt64.size) :
    parse? (beyondHeader total) = some ⟨none, some (UInt64.ofNat total)⟩ := by
  have hstar : ∀ c ∈ ['*'].head?, Text.isBlank c = false := by
    intro c hmem
    cases hmem
    rfl
  rw [beyondHeader, parse?_headerText htotal rfl hstar (List.cons_ne_nil _ _) (by simp)]
  rfl

end ContentRange

end DownloadQueue
