import Mathlib.Data.List.DropRight
import Mathlib.Data.List.TakeWhile
import DownloadQueue.Text.Blank

namespace DownloadQueue.Text

theorem trimStart_eq_self {text : List Char} (h : ∀ c ∈ text.head?, isBlank c = false) :
    trimStart text = text := by
  cases text with
  | nil => rfl
  | cons c cs => exact List.dropWhile_cons_of_neg (by simp [h c rfl])

theorem trim_eq_self {text : List Char} (hfirst : ∀ c ∈ text.head?, isBlank c = false)
    (hlast : ∀ c ∈ text.getLast?, isBlank c = false) : trim text = text := by
  have hreverse : text.reverse.dropWhile isBlank = text.reverse := by
    refine trimStart_eq_self fun c hmem => hlast c ?_
    rwa [List.head?_reverse] at hmem
  rw [trim, trimStart_eq_self hfirst, trimEnd, hreverse, List.reverse_reverse]

theorem trim_eq_nil {text : List Char} (h : ∀ c ∈ text, isBlank c = true) : trim text = [] := by
  have hstart : trimStart text = [] := List.dropWhile_eq_nil_iff.mpr h
  rw [trim, hstart]
  rfl

/-- A blank at the end of a text makes no difference to what trimming leaves. -/
theorem trim_concat {c : Char} (h : isBlank c = true) (text : List Char) :
    trim (text ++ [c]) = trim text := by
  by_cases hblank : trimStart text = []
  · have hall : ∀ d ∈ text, isBlank d = true := List.dropWhile_eq_nil_iff.mp hblank
    rw [trim_eq_nil hall, trim_eq_nil]
    simpa [or_imp, forall_and, h] using hall
  · have hstart : trimStart (text ++ [c]) = trimStart text ++ [c] := by
      rw [trimStart, List.dropWhile_append, if_neg (by simpa [trimStart] using hblank)]
      rfl
    rw [trim, hstart, trimEnd, List.reverse_concat, List.dropWhile_cons_of_pos h]
    rfl

theorem trim_prefix_trimStart (text : List Char) : trim text <+: trimStart text :=
  List.rdropWhile_prefix isBlank (trimStart text)

/-- A trimmed text begins with no blank. -/
theorem isBlank_head_of_trim {text rest : List Char} {c : Char} (h : trim text = c :: rest) :
    isBlank c = false := by
  obtain ⟨behind, hstart⟩ := trim_prefix_trimStart text
  rw [h, List.cons_append] at hstart
  have hhead := List.head?_dropWhile_not isBlank text
  rw [← trimStart, ← hstart] at hhead
  exact hhead

end DownloadQueue.Text
