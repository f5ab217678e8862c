import DownloadQueue.Proofs.Blanks
import DownloadQueue.TextQueue

namespace DownloadQueue.TextQueue

theorem splitLines_of_not_mem {line : List Char} (h : '\n' ∉ line) : splitLines line = [line] := by
  induction line with
  | nil => rfl
  | cons c cs ih =>
    rw [List.mem_cons, not_or] at h
    rw [splitLines, if_neg (Ne.symm h.1), ih h.2]

theorem splitLines_ne_nil (text : List Char) : splitLines text ≠ [] := by
  cases text with
  | nil => exact List.cons_ne_nil _ _
  | cons c cs =>
    rw [splitLines]
    split
    · exact List.cons_ne_nil _ _
    · split <;> exact List.cons_ne_nil _ _

/-- Any other character joins the piece in front of which it stands. -/
theorem splitLines_cons_of_ne {c : Char} (h : c ≠ '\n') (cs : List Char) :
    ∃ piece pieces, splitLines cs = piece :: pieces ∧
      splitLines (c :: cs) = (c :: piece) :: pieces := by
  obtain ⟨piece, pieces, hsplit⟩ := List.exists_cons_of_ne_nil (splitLines_ne_nil cs)
  exact ⟨piece, pieces, hsplit, by simp only [splitLines, if_neg h, hsplit]⟩

/-- A line feed parts what stands in front of it from what stands behind it. -/
theorem splitLines_append (text rest : List Char) :
    splitLines (text ++ '\n' :: rest) = splitLines text ++ splitLines rest := by
  induction text with
  | nil => simp only [List.nil_append, splitLines, if_true, List.singleton_append]
  | cons c cs ih =>
    by_cases hfeed : c = '\n'
    · simp only [List.cons_append, splitLines, if_pos hfeed, ih]
    · obtain ⟨piece, pieces, hsplit, hcons⟩ := splitLines_cons_of_ne hfeed cs
      rw [List.cons_append, splitLines, if_neg hfeed, ih, hsplit, hcons]
      rfl

/-- There is one piece more than there are line feeds. -/
theorem length_splitLines (text : List Char) : (splitLines text).length = text.count '\n' + 1 := by
  induction text with
  | nil => rfl
  | cons c cs ih =>
    by_cases hfeed : c = '\n'
    · rw [splitLines, if_pos hfeed, List.length_cons, ih, hfeed, List.count_cons_self]
    · obtain ⟨piece, pieces, hsplit, hcons⟩ := splitLines_cons_of_ne hfeed cs
      rw [hcons, List.count_cons_of_ne hfeed, ← ih, hsplit]
      rfl

/-- A line that is ended stands in front of the lines behind it. -/
theorem lines_append {line : List Char} (h : '\n' ∉ line) (rest : List Char) :
    lines (line ++ '\n' :: rest) = dropReturn line :: lines rest := by
  simp only [lines, splitLines_append, splitLines_of_not_mem h, List.cons_append, List.nil_append,
    List.dropLast_cons_of_ne_nil (splitLines_ne_nil rest), List.map_cons,
    List.getLast?_cons_of_ne_nil (splitLines_ne_nil rest)]

/-- A last line without an end counts unless it is empty. -/
theorem lines_of_not_mem {line : List Char} (h : '\n' ∉ line) (hne : line ≠ []) :
    lines line = [line] := by
  simp [lines, splitLines_of_not_mem h, hne]

theorem dropReturn_append (line : List Char) : dropReturn (line ++ ['\r']) = line := by
  rw [dropReturn, if_pos List.getLast?_concat, List.dropLast_concat]

theorem mem_of_mem_dropReturn {line : List Char} {c : Char} (h : c ∈ dropReturn line) : c ∈ line := by
  unfold dropReturn at h
  split at h
  · exact List.dropLast_subset _ h
  · exact h

def escape (c : Char) : List Char :=
  if c = '"' then ['\\', '"']
  else if c = '\\' then ['\\', '\\']
  else if c = '\n' then ['\\', 'n']
  else if c = '\r' then ['\\', 'r']
  else if c = '\t' then ['\\', 't']
  else [c]

def quote (text : String) : List Char :=
  '"' :: text.toList.flatMap escape ++ ['"']

/-- An escape is read as the character that it was written for. -/
theorem scan_escape (c : Char) (token rest : List Char) :
    scan (.quoted token) (escape c ++ rest) = scan (.quoted (c :: token)) rest := by
  unfold escape
  split_ifs with hquote hbackslash hfeed hreturn htab
  · rw [hquote]
    rfl
  · rw [hbackslash]
    rfl
  · rw [hfeed]
    rfl
  · rw [hreturn]
    rfl
  · rw [htab]
    rfl
  · rw [List.singleton_append, scan, if_neg hquote, if_neg hbackslash]

theorem scan_flatMap_escape (text token rest : List Char) :
    scan (.quoted token) (text.flatMap escape ++ '"' :: rest) =
      (scan .between rest).map (String.ofList (token.reverse ++ text) :: ·) := by
  induction text generalizing token with
  | nil => rw [List.flatMap_nil, List.nil_append, scan, if_pos rfl, List.append_nil]
  | cons c cs ih =>
    rw [List.flatMap_cons, List.append_assoc, scan_escape, ih, List.reverse_cons, List.append_assoc,
      List.singleton_append]

theorem scan_quote (text : String) (rest : List Char) :
    scan .between (quote text ++ rest) = (scan .between rest).map (text :: ·) := by
  have hquote : scan .between ('"' :: (text.toList.flatMap escape ++ '"' :: rest)) =
      scan (.quoted []) (text.toList.flatMap escape ++ '"' :: rest) := rfl
  rw [quote, List.cons_append, List.cons_append, List.append_assoc, List.singleton_append, hquote,
    scan_flatMap_escape, List.reverse_nil, List.nil_append, String.ofList_toList]

theorem not_mem_escape (c : Char) : '\n' ∉ escape c := by
  unfold escape
  split_ifs with hquote hbackslash hfeed
  all_goals simp_all [eq_comm]

theorem not_mem_quote (text : String) : '\n' ∉ quote text := by
  have hescaped : '\n' ∉ text.toList.flatMap escape := by
    intro hmem
    obtain ⟨c, -, hc⟩ := List.mem_flatMap.mp hmem
    exact not_mem_escape c hc
  simp [quote, hescaped]

structure Gap where
  text : List Char
  ne_nil : text ≠ []
  separators : ∀ c ∈ text, c = ' ' ∨ c = '\t'

theorem isSeparator_iff (c : Char) : isSeparator c = true ↔ c = ' ' ∨ c = '\t' := by
  simp [isSeparator]

theorem Gap.not_mem_text (gap : Gap) : '\n' ∉ gap.text := by
  intro hmem
  rcases gap.separators _ hmem with heq | heq <;> cases heq

/-- Blanks between two parts are skipped. -/
theorem scan_gap (gap : Gap) (rest : List Char) :
    scan .between (gap.text ++ rest) = scan .between rest := by
  have hskip : ∀ text : List Char, (∀ c ∈ text, c = ' ' ∨ c = '\t') →
      scan .between (text ++ rest) = scan .between rest := by
    intro text htext
    induction text with
    | nil => rfl
    | cons c cs ih =>
      have hseparator := (isSeparator_iff c).mpr (htext c List.mem_cons_self)
      rw [List.cons_append, scan, if_pos hseparator]
      exact ih fun c hmem => htext c (List.mem_cons_of_mem _ hmem)
  exact hskip gap.text gap.separators

structure Mark where
  gap : Gap
  word : String
  known : word = "downloaded" ∨ word = "played" ∨ word = "finished"

namespace Mark

def text (mark : Mark) : List Char :=
  mark.gap.text ++ mark.word.toList

theorem mem_finishedWords (mark : Mark) : mark.word ∈ finishedWords := by
  simp [finishedWords, mark.known]

theorem scan_word (mark : Mark) : scan .between mark.word.toList = .ok [mark.word] := by
  rcases mark.known with hword | hword | hword <;> rw [hword] <;> rfl

theorem not_mem_word (mark : Mark) : '\n' ∉ mark.word.toList := by
  rcases mark.known with hword | hword | hword <;> rw [hword] <;> decide

/-- Each of the words ends with a letter. -/
theorem getLast?_word (mark : Mark) :
    ∃ c, mark.word.toList.getLast? = some c ∧ Text.isBlank c = false := by
  refine ⟨'d', ?_, by decide⟩
  rcases mark.known with hword | hword | hword <;> rw [hword] <;> rfl

end Mark

structure Line where
  url : String
  destination : String
  named : destination ≠ ""
  gap : Gap
  mark : Option Mark

namespace Line

def text (line : Line) : List Char :=
  quote line.url ++ (line.gap.text ++ (quote line.destination ++ line.mark.elim [] Mark.text))

def entry (line : Line) (number : Nat) : Entry where
  line := number
  url := line.url
  destination := ⟨line.destination⟩
  status := line.mark.map fun _ => .finished

theorem not_mem_text (line : Line) : '\n' ∉ line.text := by
  have hmark : '\n' ∉ line.mark.elim [] Mark.text := by
    cases line.mark with
    | none => exact List.not_mem_nil
    | some mark => simp [Mark.text, mark.gap.not_mem_text, mark.not_mem_word]
  simp [text, not_mem_quote, line.gap.not_mem_text, hmark]

/-- The line ends with a character that no trimming takes away. -/
theorem getLast?_text (line : Line) :
    ∃ c, line.text.getLast? = some c ∧ Text.isBlank c = false := by
  have hquote : (quote line.destination).getLast? = some '"' := List.getLast?_concat
  cases hmark : line.mark with
  | none =>
    refine ⟨'"', ?_, by decide⟩
    rw [text, hmark, Option.elim_none, List.append_nil, List.getLast?_append, List.getLast?_append,
      hquote, Option.some_or, Option.some_or]
  | some mark =>
    obtain ⟨c, hword, hblank⟩ := mark.getLast?_word
    refine ⟨c, ?_, hblank⟩
    simp only [text, hmark, Option.elim_some, Mark.text, List.getLast?_append, hword, Option.some_or]

theorem trim_text (line : Line) : Text.trim line.text = line.text := by
  obtain ⟨c, hlast, hblank⟩ := line.getLast?_text
  refine Text.trim_eq_self (fun d hd => ?_) (fun d hd => ?_)
  · cases hd
    decide
  · rw [hlast, Option.mem_some_iff] at hd
    rw [← hd, hblank]

theorem text_ne_nil (line : Line) : line.text ≠ [] :=
  List.cons_ne_nil _ _

theorem dropReturn_text (line : Line) : dropReturn line.text = line.text := by
  obtain ⟨c, hlast, hblank⟩ := line.getLast?_text
  refine if_neg fun hreturn => ?_
  rw [hlast] at hreturn
  cases hreturn
  exact absurd hblank (by decide)

/-- A line falls into its address, its destination and its mark. -/
theorem scan_text (line : Line) :
    scan .between line.text =
      .ok (line.url :: line.destination :: (line.mark.map Mark.word).toList) := by
  have hmark : scan .between (line.mark.elim [] Mark.text) =
      .ok (line.mark.map Mark.word).toList := by
    cases line.mark with
    | none => rfl
    | some mark =>
      rw [Option.elim_some, Mark.text, scan_gap, mark.scan_word]
      rfl
  rw [text, scan_quote, scan_gap, scan_quote, hmark]
  rfl

theorem readLine_text (line : Line) (number : Nat) :
    readLine number line.text = .ok (line.entry number) := by
  have hentry : entryOf number (line.url :: line.destination :: (line.mark.map Mark.word).toList) =
      .ok (line.entry number) := by
    rw [entry]
    cases line.mark with
    | none => exact if_neg line.named
    | some mark => exact (if_neg line.named).trans (if_pos mark.mem_finishedWords)
  rw [readLine, line.trim_text, line.scan_text]
  exact hentry

end Line

inductive Row
  | blank (text : List Char) (hblank : ∀ c ∈ text, Text.isBlank c = true) (hline : '\n' ∉ text)
  | entry (line : Line)

namespace Row

def text : Row → List Char
  | .blank text _ _ => text
  | .entry line => line.text

def entry? (number : Nat) : Row → Option Entry
  | .blank _ _ _ => none
  | .entry line => some (line.entry number)

/-- What the reader may find of a row once the end of the line is off. -/
def Shows : Row → List Char → Prop
  | .blank _ _ _, found => ∀ c ∈ found, Text.isBlank c = true
  | .entry line, found => found = line.text

theorem not_mem_text (row : Row) : '\n' ∉ row.text := by
  cases row with
  | blank text hblank hline => exact hline
  | entry line => exact line.not_mem_text

theorem shows_text (row : Row) : row.Shows row.text := by
  cases row with
  | blank text hblank hline => exact hblank
  | entry line => exact rfl

theorem shows_dropReturn (row : Row) : row.Shows (dropReturn row.text) := by
  cases row with
  | blank text hblank hline => exact fun c hmem => hblank c (mem_of_mem_dropReturn hmem)
  | entry line => exact line.dropReturn_text

/-- Reading a line yields the entry of its row and never a fault. -/
theorem readLines_cons {row : Row} {found : List Char} (h : row.Shows found) (number : Nat)
    (rest : List (List Char)) :
    readLines number (found :: rest) =
      ⟨(row.entry? number).toList ++ (readLines (number + 1) rest).entries,
        (readLines (number + 1) rest).faults⟩ := by
  cases row with
  | blank text hblank hline =>
    rw [readLines, if_pos (Text.trim_eq_nil h)]
    rfl
  | entry line =>
    rw [Shows] at h
    rw [readLines, h, line.trim_text, if_neg line.text_ne_nil, line.readLine_text]
    rfl

end Row

inductive Ending
  | lineFeed
  | returnLineFeed

def Ending.text : Ending → List Char
  | .lineFeed => ['\n']
  | .returnLineFeed => ['\r', '\n']

/-- A whole queue: lines that are ended, and perhaps a last one that is not. -/
structure Sheet where
  ended : List (Row × Ending)
  last : Option Row

namespace Sheet

def text (sheet : Sheet) : List Char :=
  sheet.ended.flatMap (fun line => line.1.text ++ line.2.text) ++
    (sheet.last.map Row.text).getD []

def rows (sheet : Sheet) : List Row :=
  sheet.ended.map Prod.fst ++ sheet.last.toList

end Sheet

def entriesFrom (number : Nat) : List Row → List Entry
  | [] => []
  | row :: rows => (row.entry? number).toList ++ entriesFrom (number + 1) rows

/-- The first line of a text, however it is ended. -/
theorem lines_row (row : Row) (ending : Ending) (rest : List Char) :
    ∃ line, row.Shows line ∧ lines (row.text ++ ending.text ++ rest) = line :: lines rest := by
  cases ending with
  | lineFeed =>
    refine ⟨dropReturn row.text, row.shows_dropReturn, ?_⟩
    rw [Ending.text, List.append_assoc, List.singleton_append, lines_append row.not_mem_text]
  | returnLineFeed =>
    refine ⟨row.text, row.shows_text, ?_⟩
    have hline : '\n' ∉ row.text ++ ['\r'] := by simp [row.not_mem_text]
    have htext : row.text ++ ['\r', '\n'] ++ rest = row.text ++ ['\r'] ++ '\n' :: rest := by simp
    rw [Ending.text, htext, lines_append hline, dropReturn_append]

/-- The last line needs no end. -/
theorem readLines_last (row : Row) (number : Nat) :
    readLines number (lines row.text) = ⟨(row.entry? number).toList, []⟩ := by
  cases row with
  | blank text hblank hline =>
    by_cases hne : text = []
    · subst hne
      rfl
    · rw [Row.text, lines_of_not_mem hline hne]
      exact Row.readLines_cons (Row.shows_text (.blank text hblank hline)) number []
  | entry line =>
    rw [Row.text, lines_of_not_mem line.not_mem_text line.text_ne_nil]
    exact Row.readLines_cons (Row.shows_text (.entry line)) number []

/-- By induction on the lines that are ended, each under its own number. -/
theorem readLines_text (ended : List (Row × Ending)) (last : Option Row) (number : Nat) :
    readLines number (lines (Sheet.mk ended last).text) =
      ⟨entriesFrom number (Sheet.mk ended last).rows, []⟩ := by
  induction ended generalizing number with
  | nil =>
    cases last with
    | none => rfl
    | some row =>
      refine (readLines_last row number).trans ?_
      simp [Sheet.rows, entriesFrom]
  | cons line ended ih =>
    have htext : (Sheet.mk (line :: ended) last).text =
        line.1.text ++ line.2.text ++ (Sheet.mk ended last).text := by
      simp [Sheet.text]
    obtain ⟨first, hshows, hlines⟩ := lines_row line.1 line.2 (Sheet.mk ended last).text
    rw [htext, hlines, Row.readLines_cons hshows, ih]
    rfl

/-- Whatever stands in the fields of the entries, however their parts and lines are kept apart and
whichever blank lines stand between them: a queue that is written is read back entry by entry, each
with the number of its line, and no line of it is at fault. -/
theorem parse_text (sheet : Sheet) :
    parse (String.ofList sheet.text) = ⟨entriesFrom 1 sheet.rows, []⟩ := by
  rw [parse, String.toList_ofList]
  exact readLines_text sheet.ended sheet.last 1

def notes : Sheet where
  ended :=
    [(.entry
        { url := "http://h/a", destination := "a \"b\".mp3", named := by decide
          gap := ⟨[' ', '\t', ' '], by decide, by simp⟩
          mark := some ⟨⟨[' '], by decide, by simp⟩, "played", .inr (.inl rfl)⟩ }, .returnLineFeed),
      (.blank [' '] (List.forall_mem_singleton.mpr (by decide)) (by decide), .lineFeed)]
  last := some <| .entry
    { url := "http://h/c", destination := "c\\\n", named := by decide
      gap := ⟨['\t'], by decide, by simp⟩, mark := none }

theorem parse_text_notes :
    String.ofList notes.text = "\"http://h/a\" \t \"a \\\"b\\\".mp3\" played\r\n \n" ++
      "\"http://h/c\"\t\"c\\\\\\n\"" ∧
    parse (String.ofList notes.text) =
      ⟨[⟨1, "http://h/a", ⟨"a \"b\".mp3"⟩, some .finished⟩,
        ⟨3, "http://h/c", ⟨"c\\\n"⟩, none⟩], []⟩ :=
  ⟨by rfl, parse_text notes⟩

end DownloadQueue.TextQueue
