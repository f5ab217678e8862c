import DownloadQueue.Proofs.TextQueue

/-!
# Texts read line by line

What a line of a plain-text queue yields hangs on that line alone: a quote that stays open ends with
its line, and a line that is at fault is reported without touching the others. So the contents of a
text are those of its lines, one after the other.

Only line feeds separate lines here. A carriage return in front of one is a blank at the end of its
line, which trimming takes away in any case, and the empty piece behind the last line feed is a blank
line.
-/

namespace DownloadQueue.TextQueue

instance : EmptyCollection Contents :=
  ⟨⟨[], []⟩⟩

instance : Append Contents :=
  ⟨fun above below => ⟨above.entries ++ below.entries, above.faults ++ below.faults⟩⟩

def Entry.raise (count : Nat) (entry : Entry) : Entry :=
  { entry with line := entry.line + count }

def LineFault.raise (count : Nat) (fault : LineFault) : LineFault :=
  { fault with line := fault.line + count }

namespace Contents

def raise (count : Nat) (contents : Contents) : Contents :=
  ⟨contents.entries.map (Entry.raise count), contents.faults.map (LineFault.raise count)⟩

def numbers (contents : Contents) : List Nat :=
  contents.entries.map Entry.line ++ contents.faults.map LineFault.line

def select (p : Nat → Prop) [DecidablePred p] (contents : Contents) : Contents :=
  ⟨contents.entries.filter fun entry => p entry.line, contents.faults.filter fun fault => p fault.line⟩

def on (number : Nat) (contents : Contents) : Contents :=
  contents.select (· = number)

def off (number : Nat) (contents : Contents) : Contents :=
  contents.select (· ≠ number)

theorem append_empty (contents : Contents) : contents ++ ∅ = contents :=
  congrArg₂ mk (List.append_nil _) (List.append_nil _)

theorem empty_append (contents : Contents) : ∅ ++ contents = contents :=
  rfl

theorem append_assoc (first second third : Contents) :
    first ++ second ++ third = first ++ (second ++ third) :=
  congrArg₂ mk (List.append_assoc _ _ _) (List.append_assoc _ _ _)

theorem raise_append (count : Nat) (above below : Contents) :
    (above ++ below).raise count = above.raise count ++ below.raise count :=
  congrArg₂ mk List.map_append List.map_append

theorem mem_numbers_append {number : Nat} {above below : Contents} :
    number ∈ (above ++ below).numbers ↔ number ∈ above.numbers ∨ number ∈ below.numbers := by
  have hentries : (above ++ below).entries = above.entries ++ below.entries := rfl
  have hfaults : (above ++ below).faults = above.faults ++ below.faults := rfl
  simp only [numbers, hentries, hfaults, List.map_append, List.mem_append]
  tauto

section Select

variable {p : Nat → Prop} [DecidablePred p] {contents : Contents}

theorem select_append (above below : Contents) :
    (above ++ below).select p = above.select p ++ below.select p :=
  congrArg₂ mk (List.filter_append _ _) (List.filter_append _ _)

theorem select_of_forall (h : ∀ number ∈ contents.numbers, p number) :
    contents.select p = contents := by
  simp only [numbers, List.mem_append, List.mem_map] at h
  refine congrArg₂ mk (List.filter_eq_self.mpr fun entry hmem => ?_)
    (List.filter_eq_self.mpr fun fault hmem => ?_)
  · exact decide_eq_true (h _ (.inl ⟨entry, hmem, rfl⟩))
  · exact decide_eq_true (h _ (.inr ⟨fault, hmem, rfl⟩))

theorem select_of_forall_not (h : ∀ number ∈ contents.numbers, ¬ p number) :
    contents.select p = ∅ := by
  simp only [numbers, List.mem_append, List.mem_map] at h
  refine congrArg₂ mk (List.filter_eq_nil_iff.mpr fun entry hmem => ?_)
    (List.filter_eq_nil_iff.mpr fun fault hmem => ?_)
  · simpa using h _ (.inl ⟨entry, hmem, rfl⟩)
  · simpa using h _ (.inr ⟨fault, hmem, rfl⟩)

end Select

end Contents

/-- The number of a line goes into its entry, and nothing else depends on it. -/
theorem entryOf_eq (number : Nat) (tokens : List String) :
    entryOf number tokens = (entryOf 0 tokens).map fun entry => { entry with line := number } := by
  rcases tokens with - | ⟨url, - | ⟨destination, - | ⟨word, rest⟩⟩⟩
  · rfl
  · rfl
  · simp only [entryOf]
    split_ifs <;> rfl
  · simp only [entryOf]
    split_ifs <;> rfl

theorem readLine_eq (number : Nat) (line : List Char) :
    readLine number line = (readLine 0 line).map fun entry => { entry with line := number } := by
  simp only [readLine]
  cases scan .between (Text.trim line) with
  | error fault => rfl
  | ok tokens => exact entryOf_eq number tokens

theorem line_of_readLine {number : Nat} {line : List Char} {entry : Entry}
    (h : readLine number line = .ok entry) : entry.line = number := by
  rw [readLine_eq] at h
  cases hread : readLine 0 line with
  | error fault =>
    rw [hread] at h
    cases h
  | ok first =>
    rw [hread] at h
    cases h
    rfl

theorem map_cons_ne_nil (token : String) (tokens : Except Fault (List String)) :
    tokens.map (token :: ·) ≠ .ok [] := by
  cases tokens <;> simp [Except.map]

theorem map_cons_eq_error {token : String} {tokens : Except Fault (List String)} {fault : Fault} :
    tokens.map (token :: ·) = .error fault ↔ tokens = .error fault := by
  cases tokens <;> simp [Except.map]

/-- A token that has begun is finished, or it is at fault. -/
theorem scan_ne_nil {mode : Mode} (h : mode ≠ .between) (text : List Char) :
    scan mode text ≠ .ok [] := by
  fun_induction scan mode text <;> simp_all [map_cons_ne_nil]

theorem scan_ne_emptyLine (mode : Mode) (text : List Char) : scan mode text ≠ .error .emptyLine := by
  fun_induction scan mode text <;> simp_all [map_cons_eq_error]

theorem isBlank_of_isSeparator {c : Char} (h : isSeparator c = true) : Text.isBlank c = true := by
  rcases (isSeparator_iff c).mp h with rfl | rfl <;> decide

/-- A line that is not blank has a first token. -/
theorem scan_trim_ne_nil {line : List Char} (h : Text.trim line ≠ []) :
    scan .between (Text.trim line) ≠ .ok [] := by
  obtain ⟨c, cs, htrim⟩ := List.exists_cons_of_ne_nil h
  -- Separators are blanks, so none is left in front, and a token begins with the first character.
  have hseparator : ¬ isSeparator c = true := by
    intro hc
    have hblank := Text.isBlank_head_of_trim htrim
    rw [isBlank_of_isSeparator hc] at hblank
    cases hblank
  rw [htrim, scan, if_neg hseparator]
  split
  · exact scan_ne_nil (by simp) cs
  · exact scan_ne_nil (by simp) cs

theorem entryOf_ne_emptyLine (number : Nat) {tokens : List String} (h : tokens ≠ []) :
    entryOf number tokens ≠ .error .emptyLine := by
  fun_cases entryOf number tokens <;> simp_all

/-- No line that is not blank is reported as empty. -/
theorem readLine_ne_emptyLine {line : List Char} (h : Text.trim line ≠ []) (number : Nat) :
    readLine number line ≠ .error .emptyLine := by
  have hempty := scan_ne_emptyLine .between (Text.trim line)
  have hnil := scan_trim_ne_nil h
  rw [readLine]
  cases hscan : scan .between (Text.trim line) with
  | error fault =>
    rw [hscan] at hempty
    exact fun hread => hempty (by cases hread; rfl)
  | ok tokens =>
    rw [hscan] at hnil
    exact entryOf_ne_emptyLine number fun htokens => hnil (congrArg Except.ok htokens)

theorem readLines_cons (number : Nat) (line : List Char) (below : List (List Char)) :
    readLines number (line :: below) =
      readLines number [line] ++ readLines (number + 1) below := by
  simp only [readLines]
  split
  · rfl
  · split <;> rfl

theorem readLines_append (number : Nat) (above below : List (List Char)) :
    readLines number (above ++ below) =
      readLines number above ++ readLines (number + above.length) below := by
  induction above generalizing number with
  | nil => rfl
  | cons line above ih =>
    rw [List.cons_append, readLines_cons, ih, readLines_cons number line above,
      Contents.append_assoc, List.length_cons, Nat.add_right_comm, Nat.add_assoc]

theorem readLines_of_blank {line : List Char} (h : Text.trim line = []) (number : Nat) :
    readLines number [line] = ∅ :=
  if_pos h

/-- A line that is not blank makes one entry or one fault. -/
theorem readLines_of_not_blank {line : List Char} (h : Text.trim line ≠ []) (number : Nat) :
    (∃ entry, entry.line = number ∧ readLines number [line] = ⟨[entry], []⟩) ∨
      ∃ fault, fault ≠ .emptyLine ∧ readLines number [line] = ⟨[], [⟨number, fault⟩]⟩ := by
  simp only [readLines, if_neg h]
  cases hread : readLine number line with
  | ok entry => exact .inl ⟨entry, line_of_readLine hread, rfl⟩
  | error fault =>
    refine .inr ⟨fault, ?_, rfl⟩
    rintro rfl
    exact readLine_ne_emptyLine h number hread

/-- Lines that stand further down yield the same with greater numbers. -/
theorem readLines_add (number count : Nat) (lines : List (List Char)) :
    readLines (number + count) lines = (readLines number lines).raise count := by
  induction lines generalizing number with
  | nil => rfl
  | cons line lines ih =>
    have hline : readLines (number + count) [line] = (readLines number [line]).raise count := by
      simp only [readLines]
      split
      · rfl
      · rw [readLine_eq (number + count), readLine_eq number]
        cases readLine 0 line <;> rfl
    rw [readLines_cons, readLines_cons number, Contents.raise_append, hline, Nat.add_right_comm, ih]

/-- Nothing is reported of lines that are not there. -/
theorem bounds_of_mem_numbers {number start : Nat} {lines : List (List Char)}
    (h : number ∈ (readLines start lines).numbers) :
    start ≤ number ∧ number < start + lines.length := by
  induction lines generalizing start with
  | nil => cases h
  | cons line lines ih =>
    rw [readLines_cons, Contents.mem_numbers_append] at h
    rcases h with hline | hbelow
    -- What the first line yields bears its number.
    · have hnumber : number = start := by
        by_cases hblank : Text.trim line = []
        · rw [readLines_of_blank hblank] at hline
          cases hline
        · obtain ⟨entry, hentry, heq⟩ | ⟨fault, -, heq⟩ := readLines_of_not_blank hblank start
          all_goals
            rw [heq] at hline
            simp_all [Contents.numbers]
      rw [List.length_cons]
      omega
    · have hbounds := ih hbelow
      rw [List.length_cons]
      omega

theorem trim_dropReturn (line : List Char) : Text.trim (dropReturn line) = Text.trim line := by
  rw [dropReturn]
  split
  · next hreturn =>
    obtain ⟨front, rfl⟩ := List.getLast?_eq_some_iff.mp hreturn
    rw [List.dropLast_concat, Text.trim_concat (by decide)]
  · rfl

theorem readLines_map_dropReturn (number : Nat) (pieces : List (List Char)) :
    readLines number (pieces.map dropReturn) = readLines number pieces := by
  induction pieces generalizing number with
  | nil => rfl
  | cons piece pieces ih => simp only [List.map_cons, readLines, readLine, trim_dropReturn, ih]

/-- Neither the carriage returns at the ends of lines nor the end of the text make a difference. -/
theorem readLines_lines (number : Nat) (text : List Char) :
    readLines number (lines text) = readLines number (splitLines text) := by
  obtain ⟨front, last, hsplit⟩ :=
    (List.eq_nil_or_concat' (splitLines text)).resolve_left (splitLines_ne_nil text)
  have hlast : ∀ number, readLines number ([last].filter fun piece => piece ≠ []) =
      readLines number [last] := by
    intro number
    by_cases hempty : last = []
    · rw [hempty]
      rfl
    · simp [hempty]
  simp only [lines, hsplit, List.dropLast_concat, List.getLast?_concat, Option.toList_some]
  rw [readLines_append, readLines_append, readLines_map_dropReturn, List.length_map, hlast]

theorem parse_eq (text : String) : parse text = readLines 1 (splitLines text.toList) :=
  readLines_lines 1 text.toList

def lineFeeds (text : String) : Nat :=
  text.toList.count '\n'

theorem toList_lineFeed (above below : String) :
    (above ++ "\n" ++ below).toList = above.toList ++ '\n' :: below.toList := by
  simp

/-- The contents of two texts with a line feed between them. -/
theorem parse_append (above below : String) :
    parse (above ++ "\n" ++ below) = parse above ++ (parse below).raise (lineFeeds above + 1) := by
  calc parse (above ++ "\n" ++ below)
      = readLines 1 (splitLines above.toList ++ splitLines below.toList) := by
        rw [parse_eq, toList_lineFeed, splitLines_append]
    _ = readLines 1 (splitLines above.toList) ++
          readLines (1 + (lineFeeds above + 1)) (splitLines below.toList) := by
        rw [readLines_append, length_splitLines, lineFeeds]
    _ = parse above ++ (parse below).raise (lineFeeds above + 1) := by
        rw [readLines_add, parse_eq, parse_eq]

/-- A line feed at the end of a text makes no difference. -/
theorem parse_append_lineFeed (text : String) : parse (text ++ "\n") = parse text := by
  have h := parse_append text ""
  rw [String.append_empty] at h
  exact h.trans (Contents.append_empty _)

structure OneLine where
  text : String
  single : '\n' ∉ text.toList

/-- A line of a text with all that stands above it and below it. -/
structure Place where
  above : Option String
  line : OneLine
  below : Option String

namespace Place

def text (place : Place) : String :=
  place.above.elim "" (· ++ "\n") ++ place.line.text ++ place.below.elim "" ("\n" ++ ·)

def height (place : Place) : Nat :=
  place.above.elim 0 fun above => lineFeeds above + 1

def number (place : Place) : Nat :=
  place.height + 1

/-- The line is read as if it stood alone: what it yields hangs on no other line, and no other line
hangs on it. -/
structure Insulated (place : Place) : Prop where
  alone : (parse place.text).on place.number = (parse place.line.text).raise place.height
  blank : Text.trim place.line.text.toList = [] → (parse place.text).on place.number = ∅
  either : Text.trim place.line.text.toList ≠ [] →
    (∃ entry, entry.line = place.number ∧ (parse place.text).on place.number = ⟨[entry], []⟩) ∨
      ∃ fault, fault ≠ .emptyLine ∧
        (parse place.text).on place.number = ⟨[], [⟨place.number, fault⟩]⟩
  /-- With another line in its place all other lines yield what they did. -/
  elsewhere : ∀ other : OneLine, (parse { place with line := other }.text).off place.number =
    (parse place.text).off place.number

variable (place : Place)

def ahead : List (List Char) :=
  place.above.elim [] fun above => splitLines above.toList

def behind : List (List Char) :=
  place.below.elim [] fun below => splitLines below.toList

theorem length_ahead : place.ahead.length = place.height := by
  rw [ahead, height]
  cases place.above with
  | none => rfl
  | some above => exact length_splitLines above.toList

theorem splitLines_text :
    splitLines place.text.toList = place.ahead ++ place.line.text.toList :: place.behind := by
  obtain ⟨above, line, below⟩ := place
  have hline := splitLines_of_not_mem line.single
  cases above <;> cases below <;>
    simp [text, ahead, behind, splitLines_append, hline]

theorem parse_eq_append :
    parse place.text = readLines 1 place.ahead ++ readLines place.number [place.line.text.toList] ++
      readLines (place.number + 1) place.behind := by
  rw [parse_eq, splitLines_text, readLines_append, length_ahead, Nat.add_comm 1, readLines_cons,
    Contents.append_assoc]
  rfl

theorem lt_of_mem_ahead {number : Nat} (h : number ∈ (readLines 1 place.ahead).numbers) :
    number < place.number := by
  have hbounds := bounds_of_mem_numbers h
  rw [length_ahead] at hbounds
  rw [Place.number]
  omega

theorem eq_of_mem_line {number : Nat} {line : List Char}
    (h : number ∈ (readLines place.number [line]).numbers) : number = place.number := by
  have hbounds := bounds_of_mem_numbers h
  rw [List.length_singleton] at hbounds
  omega

theorem lt_of_mem_behind {number : Nat}
    (h : number ∈ (readLines (place.number + 1) place.behind).numbers) : place.number < number :=
  (bounds_of_mem_numbers h).1

/-- What is reported of the line. -/
theorem on_number :
    (parse place.text).on place.number = readLines place.number [place.line.text.toList] := by
  rw [Contents.on, parse_eq_append, Contents.select_append, Contents.select_append,
    Contents.select_of_forall_not fun number hmem => (place.lt_of_mem_ahead hmem).ne,
    Contents.select_of_forall fun number hmem => place.eq_of_mem_line hmem,
    Contents.select_of_forall_not fun number hmem => (place.lt_of_mem_behind hmem).ne',
    Contents.empty_append, Contents.append_empty]

/-- What is reported of all other lines. -/
theorem off_number :
    (parse place.text).off place.number =
      readLines 1 place.ahead ++ readLines (place.number + 1) place.behind := by
  rw [Contents.off, parse_eq_append, Contents.select_append, Contents.select_append,
    Contents.select_of_forall fun number hmem => (place.lt_of_mem_ahead hmem).ne,
    Contents.select_of_forall_not fun number hmem hne => hne (place.eq_of_mem_line hmem),
    Contents.select_of_forall fun number hmem => (place.lt_of_mem_behind hmem).ne',
    Contents.append_empty]

/-- Every line is read on its own, and wherever it stands. -/
theorem insulated : place.Insulated where
  alone := by
    rw [on_number, parse_eq, splitLines_of_not_mem place.line.single, Place.number,
      Nat.add_comm place.height, readLines_add]
  blank h := by
    rw [on_number, readLines_of_blank h]
  either h := by
    rw [on_number]
    exact readLines_of_not_blank h place.number
  elsewhere other := by
    have hother := off_number { place with line := other }
    rw [off_number]
    exact hother

def under (line : OneLine) : Place :=
  { place with above := some (line.text ++ place.above.elim "" ("\n" ++ ·)) }

theorem text_under (line : OneLine) : (place.under line).text = line.text ++ "\n" ++ place.text := by
  obtain ⟨above, current, below⟩ := place
  cases above <;> simp [text, under, String.append_assoc]

theorem height_under (line : OneLine) : (place.under line).height = place.height + 1 := by
  have hline := List.count_eq_zero.mpr line.single
  obtain ⟨above, current, below⟩ := place
  cases above <;> simp [height, under, lineFeeds, hline]

end Place

/-- Every text has a first line. -/
theorem exists_top (text : String) :
    ∃ (line : OneLine) (below : Option String), (Place.mk none line below).text = text := by
  by_cases hfeed : '\n' ∈ text.toList
  · obtain ⟨line, below, htext, hline⟩ := List.eq_append_cons_of_mem hfeed
    refine ⟨⟨String.ofList line, by rwa [String.toList_ofList]⟩, some (String.ofList below), ?_⟩
    apply String.toList_injective
    simp [Place.text, htext]
  · exact ⟨⟨text, hfeed⟩, none, by simp [Place.text]⟩

/-- Every line of a text has its place. -/
theorem exists_place (text : String) (height : Nat) (h : height ≤ lineFeeds text) :
    ∃ place : Place, place.text = text ∧ place.height = height := by
  induction height generalizing text with
  | zero =>
    obtain ⟨line, below, htext⟩ := exists_top text
    exact ⟨⟨none, line, below⟩, htext, rfl⟩
  | succ height ih =>
    obtain ⟨line, below, rfl⟩ := exists_top text
    have hline := List.count_eq_zero.mpr line.single
    cases below with
    | none => simp [Place.text, lineFeeds, hline] at h
    | some below =>
      obtain ⟨place, rfl, rfl⟩ := ih below (by simpa [Place.text, lineFeeds, hline] using h)
      refine ⟨place.under line, ?_, place.height_under line⟩
      rw [place.text_under]
      simp [Place.text, String.append_assoc]

/-- A text is read line by line. Behind a line feed the contents of what follows are those that it has
as a text of its own, with numbers raised by the lines in front of it. Each line yields one entry or
one fault unless it is blank, whatever stands above and below it, and what stands on it, a quote that
stays open included, makes no difference to what the others yield. Every line of a text has such a
place in it, and nothing is reported of lines that are not there. -/
theorem parse_line_by_line :
    (∀ above below : String, parse (above ++ "\n" ++ below) =
        parse (above ++ "\n") ++ (parse below).raise (lineFeeds above + 1)) ∧
      (∀ place : Place, place.Insulated) ∧
        ∀ text : String,
          (∀ height ≤ lineFeeds text, ∃ place : Place, place.text = text ∧ place.height = height) ∧
            ∀ number ∈ (parse text).numbers, 1 ≤ number ∧ number ≤ lineFeeds text + 1 := by
  refine ⟨fun above below => ?_, Place.insulated, fun text => ⟨exists_place text, ?_⟩⟩
  · rw [parse_append, parse_append_lineFeed]
  · intro number hmem
    rw [parse_eq] at hmem
    have hbounds := bounds_of_mem_numbers hmem
    rw [length_splitLines] at hbounds
    rw [lineFeeds]
    omega

def openQuote : Place :=
  ⟨none, ⟨"h/a \"b", by decide⟩, some "\u2003\r\nh/d /d"⟩

def emSpace : Place :=
  ⟨some "h/a \"b", ⟨"\u2003\r", by decide⟩, some "h/d /d"⟩

/-- An open quote spoils its own line only, and a line of blanks beneath is passed over. -/
theorem parse_line_by_line_openQuote :
    parse openQuote.text = ⟨[⟨3, "h/d", ⟨"/d"⟩, none⟩], [⟨1, .unterminatedQuote⟩]⟩ ∧
      (Text.trim openQuote.line.text.toList ≠ [] ∧
        ((∃ entry, entry.line = 1 ∧ (parse openQuote.text).on 1 = ⟨[entry], []⟩) ∨
          ∃ fault, fault ≠ .emptyLine ∧ (parse openQuote.text).on 1 = ⟨[], [⟨1, fault⟩]⟩)) ∧
      (emSpace.text = openQuote.text ∧ Text.trim emSpace.line.text.toList = [] ∧
        (parse emSpace.text).on 2 = ∅) ∧
      (2 ≤ lineFeeds openQuote.text ∧
        ∃ place : Place, place.text = openQuote.text ∧ place.height = 2) ∧
      3 ∈ (parse openQuote.text).numbers ∧ 1 ≤ 3 ∧ 3 ≤ lineFeeds openQuote.text + 1 := by
  have hparse : parse openQuote.text =
      ⟨[⟨3, "h/d", ⟨"/d"⟩, none⟩], [⟨1, .unterminatedQuote⟩]⟩ := rfl
  have hfilled : Text.trim openQuote.line.text.toList ≠ [] := by decide
  have hblank : Text.trim emSpace.line.text.toList = [] := by decide
  have hfeeds : 2 ≤ lineFeeds openQuote.text := by decide
  have hmem : 3 ∈ (parse openQuote.text).numbers := by
    rw [hparse]
    decide
  obtain ⟨-, hplaces, hlines⟩ := parse_line_by_line
  exact ⟨hparse, ⟨hfilled, (hplaces openQuote).either hfilled⟩,
    ⟨rfl, hblank, (hplaces emSpace).blank hblank⟩, ⟨hfeeds, (hlines _).1 2 hfeeds⟩,
    hmem, (hlines _).2 3 hmem⟩

end DownloadQueue.TextQueue
