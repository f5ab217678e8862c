import DownloadQueue.Proofs.QueueFile

/-!
# Documents that break off

A reader of JSON that has stopped before the end of its bytes stops there also if more bytes follow.
Only a number ends where the bytes end; every other value has a mark at its end. So if some beginning
of an object were a document, the object would end there, and no strict beginning of a saved queue is
read as a queue, wherever it was cut.
-/

namespace DownloadQueue

namespace Json

variable {bytes rest more : List UInt8}

theorem skipBlank_append (h : skipBlank bytes ≠ []) (more : List UInt8) :
    skipBlank (bytes ++ more) = skipBlank bytes ++ more := by
  induction bytes with
  | nil => exact absurd rfl h
  | cons b bytes ih =>
    rw [List.cons_append]
    by_cases hblank : isBlankByte b = true
    · have hskip (left : List UInt8) : skipBlank (b :: left) = skipBlank left :=
        List.dropWhile_cons_of_pos hblank
      rw [hskip] at h
      rw [hskip, hskip, ih h]
    · rw [skipBlank_cons (Bool.eq_false_iff.mpr hblank),
        skipBlank_cons (Bool.eq_false_iff.mpr hblank), List.cons_append]

theorem readMark_eq_some_iff {c : Char} :
    readMark c bytes = some rest ↔ skipBlank bytes = c.toUInt8 :: rest := by
  rw [readMark]
  split
  · next b left hskip =>
    rw [hskip]
    split
    · next heq => simp [heq]
    · next hne => simp [hne]
  · next hskip => simp [hskip]

theorem skipBlank_ne_nil_of_readMark {c : Char} (h : readMark c bytes = some rest) :
    skipBlank bytes ≠ [] := by
  rw [readMark_eq_some_iff.mp h]
  exact List.cons_ne_nil _ _

theorem readMark_append {c : Char} (h : readMark c bytes = some rest) (more : List UInt8) :
    readMark c (bytes ++ more) = some (rest ++ more) := by
  rw [readMark_eq_some_iff, skipBlank_append (skipBlank_ne_nil_of_readMark h),
    readMark_eq_some_iff.mp h, List.cons_append]

/-- A mark that is not next is not next either if more bytes follow. -/
theorem readMark_append_of_none {c : Char} (h : readMark c bytes = none)
    (hsome : skipBlank bytes ≠ []) (more : List UInt8) : readMark c (bytes ++ more) = none := by
  obtain ⟨b, left, hskip⟩ := List.exists_cons_of_ne_nil hsome
  rw [Option.eq_none_iff_forall_ne_some]
  intro after hafter
  rw [readMark_eq_some_iff, skipBlank_append hsome, hskip, List.cons_append] at hafter
  have hread : readMark c bytes = some left :=
    readMark_eq_some_iff.mpr ((List.cons.inj hafter).1 ▸ hskip)
  rw [h] at hread
  cases hread

theorem readWord_append {word : String} {value read : Json}
    (h : readWord word value bytes = some (read, rest)) (more : List UInt8) :
    readWord word value (bytes ++ more) = some (read, rest ++ more) := by
  rw [readWord] at h ⊢
  split at h
  · next hprefix =>
    cases h
    obtain ⟨after, rfl⟩ := List.isPrefixOf_iff_prefix.mp hprefix
    rw [if_pos, List.append_assoc, List.drop_left, List.drop_left]
    rw [List.isPrefixOf_iff_prefix, List.append_assoc]
    exact List.prefix_append _ _
  · cases h

/-- A string ends with its quote, so what follows does not matter. -/
theorem readPieces_append {pieces : List Piece} (h : readPieces bytes = some (pieces, rest))
    (more : List UInt8) : readPieces (bytes ++ more) = some (pieces, rest ++ more) := by
  fun_induction readPieces bytes generalizing pieces rest with
  | case2 left =>
    cases h
    rw [List.cons_append, readPieces.eq_def]
    simp only [if_true]
  | case4 h₁ h₂ h₃ h₄ left u pieces after hread hunit hquote ih =>
    cases h
    rw [List.cons_append, readPieces.eq_def]
    simp only [hquote, if_false, if_true, List.cons_append, hunit, ih hread]
  | case7 e left hletter u pieces after hread hunit hquote ih =>
    cases h
    exact readPieces_shortEscape hunit (ih hread)
  | case10 b left hquote hslash hcontrol pieces after hread ih =>
    cases h
    rw [List.cons_append, readPieces.eq_def]
    simp only [hquote, hslash, hcontrol, if_false, ih hread]
  | case1 | case3 | case5 | case6 | case8 | case9 | case11 => cases h

theorem readString_append {text : Option String} (h : readString bytes = some (text, rest))
    (more : List UInt8) : readString (bytes ++ more) = some (text, rest ++ more) := by
  obtain ⟨⟨pieces, left⟩, hread, heq⟩ := Option.map_eq_some_iff.mp h
  cases heq
  rw [readString, readPieces_append hread]
  rfl

/-- Digits end before the end of the bytes, or more of them may follow. -/
theorem readDigits_append {ds : List Nat} (h : readDigits bytes = (ds, rest)) (hrest : rest ≠ [])
    (more : List UInt8) : readDigits (bytes ++ more) = (ds, rest ++ more) := by
  induction bytes generalizing ds with
  | nil =>
    cases h
    exact absurd rfl hrest
  | cons b bytes ih =>
    rw [readDigits] at h
    rw [List.cons_append, readDigits]
    cases hdigit : digit? b with
    | none =>
      rw [hdigit] at h
      cases h
      rfl
    | some d =>
      rw [hdigit] at h
      cases hread : readDigits bytes with
      | mk others left =>
        rw [hread] at h
        cases h
        simp only [ih hread]

theorem readWhole_append {ds : List Nat} (h : readWhole bytes = some (ds, rest)) (hrest : rest ≠ [])
    (more : List UInt8) : readWhole (bytes ++ more) = some (ds, rest ++ more) := by
  rw [readWhole] at h ⊢
  rcases hread : readDigits bytes with ⟨whole, left⟩
  rw [hread] at h
  cases whole with
  | nil => cases h
  | cons n others =>
    cases n with
    | zero =>
      -- A zero that leads is the whole number.
      cases others with
      | nil =>
        cases h
        rw [readDigits_append hread hrest]
        rfl
      | cons => cases h
    | succ n =>
      cases h
      rw [readDigits_append hread hrest]
      rfl

theorem readFraction_append {ds : List Nat} (h : readFraction bytes = some (ds, rest))
    (hrest : rest ≠ []) (more : List UInt8) :
    readFraction (bytes ++ more) = some (ds, rest ++ more) := by
  cases bytes with
  | nil =>
    cases h
    exact absurd rfl hrest
  | cons b bytes =>
    rw [readFraction] at h
    rw [List.cons_append, readFraction]
    split at h
    · next hpoint =>
      rw [if_pos hpoint]
      cases hread : readDigits bytes with
      | mk fraction left =>
        rw [hread] at h
        cases fraction with
        | nil => cases h
        | cons d others =>
          cases h
          rw [readDigits_append hread hrest]
    · next hpoint =>
      rw [if_neg hpoint]
      cases h
      rfl

theorem readExponentSign_append (h : bytes ≠ []) (more : List UInt8) :
    readExponentSign (bytes ++ more) =
      ((readExponentSign bytes).1, (readExponentSign bytes).2 ++ more) := by
  cases bytes with
  | nil => exact absurd rfl h
  | cons b bytes =>
    rw [List.cons_append, readExponentSign, readExponentSign]
    split
    · rfl
    · split <;> rfl

theorem readExponent_append {exponent : Option (Bool × List Nat)}
    (h : readExponent bytes = some (exponent, rest)) (hrest : rest ≠ []) (more : List UInt8) :
    readExponent (bytes ++ more) = some (exponent, rest ++ more) := by
  cases bytes with
  | nil =>
    cases h
    exact absurd rfl hrest
  | cons b bytes =>
    rw [readExponent] at h
    rw [List.cons_append, readExponent]
    split at h
    · next hletter =>
      rw [if_pos hletter]
      dsimp only at h ⊢
      cases hread : readDigits (readExponentSign bytes).2 with
      | mk ds left =>
        rw [hread] at h
        cases ds with
        | nil => cases h
        | cons d others =>
          cases h
          have hsome : bytes ≠ [] := by
            rintro rfl
            cases hread
          rw [readExponentSign_append hsome, readDigits_append hread hrest]
    · next hletter =>
      rw [if_neg hletter]
      cases h
      rfl

theorem readUnsigned_append {negative : Bool} {numeral : Numeral}
    (h : readUnsigned negative bytes = some (numeral, rest)) (hrest : rest ≠ [])
    (more : List UInt8) : readUnsigned negative (bytes ++ more) = some (numeral, rest ++ more) := by
  obtain ⟨⟨whole, afterWhole⟩, hwhole, h⟩ := Option.bind_eq_some_iff.mp h
  obtain ⟨⟨fraction, afterFraction⟩, hfraction, h⟩ := Option.bind_eq_some_iff.mp h
  obtain ⟨⟨exponent, left⟩, hexponent, h⟩ := Option.bind_eq_some_iff.mp h
  cases h
  -- none of the parts has used up the bytes, as the last one has left some
  have hafterFraction : afterFraction ≠ [] := by
    rintro rfl
    cases hexponent
    exact hrest rfl
  have hafterWhole : afterWhole ≠ [] := by
    rintro rfl
    cases hfraction
    exact hafterFraction rfl
  rw [readUnsigned, readWhole_append hwhole hafterWhole]
  simp only [Option.bind_eq_bind, Option.bind_some, readFraction_append hfraction hafterFraction,
    readExponent_append hexponent hrest, Option.pure_def]

/-- A number goes on for as long as it can; if something is left behind it, more bytes do not
matter. -/
theorem readNumeral_append {numeral : Numeral} (h : readNumeral bytes = some (numeral, rest))
    (hrest : rest ≠ []) (more : List UInt8) :
    readNumeral (bytes ++ more) = some (numeral, rest ++ more) := by
  cases bytes with
  | nil => cases h
  | cons b bytes =>
    rw [readNumeral] at h
    rw [List.cons_append, readNumeral]
    split at h
    · next hminus => rw [if_pos hminus, readUnsigned_append h hrest]
    · next hminus =>
      rw [if_neg hminus]
      exact readUnsigned_append h hrest more

/-- What is read with this much fuel is read with more fuel and more bytes as well. A value that is a
number has to end before the bytes do; everything else has an end of its own. -/
structure Extends (fuel : Nat) : Prop where
  value : ∀ {larger : Nat} {bytes rest : List UInt8} {value : Json} (more : List UInt8),
    fuel ≤ larger → readValue fuel bytes = some (value, rest) →
    (rest = [] → ∀ numeral, value ≠ .number numeral) →
    readValue larger (bytes ++ more) = some (value, rest ++ more)
  elements : ∀ {larger : Nat} {bytes rest : List UInt8} {values : List Json} (more : List UInt8),
    fuel ≤ larger → readElements fuel bytes = some (values, rest) →
    readElements larger (bytes ++ more) = some (values, rest ++ more)
  members : ∀ {larger : Nat} {bytes rest : List UInt8} {members : List (Option String × Json)}
    (more : List UInt8), fuel ≤ larger → readMembers fuel bytes = some (members, rest) →
    readMembers larger (bytes ++ more) = some (members, rest ++ more)

variable {fuel larger : Nat}

theorem skipBlank_ne_nil_of_readValue {value : Json} (h : readValue fuel bytes = some (value, rest)) :
    skipBlank bytes ≠ [] := by
  intro hskip
  cases fuel with
  | zero =>
    rw [readValue] at h
    cases h
  | succ fuel =>
    rw [readValue, hskip] at h
    cases h

theorem skipBlank_ne_nil_of_readElements {values : List Json}
    (h : readElements fuel bytes = some (values, rest)) : skipBlank bytes ≠ [] := by
  cases fuel with
  | zero =>
    rw [readElements] at h
    cases h
  | succ fuel =>
    rw [readElements] at h
    split at h
    · cases h
    · next hvalue => exact skipBlank_ne_nil_of_readValue hvalue

theorem skipBlank_ne_nil_of_readMembers {members : List (Option String × Json)}
    (h : readMembers fuel bytes = some (members, rest)) : skipBlank bytes ≠ [] := by
  cases fuel with
  | zero =>
    rw [readMembers] at h
    cases h
  | succ fuel =>
    rw [readMembers] at h
    split at h
    · cases h
    · next hquote => exact skipBlank_ne_nil_of_readMark hquote

/-- A value that was followed by a mark did not use up the bytes. -/
theorem Extends.before_mark (h : Extends fuel) {value : Json} {left : List UInt8}
    (hlarger : fuel ≤ larger) (hread : readValue fuel bytes = some (value, left))
    (hmark : skipBlank left ≠ []) (more : List UInt8) :
    readValue larger (bytes ++ more) = some (value, left ++ more) := by
  apply h.value more hlarger hread
  rintro rfl
  exact absurd rfl hmark

/-- The step for the elements of an array; the bracket at the end stands behind every number. -/
theorem Extends.elements_succ (h : Extends fuel) {values : List Json} (more : List UInt8)
    (hlarger : fuel ≤ larger) (hread : readElements (fuel + 1) bytes = some (values, rest)) :
    readElements (larger + 1) (bytes ++ more) = some (values, rest ++ more) := by
  rw [readElements] at hread ⊢
  split at hread
  · cases hread
  · next value left hvalue =>
    split at hread
    · next after hclose =>
      cases hread
      rw [h.before_mark hlarger hvalue (skipBlank_ne_nil_of_readMark hclose)]
      simp only [readMark_append hclose]
    · next hclose =>
      split at hread
      · cases hread
      · next after hcomma =>
        obtain ⟨⟨others, last⟩, hothers, heq⟩ := Option.map_eq_some_iff.mp hread
        cases heq
        have hsome := skipBlank_ne_nil_of_readMark hcomma
        rw [h.before_mark hlarger hvalue hsome]
        simp only [readMark_append_of_none hclose hsome, readMark_append hcomma,
          h.elements more hlarger hothers, Option.map_some]

/-- The step for the members of an object. -/
theorem Extends.members_succ (h : Extends fuel) {members : List (Option String × Json)}
    (more : List UInt8) (hlarger : fuel ≤ larger)
    (hread : readMembers (fuel + 1) bytes = some (members, rest)) :
    readMembers (larger + 1) (bytes ++ more) = some (members, rest ++ more) := by
  rw [readMembers] at hread ⊢
  split at hread
  · cases hread
  · next afterQuote hquote =>
    rw [readMark_append hquote]
    dsimp only
    split at hread
    · cases hread
    · next key afterKey hkey =>
      rw [readString_append hkey]
      dsimp only
      split at hread
      · cases hread
      · next afterColon hcolon =>
        rw [readMark_append hcolon]
        dsimp only
        split at hread
        · cases hread
        · next value left hvalue =>
          split at hread
          · next after hclose =>
            cases hread
            rw [h.before_mark hlarger hvalue (skipBlank_ne_nil_of_readMark hclose)]
            simp only [readMark_append hclose]
          · next hclose =>
            split at hread
            · cases hread
            · next after hcomma =>
              obtain ⟨⟨others, last⟩, hothers, heq⟩ := Option.map_eq_some_iff.mp hread
              cases heq
              have hsome := skipBlank_ne_nil_of_readMark hcomma
              rw [h.before_mark hlarger hvalue hsome]
              simp only [readMark_append_of_none hclose hsome, readMark_append hcomma,
                h.members more hlarger hothers, Option.map_some]

/-- Behind an opening bracket comes the closing one, or what stands between them. -/
theorem bracketed_append {α : Type} {c : Char} {left : List UInt8} {value empty : Json}
    {make : α → Json} {read readLarger : List UInt8 → Option (α × List UInt8)}
    (hsome : ∀ {content rest}, read left = some (content, rest) → skipBlank left ≠ [])
    (happend : ∀ {content rest}, read left = some (content, rest) →
      readLarger (left ++ more) = some (content, rest ++ more))
    (h : (match readMark c left with
      | some rest => some (empty, rest)
      | none => (read left).map fun (content, rest) => (make content, rest)) = some (value, rest)) :
    (match readMark c (left ++ more) with
      | some rest => some (empty, rest)
      | none => (readLarger (left ++ more)).map fun (content, rest) => (make content, rest)) =
        some (value, rest ++ more) := by
  split at h
  · next after hclose =>
    cases h
    rw [readMark_append hclose]
  · next hclose =>
    obtain ⟨⟨content, last⟩, hcontent, heq⟩ := Option.map_eq_some_iff.mp h
    cases heq
    rw [readMark_append_of_none hclose (hsome hcontent)]
    simp only [happend hcontent, Option.map_some]

/-- The step for a value: only a number can be cut short without a trace. -/
theorem Extends.value_succ (h : Extends fuel) {value : Json} (more : List UInt8)
    (hlarger : fuel ≤ larger) (hread : readValue (fuel + 1) bytes = some (value, rest))
    (hend : rest = [] → ∀ numeral, value ≠ .number numeral) :
    readValue (larger + 1) (bytes ++ more) = some (value, rest ++ more) := by
  have hskip := skipBlank_append (skipBlank_ne_nil_of_readValue hread) more
  rw [readValue] at hread ⊢
  rw [hskip]
  split at hread
  · cases hread
  · next b left hbytes =>
    rw [hbytes]
    -- the first byte decides who reads on; only a number, the last case, has no end of its own
    simp only [List.cons_append]
    split at hread
    · next hbrace =>
      rw [if_pos hbrace]
      exact bracketed_append skipBlank_ne_nil_of_readMembers (h.members more hlarger) hread
    next hbrace =>
    rw [if_neg hbrace]
    split at hread
    · next hbracket =>
      rw [if_pos hbracket]
      exact bracketed_append skipBlank_ne_nil_of_readElements (h.elements more hlarger) hread
    next hbracket =>
    rw [if_neg hbracket]
    split at hread
    · next hquote =>
      rw [if_pos hquote]
      obtain ⟨⟨text, last⟩, htext, heq⟩ := Option.map_eq_some_iff.mp hread
      cases heq
      rw [readString_append htext]
      rfl
    next hquote =>
    rw [if_neg hquote]
    split at hread
    · next hletter =>
      rw [if_pos hletter]
      exact readWord_append hread more
    next hn =>
    rw [if_neg hn]
    split at hread
    · next hletter =>
      rw [if_pos hletter]
      exact readWord_append hread more
    next ht =>
    rw [if_neg ht]
    split at hread
    · next hletter =>
      rw [if_pos hletter]
      exact readWord_append hread more
    next hf =>
    rw [if_neg hf]
    obtain ⟨⟨numeral, last⟩, hnumeral, heq⟩ := Option.map_eq_some_iff.mp hread
    cases heq
    have hrest : rest ≠ [] := fun hnil => hend hnil numeral rfl
    rw [← List.cons_append, readNumeral_append hnumeral hrest]
    rfl

/-- The induction is on the fuel, for values, elements and members at once. -/
theorem extends_all (fuel : Nat) : Extends fuel := by
  induction fuel with
  | zero =>
    constructor
    all_goals intro larger bytes rest _ more _ hread
    · rw [readValue] at hread
      cases hread
    · rw [readElements] at hread
      cases hread
    · rw [readMembers] at hread
      cases hread
  | succ fuel ih =>
    constructor
    all_goals
      intro larger bytes rest _ more hlarger
      obtain ⟨larger, rfl⟩ := Nat.exists_eq_add_of_le' (Nat.le_trans (Nat.succ_pos fuel) hlarger)
    · exact ih.value_succ more (Nat.le_of_succ_le_succ hlarger)
    · exact ih.elements_succ more (Nat.le_of_succ_le_succ hlarger)
    · exact ih.members_succ more (Nat.le_of_succ_le_succ hlarger)

/-- What starts with a brace is no number. -/
theorem not_number_of_brace {value : Json}
    (h : readValue fuel ('\x7b'.toUInt8 :: bytes) = some (value, rest)) (numeral : Numeral) :
    value ≠ .number numeral := by
  cases fuel with
  | zero =>
    rw [readValue] at h
    cases h
  | succ fuel =>
    rw [readValue, skipBlank_cons (by decide)] at h
    simp only [if_true] at h
    split at h
    · cases h
      exact Json.noConfusion
    · obtain ⟨⟨members, last⟩, -, heq⟩ := Option.map_eq_some_iff.mp h
      cases heq
      exact Json.noConfusion

/-- No strict beginning of an object is a document. -/
theorem parse?_take_eq_none {value : Json} {length : Nat}
    (hread : readValue (bytes.length + 2) ('\x7b'.toUInt8 :: bytes) = some (value, []))
    (hlength : length ≤ bytes.length) :
    parse? (('\x7b'.toUInt8 :: bytes).take length) = none := by
  cases length with
  | zero => rfl
  | succ length =>
    rw [List.take_succ_cons, parse?]
    split
    · next found rest hfound =>
      exfalso
      have hfuel : ('\x7b'.toUInt8 :: bytes.take length).length + 1 ≤ bytes.length + 2 := by
        rw [List.length_cons, List.length_take]
        omega
      have hwhole := (extends_all _).value (bytes.drop length) hfuel hfound
        fun _ => not_number_of_brace hfound
      rw [List.cons_append, List.take_append_drop, hread, Option.some.injEq, Prod.mk.injEq] at hwhole
      have hnone := (List.append_eq_nil_iff.mp hwhole.2.symm).2
      rw [List.drop_eq_nil_iff] at hnone
      omega
    · rfl

end Json

namespace QueueFile

/-- A queue is written as an object. -/
theorem exists_render (items : List Item) : ∃ bytes, render items = '\x7b'.toUInt8 :: bytes := by
  rw [render, Json.pretty, Document.toJson, Json.record, List.map_cons, Json.prettyAt,
    List.append_assoc, List.cons_append]
  exact ⟨_, Json.encodeUtf8_cons_ascii (by decide) _⟩

theorem readValue_render {items : List Item} {fuel : Nat} (hfuel : (render items).length < fuel) :
    Json.readValue fuel (render items) =
      some (Document.toJson ⟨formatVersion, kept items⟩, []) := by
  have hread := Json.readValue_prettyAt 0 (Document.toJson ⟨formatVersion, kept items⟩) fuel []
    (Document.plain_toJson _) hfuel trivial
  rwa [List.append_nil] at hread

theorem parse?_take_render {items : List Item} {length : Nat}
    (hlength : length < (render items).length) : Json.parse? ((render items).take length) = none := by
  obtain ⟨bytes, hbytes⟩ := exists_render items
  have hread := readValue_render (Nat.lt_succ_self (render items).length)
  rw [hbytes] at hlength hread ⊢
  exact Json.parse?_take_eq_none hread (Nat.le_of_lt_succ hlength)

theorem parse_take_render (path : Path) {items : List Item} {length : Nat}
    (hlength : length < (render items).length) :
    parse path ((render items).take length) =
      .error (.corrupt path (.malformed "not a queue document")) := by
  rw [parse, parse?_take_render hlength]
  rfl

/-- **A queue file that breaks off is noticed.** Whatever items are saved and wherever what was
written for them is cut off, be it before the first byte or within a character, the file that is left
is reported as corrupt and is not taken for another queue. -/
theorem load_of_cut (path : Path) (items : List Item) :
    (∀ length < (render items).length, ∀ fs : FileSystem,
      fs.read path = .ok ((render items).take length) →
      ∃ detail, load fs path = .error (.corrupt path (.malformed detail))) ∧
    ∀ fs : FileSystem, fs.Sound → (save fs path items).2 = .ok () →
      ∃ bytes, (save fs path items).1.read path = .ok bytes ∧
        ∀ length < bytes.length, ∀ cut : FileSystem, cut.read path = .ok (bytes.take length) →
          ∃ detail, load cut path = .error (.corrupt path (.malformed detail)) := by
  have hcut (length : Nat) (hlength : length < (render items).length) (fs : FileSystem)
      (hread : fs.read path = .ok ((render items).take length)) :
      ∃ detail, load fs path = .error (.corrupt path (.malformed detail)) := by
    refine ⟨"not a queue document", ?_⟩
    rw [load, hread]
    exact parse_take_render path hlength
  refine ⟨hcut, fun fs hsound hsaved => ⟨render items, ?_, hcut⟩⟩
  exact (edits_save hsound path items).2 hsaved

/-- The saved file is cut off behind the first byte of a character of four bytes. -/
theorem load_of_cut_unwieldy :
    (save .empty ⟨"/q"⟩ unwieldy).2 = .ok () ∧
    ((render unwieldy).take 119).getLast? = some 0xF0 ∧
    ∃ detail, load ⟨[], [(["q"], .file ((render unwieldy).take 119))]⟩ ⟨"/q"⟩ =
      .error (.corrupt ⟨"/q"⟩ (.malformed detail)) := by
  have hsound : FileSystem.empty.Sound := .flat fun _ hentry => absurd hentry List.not_mem_nil
  have hsaved : (save .empty ⟨"/q"⟩ unwieldy).2 = .ok () := by rfl
  have hwritten : (save .empty ⟨"/q"⟩ unwieldy).1.read ⟨"/q"⟩ = .ok (render unwieldy) :=
    (edits_save hsound ⟨"/q"⟩ unwieldy).2 hsaved
  have hlength : 119 < (render unwieldy).length := by decide +kernel
  obtain ⟨bytes, hbytes, hcut⟩ := (load_of_cut ⟨"/q"⟩ unwieldy).2 .empty hsound hsaved
  rw [hwritten, Except.ok.injEq] at hbytes
  subst hbytes
  exact ⟨hsaved, by decide +kernel, hcut 119 hlength _ rfl⟩

end QueueFile

end DownloadQueue
