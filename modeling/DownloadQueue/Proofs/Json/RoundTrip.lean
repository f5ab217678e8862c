import DownloadQueue.Proofs.Json.Literals

namespace DownloadQueue.Json

mutual

/-- All strings are texts, and all numbers are natural. -/
def Plain : Json → Prop
  | .null => True
  | .bool _ => True
  | .number numeral => ∃ n, numeral = .ofNat n
  | .string text => ∃ content, text = some content
  | .array elements => PlainElements elements
  | .object members => PlainMembers members

def PlainElements : List Json → Prop
  | [] => True
  | value :: values => Plain value ∧ PlainElements values

def PlainMembers : List (Option String × Json) → Prop
  | [] => True
  | (key, value) :: members => (∃ content, key = some content) ∧ Plain value ∧ PlainMembers members

end

theorem encodeUtf8_newline (level : Nat) :
    encodeUtf8 (newline level) = '\n'.toUInt8 :: List.replicate (2 * level) ' '.toUInt8 := by
  rw [newline, encodeUtf8_cons_ascii (by decide)]
  congr 1
  induction 2 * level with
  | zero => rfl
  | succ n ih => rw [List.replicate_succ, List.replicate_succ, encodeUtf8_cons_ascii (by decide), ih]

theorem skipBlank_newline (level : Nat) (bytes : List UInt8) :
    skipBlank (encodeUtf8 (newline level) ++ bytes) = skipBlank bytes := by
  rw [encodeUtf8_newline, List.cons_append, skipBlank, List.dropWhile_cons_of_pos (by decide)]
  induction 2 * level with
  | zero => rfl
  | succ n ih =>
    rw [List.replicate_succ, List.cons_append, List.dropWhile_cons_of_pos (by decide)]
    exact ih

theorem skipBlank_cons {b : UInt8} (h : isBlankByte b = false) (bytes : List UInt8) :
    skipBlank (b :: bytes) = b :: bytes :=
  List.dropWhile_cons_of_neg (by simp [h])

theorem readMark_newline (c : Char) (level : Nat) (bytes : List UInt8) :
    readMark c (encodeUtf8 (newline level) ++ bytes) = readMark c bytes := by
  rw [readMark, readMark, skipBlank_newline]

theorem readMark_self {c : Char} (h : isBlankByte c.toUInt8 = false) (bytes : List UInt8) :
    readMark c (c.toUInt8 :: bytes) = some bytes := by
  rw [readMark, skipBlank_cons h]
  simp

theorem readMark_of_ne {c : Char} {b : UInt8} (h : isBlankByte b = false) (hne : b ≠ c.toUInt8)
    (bytes : List UInt8) : readMark c (b :: bytes) = none := by
  rw [readMark, skipBlank_cons h]
  simp [hne]

theorem readValue_newline (fuel level : Nat) (bytes : List UInt8) :
    readValue fuel (encodeUtf8 (newline level) ++ bytes) = readValue fuel bytes := by
  cases fuel with
  | zero => rw [readValue, readValue]
  | succ fuel => rw [readValue, readValue, skipBlank_newline]

theorem delimited_newline (level : Nat) (bytes : List UInt8) :
    Delimited (encodeUtf8 (newline level) ++ bytes) := by
  rw [encodeUtf8_newline]
  exact (by decide : '\n'.toUInt8 ∈ [',', ']', '\x7d', '\n'].map Char.toUInt8)

theorem delimited_comma (bytes : List UInt8) : Delimited (','.toUInt8 :: bytes) :=
  List.mem_cons_self

/-- A number is read back if no digit follows it. -/
theorem readValue_digits (fuel n : Nat) {rest : List UInt8} (hrest : Delimited rest) :
    readValue (fuel + 1) (encodeUtf8 (numberLiteral (.ofNat n)) ++ rest) =
      some (.number (.ofNat n), rest) := by
  have hread := readNumeral_ofNat n hrest
  have hliteral : numberLiteral (.ofNat n) = (Decimal.digits n).map Decimal.digitChar := by
    simp [numberLiteral, Numeral.ofNat, exponentText]
  rw [hliteral] at hread ⊢
  cases hdigits : Decimal.digits n with
  | nil => exact absurd hdigits (Decimal.digits_ne_nil n)
  | cons d ds =>
    have hd : d < 10 := Decimal.digits_lt_ten n d (hdigits ▸ List.mem_cons_self)
    have hascii : (Decimal.digitChar d).toNat < 128 := by
      rw [toNat_digitChar hd]
      omega
    have hplain : ∀ d < 10, isBlankByte (Decimal.digitChar d).toUInt8 = false ∧
        (Decimal.digitChar d).toUInt8 ∉ ['\x7b', '[', '"', 'n', 't', 'f'].map Char.toUInt8 := by
      decide
    obtain ⟨hblank, hmarks⟩ := hplain d hd
    simp only [List.map_cons, List.map_nil, List.mem_cons, List.not_mem_nil, or_false, not_or]
      at hmarks
    obtain ⟨hbrace, hbracket, hquote, hn, ht, hf⟩ := hmarks
    rw [hdigits, List.map_cons, encodeUtf8_cons_ascii hascii, List.cons_append] at hread
    rw [List.map_cons, encodeUtf8_cons_ascii hascii, List.cons_append, readValue,
      skipBlank_cons hblank]
    simp only [hbrace, hbracket, hquote, hn, ht, hf, if_false, hread, Option.map_some]

theorem encodeUtf8_stringLiteral (text : String) (rest : List UInt8) :
    encodeUtf8 (stringLiteral (some text)) ++ rest =
      '"'.toUInt8 :: (encodeUtf8 (text.toList.flatMap escapedChar ++ ['"']) ++ rest) := by
  have hquote : '"'.toNat < 128 := by decide
  have hliteral : stringLiteral (some text) =
      '"' :: (text.toList.flatMap escapedChar ++ ['"']) := rfl
  rw [hliteral, encodeUtf8_cons_ascii hquote]
  exact List.cons_append

theorem readValue_text (fuel : Nat) (text : String) (rest : List UInt8) :
    readValue (fuel + 1) (encodeUtf8 (stringLiteral (some text)) ++ rest) =
      some (.string (some text), rest) := by
  have hblank : isBlankByte '"'.toUInt8 = false := by decide
  rw [encodeUtf8_stringLiteral, readValue, skipBlank_cons hblank]
  simp only [show '"'.toUInt8 ≠ '\x7b'.toUInt8 by decide, show '"'.toUInt8 ≠ '['.toUInt8 by decide,
    if_false, if_true, readString_stringLiteral, Option.map_some]

theorem length_newline_pos (level : Nat) : 0 < (encodeUtf8 (newline level)).length := by
  rw [encodeUtf8_newline]
  exact Nat.succ_pos _

/-- What is left after the first of several elements or members: a comma and the others. -/
theorem readMark_comma {c : Char} (hne : ','.toUInt8 ≠ c.toUInt8) (bytes : List UInt8) :
    readMark c (','.toUInt8 :: bytes) = none ∧ readMark ',' (','.toUInt8 :: bytes) = some bytes := by
  have hblank : isBlankByte ','.toUInt8 = false := by decide
  exact ⟨readMark_of_ne hblank hne bytes, readMark_self hblank bytes⟩

/-- No value starts with a closing bracket. -/
theorem readValue_bracket {bytes rest : List UInt8} (h : readMark ']' bytes = some rest)
    (fuel : Nat) : readValue fuel bytes = none := by
  have hskip : skipBlank bytes = ']'.toUInt8 :: rest := by
    rw [readMark] at h
    split at h
    · next b left hskip =>
      split at h
      · next heq =>
        cases h
        rw [hskip, heq]
      · cases h
    · cases h
  cases fuel with
  | zero => rw [readValue]
  | succ fuel =>
    rw [readValue, hskip]
    rfl

theorem readValue_array {fuel : Nat} {bytes rest : List UInt8} {values : List Json}
    (h : readElements fuel bytes = some (values, rest)) :
    readValue (fuel + 1) ('['.toUInt8 :: bytes) = some (.array values, rest) := by
  have hblank : isBlankByte '['.toUInt8 = false := by decide
  have hopen : readMark ']' bytes = none := by
    cases hmark : readMark ']' bytes with
    | none => rfl
    | some left =>
      cases fuel with
      | zero =>
        rw [readElements] at h
        cases h
      | succ fuel =>
        rw [readElements, readValue_bracket hmark] at h
        cases h
  rw [readValue, skipBlank_cons hblank]
  simp only [show '['.toUInt8 ≠ '\x7b'.toUInt8 by decide, if_false, if_true, hopen, h,
    Option.map_some]

theorem readElements_last {fuel : Nat} {bytes left rest : List UInt8} {value : Json}
    (hvalue : readValue fuel bytes = some (value, left)) (hclose : readMark ']' left = some rest) :
    readElements (fuel + 1) bytes = some ([value], rest) := by
  rw [readElements, hvalue]
  simp only [hclose]

theorem readElements_more {fuel : Nat} {bytes left rest : List UInt8} {value : Json}
    {values : List Json} (hvalue : readValue fuel bytes = some (value, ','.toUInt8 :: left))
    (hvalues : readElements fuel left = some (values, rest)) :
    readElements (fuel + 1) bytes = some (value :: values, rest) := by
  obtain ⟨hclose, hcomma⟩ := readMark_comma (c := ']') (by decide) left
  rw [readElements, hvalue]
  simp only [hclose, hcomma, hvalues, Option.map_some]

theorem readValue_object {fuel : Nat} {bytes rest : List UInt8}
    {members : List (Option String × Json)} (h : readMembers fuel bytes = some (members, rest)) :
    readValue (fuel + 1) ('\x7b'.toUInt8 :: bytes) = some (.object members, rest) := by
  have hblank : isBlankByte '\x7b'.toUInt8 = false := by decide
  have hopen : readMark '\x7d' bytes = none := by
    cases hmark : readMark '\x7d' bytes with
    | none => rfl
    | some left =>
      have hquote : readMark '"' bytes = none := by
        rw [readMark] at hmark ⊢
        split at hmark
        · split at hmark
          · next heq =>
            subst heq
            rfl
          · cases hmark
        · rfl
      cases fuel with
      | zero =>
        rw [readMembers] at h
        cases h
      | succ fuel =>
        rw [readMembers, hquote] at h
        cases h
  rw [readValue, skipBlank_cons hblank]
  simp only [if_true, hopen, h, Option.map_some]

/-- The bytes of a member: its key on a new line, a colon, a space and its value. -/
theorem encodeUtf8_member (level : Nat) (key : String) (value : List Char) (rest : List UInt8) :
    encodeUtf8 (newline level ++ stringLiteral (some key) ++ ':' :: ' ' :: value) ++ rest =
      encodeUtf8 (newline level) ++ '"'.toUInt8 ::
        (encodeUtf8 (key.toList.flatMap escapedChar ++ ['"']) ++
          ':'.toUInt8 :: ' '.toUInt8 :: (encodeUtf8 value ++ rest)) := by
  have hcolon : ':'.toNat < 128 := by decide
  have hspace : ' '.toNat < 128 := by decide
  rw [encodeUtf8_append, encodeUtf8_append, encodeUtf8_cons_ascii hcolon,
    encodeUtf8_cons_ascii hspace, List.append_assoc, List.append_assoc, encodeUtf8_stringLiteral]
  rfl

/-- A member on a line of its own: its key, and its value behind a space. -/
theorem readMembers_key (fuel level : Nat) (key : String) (bytes : List UInt8) :
    readMark '"' (encodeUtf8 (newline level) ++ '"'.toUInt8 ::
      (encodeUtf8 (key.toList.flatMap escapedChar ++ ['"']) ++
        ':'.toUInt8 :: ' '.toUInt8 :: bytes)) =
      some (encodeUtf8 (key.toList.flatMap escapedChar ++ ['"']) ++
        ':'.toUInt8 :: ' '.toUInt8 :: bytes) ∧
    readValue fuel (' '.toUInt8 :: bytes) = readValue fuel bytes := by
  refine ⟨?_, ?_⟩
  · rw [readMark_newline]
    exact readMark_self (by decide) _
  · have hskip : skipBlank (' '.toUInt8 :: bytes) = skipBlank bytes := by
      rw [skipBlank, skipBlank]
      exact List.dropWhile_cons_of_pos (by decide)
    cases fuel with
    | zero => rw [readValue, readValue]
    | succ fuel => rw [readValue, readValue, hskip]

/-- A last member: its key up to the colon, its value and the closing mark. -/
theorem readMembers_last {fuel : Nat} {key : String} {bytes behind left rest : List UInt8}
    {value : Json}
    (hkey : readMark '"' bytes = some
      (encodeUtf8 (key.toList.flatMap escapedChar ++ ['"']) ++ ':'.toUInt8 :: behind))
    (hvalue : readValue fuel behind = some (value, left))
    (hclose : readMark '\x7d' left = some rest) :
    readMembers (fuel + 1) bytes = some ([(some key, value)], rest) := by
  have hcolon : readMark ':' (':'.toUInt8 :: behind) = some behind := readMark_self (by decide) _
  rw [readMembers, hkey]
  simp only [readString_stringLiteral, hcolon, hvalue, hclose]

theorem readMembers_more {fuel : Nat} {key : String} {bytes behind left rest : List UInt8}
    {value : Json} {members : List (Option String × Json)}
    (hkey : readMark '"' bytes = some
      (encodeUtf8 (key.toList.flatMap escapedChar ++ ['"']) ++ ':'.toUInt8 :: behind))
    (hvalue : readValue fuel behind = some (value, ','.toUInt8 :: left))
    (hmembers : readMembers fuel left = some (members, rest)) :
    readMembers (fuel + 1) bytes = some ((some key, value) :: members, rest) := by
  have hcolon : readMark ':' (':'.toUInt8 :: behind) = some behind := readMark_self (by decide) _
  obtain ⟨hclose, hcomma⟩ := readMark_comma (c := '\x7d') (by decide) left
  rw [readMembers, hkey]
  simp only [readString_stringLiteral, hcolon, hvalue, hclose, hcomma, hmembers, Option.map_some]

/-- The bytes of a list between its marks. -/
theorem encodeUtf8_enclosed {opening closing : Char} (hopening : opening.toNat < 128)
    (hclosing : closing.toNat < 128) (content : List Char) (rest : List UInt8) :
    encodeUtf8 (opening :: content ++ [closing]) ++ rest =
      opening.toUInt8 :: (encodeUtf8 content ++ closing.toUInt8 :: rest) := by
  rw [List.cons_append, encodeUtf8_cons_ascii hopening, encodeUtf8_append,
    encodeUtf8_cons_ascii hclosing, encodeUtf8_nil, List.cons_append, List.append_assoc,
    List.singleton_append]

/-- The bytes of a bracketed list with its closing mark on a line of its own. -/
theorem encodeUtf8_bracketed {opening closing : Char} (hopening : opening.toNat < 128)
    (hclosing : closing.toNat < 128) (content : List Char) (level : Nat) (rest : List UInt8) :
    encodeUtf8 (opening :: content ++ newline level ++ [closing]) ++ rest =
      opening.toUInt8 ::
        (encodeUtf8 content ++ (encodeUtf8 (newline level) ++ closing.toUInt8 :: rest)) := by
  rw [List.cons_append, encodeUtf8_enclosed hopening hclosing, encodeUtf8_append,
    List.append_assoc]

theorem length_bracketed {opening closing : Char} (hopening : opening.toNat < 128)
    (hclosing : closing.toNat < 128) (content : List Char) (level : Nat) :
    (encodeUtf8 content).length <
      (encodeUtf8 (opening :: content ++ newline level ++ [closing])).length := by
  have hbytes := encodeUtf8_bracketed hopening hclosing content level []
  rw [List.append_nil] at hbytes
  rw [hbytes, List.length_cons, List.length_append]
  omega

theorem prettyElements_cons_cons (level : Nat) (value next : Json) (values : List Json) :
    prettyElements level (value :: next :: values) =
      newline level ++ prettyAt level value ++ ',' :: prettyElements level (next :: values) := by
  rw [prettyElements]
  exact fun h => nomatch h

theorem prettyMembers_cons_cons (level : Nat) (key : Option String) (value : Json)
    (next : Option String × Json) (members : List (Option String × Json)) :
    prettyMembers level ((key, value) :: next :: members) =
      newline level ++ stringLiteral key ++ ':' :: ' ' :: prettyAt level value ++
        ',' :: prettyMembers level (next :: members) := by
  rw [prettyMembers]
  exact fun h => nomatch h

mutual

/-- A value that was written at some level is read back, and what follows it is left. -/
theorem readValue_prettyAt (level : Nat) : ∀ (value : Json) (fuel : Nat) (rest : List UInt8),
    Plain value → (encodeUtf8 (prettyAt level value)).length < fuel → Delimited rest →
    readValue fuel (encodeUtf8 (prettyAt level value) ++ rest) = some (value, rest)
  | .null, fuel + 1, rest, _, _, _ => rfl
  | .bool true, fuel + 1, rest, _, _, _ => rfl
  | .bool false, fuel + 1, rest, _, _, _ => rfl
  | .number numeral, fuel + 1, rest, hplain, _, hrest => by
    obtain ⟨n, rfl⟩ := hplain
    exact readValue_digits fuel n hrest
  | .string text, fuel + 1, rest, hplain, _, _ => by
    obtain ⟨content, rfl⟩ := hplain
    exact readValue_text fuel content rest
  | .array [], fuel + 1, rest, _, _, _ => rfl
  | .array (first :: values), fuel + 1, rest, hplain, hfuel, _ => by
    have hlength := length_bracketed (show '['.toNat < 128 by decide)
      (show ']'.toNat < 128 by decide)
      (prettyElements (level + 1) (first :: values)) level
    rw [prettyAt] at hfuel ⊢
    rw [encodeUtf8_bracketed (by decide) (by decide)]
    exact readValue_array (readElements_pretty (level + 1) level (first :: values) fuel rest
      (List.cons_ne_nil _ _) hplain (by omega))
  | .object [], fuel + 1, rest, _, _, _ => rfl
  | .object (first :: members), fuel + 1, rest, hplain, hfuel, _ => by
    have hlength := length_bracketed (show '\x7b'.toNat < 128 by decide)
      (show '\x7d'.toNat < 128 by decide)
      (prettyMembers (level + 1) (first :: members)) level
    rw [prettyAt] at hfuel ⊢
    rw [encodeUtf8_bracketed (by decide) (by decide)]
    exact readValue_object (readMembers_pretty (level + 1) level (first :: members) fuel rest
      (List.cons_ne_nil _ _) hplain (by omega))
  | _, 0, _, _, hfuel, _ => absurd hfuel (Nat.not_lt_zero _)

/-- By recursion along the printer, with the indentation of the closing bracket as a level of its
own. -/
theorem readElements_pretty (level outer : Nat) : ∀ (values : List Json) (fuel : Nat)
    (rest : List UInt8), values ≠ [] → PlainElements values →
    (encodeUtf8 (prettyElements level values)).length < fuel →
    readElements fuel (encodeUtf8 (prettyElements level values) ++
      (encodeUtf8 (newline outer) ++ ']'.toUInt8 :: rest)) = some (values, rest)
  | [], _, _, hne, _, _ => absurd rfl hne
  | [value], fuel + 1, rest, _, hplain, hfuel => by
    have hnewline := length_newline_pos level
    rw [prettyElements, encodeUtf8_append] at hfuel ⊢
    rw [List.length_append] at hfuel
    have hread := readValue_prettyAt level value fuel
      (encodeUtf8 (newline outer) ++ ']'.toUInt8 :: rest) hplain.1 (by omega)
      (delimited_newline outer _)
    rw [List.append_assoc]
    refine readElements_last ((readValue_newline _ _ _).trans hread) ?_
    rw [readMark_newline]
    exact readMark_self (by decide) rest
  | value :: next :: values, fuel + 1, rest, _, hplain, hfuel => by
    have hnewline := length_newline_pos level
    have hcomma : ','.toNat < 128 := by decide
    rw [prettyElements_cons_cons, encodeUtf8_append, encodeUtf8_append,
      encodeUtf8_cons_ascii hcomma] at hfuel ⊢
    rw [List.length_append, List.length_append, List.length_cons] at hfuel
    have htail := readElements_pretty level outer (next :: values) fuel rest
      (List.cons_ne_nil _ _) hplain.2 (by omega)
    have hread := readValue_prettyAt level value fuel
      (','.toUInt8 :: (encodeUtf8 (prettyElements level (next :: values)) ++
        (encodeUtf8 (newline outer) ++ ']'.toUInt8 :: rest))) hplain.1 (by omega)
      (delimited_comma _)
    rw [List.append_assoc, List.append_assoc]
    exact readElements_more ((readValue_newline _ _ _).trans hread) htail
  | _, 0, _, _, _, hfuel => absurd hfuel (Nat.not_lt_zero _)

theorem readMembers_pretty (level outer : Nat) : ∀ (members : List (Option String × Json))
    (fuel : Nat) (rest : List UInt8), members ≠ [] → PlainMembers members →
    (encodeUtf8 (prettyMembers level members)).length < fuel →
    readMembers fuel (encodeUtf8 (prettyMembers level members) ++
      (encodeUtf8 (newline outer) ++ '\x7d'.toUInt8 :: rest)) = some (members, rest)
  | [], _, _, hne, _, _ => absurd rfl hne
  | [(key, value)], fuel + 1, rest, _, hplain, hfuel => by
    obtain ⟨⟨content, rfl⟩, hvalue, -⟩ := hplain
    have hbytes := encodeUtf8_member level content (prettyAt level value)
    rw [prettyMembers] at hfuel ⊢
    have hlength := congrArg List.length (hbytes [])
    simp only [List.append_nil, List.length_append, List.length_cons] at hlength hfuel
    have hread := readValue_prettyAt level value fuel
      (encodeUtf8 (newline outer) ++ '\x7d'.toUInt8 :: rest) hvalue (by omega)
      (delimited_newline outer _)
    obtain ⟨hkey, hspace⟩ := readMembers_key fuel level content
      (encodeUtf8 (prettyAt level value) ++ (encodeUtf8 (newline outer) ++ '\x7d'.toUInt8 :: rest))
    rw [hbytes]
    refine readMembers_last hkey (hspace.trans hread) ?_
    rw [readMark_newline]
    exact readMark_self (by decide) rest
  | (key, value) :: next :: members, fuel + 1, rest, _, hplain, hfuel => by
    obtain ⟨⟨content, rfl⟩, hvalue, hmembers⟩ := hplain
    have hcomma : ','.toNat < 128 := by decide
    have hbytes := encodeUtf8_member level content (prettyAt level value)
    have hlength := congrArg List.length (hbytes [])
    rw [prettyMembers_cons_cons, encodeUtf8_append, encodeUtf8_cons_ascii hcomma] at hfuel ⊢
    simp only [List.append_nil, List.length_append, List.length_cons] at hlength hfuel
    have htail := readMembers_pretty level outer (next :: members) fuel rest
      (List.cons_ne_nil _ _) hmembers (by omega)
    have hread := readValue_prettyAt level value fuel
      (','.toUInt8 :: (encodeUtf8 (prettyMembers level (next :: members)) ++
        (encodeUtf8 (newline outer) ++ '\x7d'.toUInt8 :: rest))) hvalue (by omega)
      (delimited_comma _)
    obtain ⟨hkey, hspace⟩ := readMembers_key fuel level content _
    rw [List.append_assoc, hbytes]
    exact readMembers_more hkey (hspace.trans hread) htail
  | _, 0, _, _, _, hfuel => absurd hfuel (Nat.not_lt_zero _)

end

/-- A plain document that was written is read back. -/
theorem parse?_pretty {value : Json} (hplain : Plain value) :
    parse? (encodeUtf8 value.pretty) = some value := by
  have hread : readValue ((encodeUtf8 value.pretty).length + 1) (encodeUtf8 value.pretty ++ []) =
      some (value, []) :=
    readValue_prettyAt 0 value _ [] hplain (Nat.lt_succ_self _) trivial
  rw [List.append_nil] at hread
  rw [parse?, hread]
  rfl

end DownloadQueue.Json
