import DownloadQueue.Proofs.Json.RoundTrip

namespace DownloadQueue.Json

theorem compactElements_cons_cons (value next : Json) (values : List Json) :
    compactElements (value :: next :: values) =
      compact value ++ ',' :: compactElements (next :: values) := by
  rw [compactElements]
  exact fun h => nomatch h

theorem compactMembers_cons_cons (key : Option String) (value : Json)
    (next : Option String × Json) (members : List (Option String × Json)) :
    compactMembers ((key, value) :: next :: members) =
      stringLiteral key ++ ':' :: compact value ++ ',' :: compactMembers (next :: members) := by
  rw [compactMembers]
  exact fun h => nomatch h

theorem length_enclosed {opening closing : Char} (hopening : opening.toNat < 128)
    (hclosing : closing.toNat < 128) (content : List Char) :
    (encodeUtf8 (opening :: content ++ [closing])).length = (encodeUtf8 content).length + 2 := by
  have hbytes := encodeUtf8_enclosed hopening hclosing content []
  rw [List.append_nil] at hbytes
  rw [hbytes, List.length_cons, List.length_append, List.length_singleton]

/-- The bytes of a member: its key, a colon and its value. -/
theorem encodeUtf8_pair (key : String) (value : List Char) (rest : List UInt8) :
    encodeUtf8 (stringLiteral (some key) ++ ':' :: value) ++ rest =
      '"'.toUInt8 :: (encodeUtf8 (key.toList.flatMap escapedChar ++ ['"']) ++
        ':'.toUInt8 :: (encodeUtf8 value ++ rest)) := by
  rw [encodeUtf8_append, encodeUtf8_cons_ascii (by decide), List.append_assoc,
    encodeUtf8_stringLiteral, List.cons_append]

theorem delimited_closing {closing : Char} (h : closing = ']' ∨ closing = '\x7d')
    (bytes : List UInt8) : Delimited (closing.toUInt8 :: bytes) := by
  rcases h with rfl | rfl
  · exact (by decide : ']'.toUInt8 ∈ [',', ']', '\x7d', '\n'].map Char.toUInt8)
  · exact (by decide : '\x7d'.toUInt8 ∈ [',', ']', '\x7d', '\n'].map Char.toUInt8)

mutual

/-- A value that was written without blanks is read back, and what follows it is left. -/
theorem readValue_compact : ∀ (value : Json) (fuel : Nat) (rest : List UInt8),
    Plain value → (encodeUtf8 (compact value)).length < fuel → Delimited rest →
    readValue fuel (encodeUtf8 (compact value) ++ rest) = some (value, rest)
  | .null, fuel + 1, rest, _, _, _ => rfl
  | .bool true, fuel + 1, rest, _, _, _ => rfl
  | .bool false, fuel + 1, rest, _, _, _ => rfl
  | .number numeral, fuel + 1, rest, hplain, _, hrest => by
    obtain ⟨n, rfl⟩ := hplain
    exact readValue_digits fuel n hrest
  | .string text, fuel + 1, rest, hplain, _, _ => by
    obtain ⟨content, rfl⟩ := hplain
    exact readValue_text fuel content rest
  | .array [], fuel + 1, rest, _, _, _ => rfl
  | .array (first :: values), fuel + 1, rest, hplain, hfuel, _ => by
    rw [compact] at hfuel ⊢
    rw [length_enclosed (by decide) (by decide)] at hfuel
    rw [encodeUtf8_enclosed (by decide) (by decide)]
    exact readValue_array (readElements_compact (first :: values) fuel rest
      (List.cons_ne_nil _ _) hplain (by omega))
  | .object [], fuel + 1, rest, _, _, _ => rfl
  | .object (first :: members), fuel + 1, rest, hplain, hfuel, _ => by
    rw [compact] at hfuel ⊢
    rw [length_enclosed (by decide) (by decide)] at hfuel
    rw [encodeUtf8_enclosed (by decide) (by decide)]
    exact readValue_object (readMembers_compact (first :: members) fuel rest
      (List.cons_ne_nil _ _) hplain (by omega))
  | _, 0, _, _, hfuel, _ => absurd hfuel (Nat.not_lt_zero _)

/-- By recursion along the printer: an element is read up to the comma or the bracket that ends
it. -/
theorem readElements_compact : ∀ (values : List Json) (fuel : Nat) (rest : List UInt8),
    values ≠ [] → PlainElements values →
    (encodeUtf8 (compactElements values)).length + 1 < fuel →
    readElements fuel (encodeUtf8 (compactElements values) ++ ']'.toUInt8 :: rest) =
      some (values, rest)
  | [], _, _, hne, _, _ => absurd rfl hne
  | [value], fuel + 1, rest, _, hplain, hfuel => by
    rw [compactElements] at hfuel ⊢
    have hread := readValue_compact value fuel (']'.toUInt8 :: rest) hplain.1 (by omega)
      (delimited_closing (.inl rfl) rest)
    exact readElements_last hread (readMark_self (by decide) rest)
  | value :: next :: values, fuel + 1, rest, _, hplain, hfuel => by
    have hcomma : ','.toNat < 128 := by decide
    rw [compactElements_cons_cons, encodeUtf8_append, encodeUtf8_cons_ascii hcomma] at hfuel ⊢
    rw [List.length_append, List.length_cons] at hfuel
    have htail := readElements_compact (next :: values) fuel rest (List.cons_ne_nil _ _) hplain.2
      (by omega)
    have hread := readValue_compact value fuel
      (','.toUInt8 :: (encodeUtf8 (compactElements (next :: values)) ++ ']'.toUInt8 :: rest))
      hplain.1 (by omega) (delimited_comma _)
    rw [List.append_assoc]
    exact readElements_more hread htail
  | _, 0, _, _, _, hfuel => absurd hfuel (Nat.not_lt_zero _)

theorem readMembers_compact : ∀ (members : List (Option String × Json)) (fuel : Nat)
    (rest : List UInt8), members ≠ [] → PlainMembers members →
    (encodeUtf8 (compactMembers members)).length + 1 < fuel →
    readMembers fuel (encodeUtf8 (compactMembers members) ++ '\x7d'.toUInt8 :: rest) =
      some (members, rest)
  | [], _, _, hne, _, _ => absurd rfl hne
  | [(key, value)], fuel + 1, rest, _, hplain, hfuel => by
    obtain ⟨⟨content, rfl⟩, hvalue, -⟩ := hplain
    have hbytes := encodeUtf8_pair content (compact value)
    have hlength := congrArg List.length (hbytes [])
    rw [compactMembers] at hfuel ⊢
    simp only [List.append_nil, List.length_append, List.length_cons] at hlength hfuel
    have hread := readValue_compact value fuel ('\x7d'.toUInt8 :: rest) hvalue (by omega)
      (delimited_closing (.inr rfl) rest)
    rw [hbytes]
    exact readMembers_last (readMark_self (by decide) _) hread (readMark_self (by decide) rest)
  | (key, value) :: next :: members, fuel + 1, rest, _, hplain, hfuel => by
    obtain ⟨⟨content, rfl⟩, hvalue, hmembers⟩ := hplain
    have hcomma : ','.toNat < 128 := by decide
    have hbytes := encodeUtf8_pair content (compact value)
    have hlength := congrArg List.length (hbytes [])
    rw [compactMembers_cons_cons, encodeUtf8_append, encodeUtf8_cons_ascii hcomma] at hfuel ⊢
    simp only [List.append_nil, List.length_append, List.length_cons] at hlength hfuel
    have htail := readMembers_compact (next :: members) fuel rest (List.cons_ne_nil _ _) hmembers
      (by omega)
    have hread := readValue_compact value fuel
      (','.toUInt8 :: (encodeUtf8 (compactMembers (next :: members)) ++ '\x7d'.toUInt8 :: rest))
      hvalue (by omega) (delimited_comma _)
    rw [List.append_assoc, hbytes]
    exact readMembers_more (readMark_self (by decide) _) hread htail
  | _, 0, _, _, _, hfuel => absurd hfuel (Nat.not_lt_zero _)

end

/-- A plain value that was written without blanks is read back. -/
theorem parse?_compact {value : Json} (hplain : Plain value) :
    parse? (encodeUtf8 value.compact) = some value := by
  have hread : readValue ((encodeUtf8 value.compact).length + 1)
      (encodeUtf8 value.compact ++ []) = some (value, []) :=
    readValue_compact value _ [] hplain (Nat.lt_succ_self _) trivial
  rw [List.append_nil] at hread
  rw [parse?, hread]
  rfl

end DownloadQueue.Json
