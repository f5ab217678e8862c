import DownloadQueue.Json.Printer
import DownloadQueue.Json.Reader

namespace DownloadQueue.Json

@[simp] theorem encodeUtf8_nil : encodeUtf8 [] = [] :=
  rfl

@[simp] theorem encodeUtf8_append (first second : List Char) :
    encodeUtf8 (first ++ second) = encodeUtf8 first ++ encodeUtf8 second :=
  List.flatMap_append

theorem encodeUtf8_cons (c : Char) (rest : List Char) :
    encodeUtf8 (c :: rest) = String.utf8EncodeChar c ++ encodeUtf8 rest :=
  List.flatMap_cons

/-- A character of the first half of a byte is its own encoding. -/
theorem utf8EncodeChar_ascii {c : Char} (h : c.toNat < 128) :
    String.utf8EncodeChar c = [c.toUInt8] := by
  have hle : c.val.toNat ≤ 0x7f := Nat.le_of_lt_succ h
  rw [String.utf8EncodeChar]
  simp only [hle, if_true]
  rfl

theorem encodeUtf8_cons_ascii {c : Char} (h : c.toNat < 128) (rest : List Char) :
    encodeUtf8 (c :: rest) = c.toUInt8 :: encodeUtf8 rest := by
  rw [encodeUtf8_cons, utf8EncodeChar_ascii h, List.singleton_append]

theorem toNat_toUInt8 {c : Char} (h : c.toNat < 128) : c.toUInt8.toNat = c.toNat := by
  change c.val.toNat % 256 = c.val.toNat
  have hval : c.val.toNat < 128 := h
  omega

/-- The bytes of all other characters lie in the second half. -/
theorem le_of_mem_utf8EncodeChar {c : Char} (h : 128 ≤ c.toNat) {b : UInt8}
    (hmem : b ∈ String.utf8EncodeChar c) : 128 ≤ b.toNat := by
  have hlt : ¬ c.val.toNat ≤ 0x7f := Nat.not_le_of_lt h
  rw [String.utf8EncodeChar] at hmem
  simp only [hlt, if_false] at hmem
  split at hmem
  · simp only [List.mem_cons, List.not_mem_nil, or_false] at hmem
    rcases hmem with rfl | rfl <;> rw [UInt8.toNat_ofNat'] <;> omega
  · split at hmem
    · simp only [List.mem_cons, List.not_mem_nil, or_false] at hmem
      rcases hmem with rfl | rfl | rfl <;> rw [UInt8.toNat_ofNat'] <;> omega
    · simp only [List.mem_cons, List.not_mem_nil, or_false] at hmem
      rcases hmem with rfl | rfl | rfl | rfl <;> rw [UInt8.toNat_ofNat'] <;> omega

/-- The text of encoded characters is made of these characters. -/
theorem decodeUtf8?_encodeUtf8 (text : String) :
    decodeUtf8? (encodeUtf8 text.toList) = some text := by
  have hbytes : (⟨(encodeUtf8 text.toList).toArray⟩ : ByteArray) = text.toByteArray := by
    have hencode : (⟨(encodeUtf8 text.toList).toArray⟩ : ByteArray) = text.toList.utf8Encode := by
      rw [List.utf8Encode, encodeUtf8]
      exact ByteArray.ext List.data_toByteArray.symm
    rw [hencode, ← String.toByteArray_ofList, String.ofList_toList]
  rw [decodeUtf8?, hbytes, String.fromUTF8?, dif_pos text.isValidUTF8]
  rfl

def Escaped (c : Char) : Prop :=
  c = '"' ∨ c = '\\' ∨ c.toNat < 0x20

instance (c : Char) : Decidable (Escaped c) :=
  inferInstanceAs (Decidable (_ ∨ _))

theorem Escaped.toNat_lt {c : Char} (h : Escaped c) : c.toNat < 128 := by
  rcases h with rfl | rfl | h
  · decide
  · decide
  · omega

def charPieces (c : Char) : List Piece :=
  if Escaped c then [.unit c.toNat] else (String.utf8EncodeChar c).map .byte

theorem hexDigit?_lowerHex {n : Nat} (h : n < 16) : hexDigit? (lowerHex n).toUInt8 = some n := by
  revert n
  decide

theorem readPieces_shortEscape {e : UInt8} {unit : Nat} {pieces : List Piece} {bytes rest : List UInt8}
    (hunit : shortEscape? e = some unit) (hread : readPieces bytes = some (pieces, rest)) :
    readPieces ('\\'.toUInt8 :: e :: bytes) = some (.unit unit :: pieces, rest) := by
  have hne : e ≠ 'u'.toUInt8 := by
    rintro rfl
    revert hunit
    decide +revert
  rw [readPieces.eq_def]
  simp only [show '\\'.toUInt8 ≠ '"'.toUInt8 by decide, if_false, if_true, hne, hunit, hread]

/-- A control character is written by its number in four digits. -/
theorem readPieces_hexEscape {n : Nat} (hn : n < 256) {pieces : List Piece} {bytes rest : List UInt8}
    (hread : readPieces bytes = some (pieces, rest)) :
    readPieces (encodeUtf8 ['\\', 'u', '0', '0', lowerHex (n / 16), lowerHex (n % 16)] ++ bytes) =
      some (.unit n :: pieces, rest) := by
  have hascii {k : Nat} (hk : k < 16) : (lowerHex k).toNat < 128 := by
    revert k
    decide
  have hhigh : n / 16 < 16 := by omega
  have hlow : n % 16 < 16 := by omega
  have hunit : hexUnit? '0'.toUInt8 '0'.toUInt8 (lowerHex (n / 16)).toUInt8
      (lowerHex (n % 16)).toUInt8 = some n := by
    rw [hexUnit?, hexDigit?_lowerHex hhigh, hexDigit?_lowerHex hlow,
      show hexDigit? '0'.toUInt8 = some 0 from rfl]
    simp only [Option.bind_eq_bind, Option.bind_some, Option.pure_def]
    congr 1
    omega
  rw [encodeUtf8_cons_ascii (by decide), encodeUtf8_cons_ascii (by decide),
    encodeUtf8_cons_ascii (by decide), encodeUtf8_cons_ascii (by decide),
    encodeUtf8_cons_ascii (hascii hhigh), encodeUtf8_cons_ascii (hascii hlow), encodeUtf8_nil]
  simp only [List.cons_append, List.nil_append]
  rw [readPieces.eq_def]
  simp only [show '\\'.toUInt8 ≠ '"'.toUInt8 by decide, if_false, if_true, hunit, hread]

theorem readPieces_bytes {plain : List UInt8}
    (hplain : ∀ b ∈ plain, b ≠ '"'.toUInt8 ∧ b ≠ '\\'.toUInt8 ∧ ¬ b < 0x20) {pieces : List Piece}
    {bytes rest : List UInt8} (hread : readPieces bytes = some (pieces, rest)) :
    readPieces (plain ++ bytes) = some (plain.map .byte ++ pieces, rest) := by
  induction plain with
  | nil => exact hread
  | cons b plain ih =>
    obtain ⟨hquote, hslash, hcontrol⟩ := hplain b List.mem_cons_self
    have hrest := ih fun b hmem => hplain b (List.mem_cons_of_mem _ hmem)
    rw [List.cons_append, readPieces.eq_def]
    simp only [hquote, hslash, hcontrol, if_false, hrest]
    rfl

/-- The bytes of a character that is written as it is have no meaning of their own in a string. -/
theorem plain_of_not_escaped {c : Char} (h : ¬ Escaped c) {b : UInt8}
    (hmem : b ∈ String.utf8EncodeChar c) : b ≠ '"'.toUInt8 ∧ b ≠ '\\'.toUInt8 ∧ ¬ b < 0x20 := by
  rw [Escaped, not_or, not_or] at h
  obtain ⟨hquote, hslash, hcontrol⟩ := h
  by_cases hascii : c.toNat < 128
  · rw [utf8EncodeChar_ascii hascii, List.mem_singleton] at hmem
    subst hmem
    have hne {d : Char} (hd : d.toNat < 128) (hcd : c ≠ d) : c.toUInt8 ≠ d.toUInt8 := by
      intro heq
      have hnat := congrArg UInt8.toNat heq
      rw [toNat_toUInt8 hascii, toNat_toUInt8 hd] at hnat
      exact hcd (Char.toNat_inj.mp hnat)
    refine ⟨hne (by decide) hquote, hne (by decide) hslash, ?_⟩
    rw [UInt8.lt_iff_toNat_lt, toNat_toUInt8 hascii]
    exact hcontrol
  · have hle := le_of_mem_utf8EncodeChar (Nat.le_of_not_lt hascii) hmem
    refine ⟨?_, ?_, ?_⟩
    · rintro rfl
      revert hle
      decide
    · rintro rfl
      revert hle
      decide
    · rw [UInt8.lt_iff_toNat_lt]
      change ¬ b.toNat < 32
      omega

/-- A character that was written is read as its pieces. -/
theorem readPieces_escapedChar (c : Char) {pieces : List Piece} {bytes rest : List UInt8}
    (hread : readPieces bytes = some (pieces, rest)) :
    readPieces (encodeUtf8 (escapedChar c) ++ bytes) = some (charPieces c ++ pieces, rest) := by
  have hshort {d e : Char} (hd : Escaped d) (he : shortEscape? e.toUInt8 = some d.toNat)
      (hascii : e.toNat < 128) :
      readPieces (encodeUtf8 ['\\', e] ++ bytes) = some (charPieces d ++ pieces, rest) := by
    rw [encodeUtf8_cons_ascii (by decide), encodeUtf8_cons_ascii hascii, charPieces, if_pos hd]
    exact readPieces_shortEscape he hread
  rw [escapedChar]
  split
  · next heq =>
    subst heq
    exact hshort (by decide) rfl (by decide)
  split
  · next heq =>
    subst heq
    exact hshort (by decide) rfl (by decide)
  split
  · next heq =>
    subst heq
    exact hshort (by decide) rfl (by decide)
  split
  · next heq =>
    subst heq
    exact hshort (by decide) rfl (by decide)
  split
  · next heq =>
    subst heq
    exact hshort (by decide) rfl (by decide)
  split
  · next heq =>
    have hchar : c = Char.ofNat 8 := by rw [← heq, Char.ofNat_toNat]
    subst hchar
    exact hshort (by decide) rfl (by decide)
  split
  · next heq =>
    have hchar : c = Char.ofNat 12 := by rw [← heq, Char.ofNat_toNat]
    subst hchar
    exact hshort (by decide) rfl (by decide)
  split
  · next hcontrol =>
    rw [charPieces, if_pos (.inr (.inr hcontrol))]
    exact readPieces_hexEscape (by omega) hread
  · next hquote hslash _ _ _ _ _ hcontrol =>
    have hescaped : ¬ Escaped c := by
      rintro (heq | heq | heq)
      · exact hquote heq
      · exact hslash heq
      · exact hcontrol heq
    rw [encodeUtf8_cons, encodeUtf8_nil, List.append_nil, charPieces, if_neg hescaped]
    exact readPieces_bytes (fun b hmem => plain_of_not_escaped hescaped hmem) hread

theorem pieceBytes_unit {unit : Nat} (hlead : isLeadUnit unit = false)
    (htrail : isTrailUnit unit = false) (pieces : List Piece) :
    pieceBytes (.unit unit :: pieces) =
      (pieceBytes pieces).map (String.utf8EncodeChar (Char.ofNat unit) ++ ·) := by
  rcases pieces with - | ⟨b | v, pieces⟩
  · simp [pieceBytes, hlead, htrail]
  · simp [pieceBytes, hlead, htrail]
  · simp [pieceBytes, hlead, htrail]

theorem pieceBytes_bytes (bytes : List UInt8) (pieces : List Piece) :
    pieceBytes (bytes.map .byte ++ pieces) = (pieceBytes pieces).map (bytes ++ ·) := by
  induction bytes with
  | nil => simp
  | cons b bytes ih =>
    rw [List.map_cons, List.cons_append, pieceBytes, ih, Option.map_map]
    rfl

/-- Whatever a character is written as, it is read as its own bytes. -/
theorem pieceBytes_charPieces (c : Char) (pieces : List Piece) :
    pieceBytes (charPieces c ++ pieces) =
      (pieceBytes pieces).map (String.utf8EncodeChar c ++ ·) := by
  rw [charPieces]
  split
  · next hescaped =>
    have hlt := hescaped.toNat_lt
    have hlead : isLeadUnit c.toNat = false := by
      rw [isLeadUnit, Bool.and_eq_false_iff]
      exact .inl (decide_eq_false (by omega))
    have htrail : isTrailUnit c.toNat = false := by
      rw [isTrailUnit, Bool.and_eq_false_iff]
      exact .inl (decide_eq_false (by omega))
    rw [List.singleton_append, pieceBytes_unit hlead htrail, Char.ofNat_toNat]
  · exact pieceBytes_bytes _ _

theorem readPieces_text (text : List Char) (rest : List UInt8) :
    readPieces (encodeUtf8 (text.flatMap escapedChar ++ ['"']) ++ rest) =
      some (text.flatMap charPieces, rest) := by
  induction text with
  | nil =>
    change readPieces ('"'.toUInt8 :: rest) = _
    rw [readPieces.eq_def]
    simp only [if_true, List.flatMap_nil]
  | cons c text ih =>
    rw [List.flatMap_cons, List.flatMap_cons, List.append_assoc, encodeUtf8_append,
      List.append_assoc]
    exact readPieces_escapedChar c ih

theorem pieceBytes_text (text : List Char) :
    pieceBytes (text.flatMap charPieces) = some (encodeUtf8 text) := by
  induction text with
  | nil => rfl
  | cons c text ih =>
    rw [List.flatMap_cons, pieceBytes_charPieces, ih, encodeUtf8_cons]
    rfl

/-- A string literal is read as the text it was written for. -/
theorem readString_stringLiteral (text : String) (rest : List UInt8) :
    readString (encodeUtf8 (text.toList.flatMap escapedChar ++ ['"']) ++ rest) =
      some (some text, rest) := by
  have htext : pieceText? (text.toList.flatMap charPieces) = some text := by
    rw [pieceText?, pieceBytes_text, Option.bind_some, decodeUtf8?_encodeUtf8]
  rw [readString, readPieces_text, Option.map_some]
  simp only [htext]

def Delimited : List UInt8 → Prop
  | [] => True
  | b :: _ => b ∈ [',', ']', '\x7d', '\n'].map Char.toUInt8

/-- None of the marks that end a value goes on with a number. -/
theorem Delimited.stops {b : UInt8} {rest : List UInt8} (h : Delimited (b :: rest)) :
    digit? b = none ∧ b ≠ '.'.toUInt8 ∧ b ≠ 'e'.toUInt8 ∧ b ≠ 'E'.toUInt8 := by
  simp only [Delimited, List.map_cons, List.map_nil, List.mem_cons, List.not_mem_nil, or_false] at h
  rcases h with rfl | rfl | rfl | rfl <;> decide

/-- The first digit is zero only if it is the only one. -/
theorem eq_nil_of_digits_eq_zero_cons {n : Nat} {ds : List Nat} (h : Decimal.digits n = 0 :: ds) :
    ds = [] := by
  induction n using Nat.strongRecOn generalizing ds with
  | _ n ih =>
    rw [Decimal.digits] at h
    split at h
    · exact (List.cons.inj h).2.symm
    · next hlarge =>
      exfalso
      cases hhigh : Decimal.digits (n / 10) with
      | nil => exact Decimal.digits_ne_nil _ hhigh
      | cons d high =>
        rw [hhigh, List.cons_append] at h
        have hzero : d = 0 := (List.cons.inj h).1
        subst hzero
        have hnil := ih (n / 10) (by omega) hhigh
        have hvalue := Decimal.value_digits (n / 10)
        rw [hhigh, hnil] at hvalue
        have hsmall : n / 10 = 0 := hvalue.symm
        omega

theorem digit?_digitChar {d : Nat} (h : d < 10) : digit? (Decimal.digitChar d).toUInt8 = some d := by
  revert d
  decide

theorem toNat_digitChar {d : Nat} (h : d < 10) : (Decimal.digitChar d).toNat = 48 + d := by
  revert d
  decide

theorem digitChar_ne_minus {d : Nat} (h : d < 10) :
    (Decimal.digitChar d).toUInt8 ≠ '-'.toUInt8 := by
  revert d
  decide

/-- Digits are read up to the first byte that is none. -/
theorem readDigits_digits {ds : List Nat} (hds : ∀ d ∈ ds, d < 10) {rest : List UInt8}
    (hrest : Delimited rest) :
    readDigits (encodeUtf8 (ds.map Decimal.digitChar) ++ rest) = (ds, rest) := by
  induction ds with
  | nil =>
    cases rest with
    | nil => rfl
    | cons b rest =>
      rw [List.map_nil, encodeUtf8_nil, List.nil_append, readDigits, hrest.stops.1]
  | cons d ds ih =>
    have hd := hds d List.mem_cons_self
    have hascii : (Decimal.digitChar d).toNat < 128 := by
      rw [toNat_digitChar hd]
      omega
    rw [List.map_cons, encodeUtf8_cons_ascii hascii, List.cons_append, readDigits,
      digit?_digitChar hd]
    simp only [ih fun d hmem => hds d (List.mem_cons_of_mem _ hmem)]

theorem readWhole_digits (n : Nat) {rest : List UInt8} (hrest : Delimited rest) :
    readWhole (encodeUtf8 ((Decimal.digits n).map Decimal.digitChar) ++ rest) =
      some (Decimal.digits n, rest) := by
  rw [readWhole, readDigits_digits (Decimal.digits_lt_ten n) hrest]
  split
  · next heq => exact absurd (Prod.mk.inj heq).1 (Decimal.digits_ne_nil n)
  · next heq =>
    obtain ⟨hdigits, hleft⟩ := Prod.mk.inj heq
    rw [hdigits, hleft]
  · next heq => exact absurd (eq_nil_of_digits_eq_zero_cons (Prod.mk.inj heq).1) (List.cons_ne_nil _ _)
  · next heq =>
    obtain ⟨hdigits, hleft⟩ := Prod.mk.inj heq
    rw [hdigits, hleft]

/-- A number literal is read as the number it was written for. -/
theorem readNumeral_ofNat (n : Nat) {rest : List UInt8} (hrest : Delimited rest) :
    readNumeral (encodeUtf8 (numberLiteral (.ofNat n)) ++ rest) = some (.ofNat n, rest) := by
  have hliteral : numberLiteral (.ofNat n) = (Decimal.digits n).map Decimal.digitChar := by
    simp [numberLiteral, Numeral.ofNat, exponentText]
  have hunsigned : readUnsigned false
      (encodeUtf8 ((Decimal.digits n).map Decimal.digitChar) ++ rest) = some (.ofNat n, rest) := by
    have hfraction : readFraction rest = some ([], rest) := by
      cases rest with
      | nil => rfl
      | cons b rest => rw [readFraction, if_neg hrest.stops.2.1]
    have hexponent : readExponent rest = some (none, rest) := by
      cases rest with
      | nil => rfl
      | cons b rest => rw [readExponent, if_neg (not_or.mpr hrest.stops.2.2)]
    rw [readUnsigned, readWhole_digits n hrest]
    simp only [Option.bind_eq_bind, Option.bind_some, hfraction, hexponent, Option.pure_def]
    rfl
  rw [hliteral]
  cases hdigits : Decimal.digits n with
  | nil => exact absurd hdigits (Decimal.digits_ne_nil n)
  | cons d ds =>
    have hd : d < 10 := Decimal.digits_lt_ten n d (hdigits ▸ List.mem_cons_self)
    have hascii : (Decimal.digitChar d).toNat < 128 := by
      rw [toNat_digitChar hd]
      omega
    rw [hdigits, List.map_cons, encodeUtf8_cons_ascii hascii, List.cons_append] at hunsigned
    rw [List.map_cons, encodeUtf8_cons_ascii hascii, List.cons_append, readNumeral,
      if_neg (digitChar_ne_minus hd)]
    exact hunsigned

end DownloadQueue.Json
