import DownloadQueue.Fetch.Run
import DownloadQueue.Proofs.ContentRange
import DownloadQueue.Proofs.FileSystem.Edits

/-!
# What a fetch leaves at its destination

A server holds some bytes and sends them from the start or from an offset on, as far as the
connection lasts. Whatever a fetch learns and wherever it is stopped, the file at its destination is
missing or holds a beginning of these bytes. If the fetch succeeds, it holds all of them.
-/

namespace DownloadQueue

/-- An answer that a server which holds these bytes may give to a request. -/
inductive Serves (bytes : List UInt8) : Option UInt64 → ResponseHead → List UInt8 → Prop
  | whole (range : Option UInt64) (contentRange : Option (List Char)) :
    Serves bytes range ⟨200, contentRange, some (UInt64.ofNat bytes.length)⟩ bytes
  | rest {offset : UInt64} (h : offset.toNat < bytes.length) (length : Option UInt64) :
    Serves bytes (some offset)
      ⟨206, some (ContentRange.restHeader offset.toNat bytes.length), length⟩
      (bytes.drop offset.toNat)
  | beyond {offset : UInt64} (h : bytes.length ≤ offset.toNat) (length : Option UInt64)
      (body : List UInt8) :
    Serves bytes (some offset) ⟨416, some (ContentRange.beyondHeader bytes.length), length⟩ body
  /-- Any refusal, as long as it does not lie about the length. -/
  | refused (range : Option UInt64) {head : ResponseHead} (hfailure : head.isSuccess = false)
      (htotal : ∀ total, head.status = 416 → head.range.total = some total →
        total.toNat = bytes.length) (body : List UInt8) :
    Serves bytes range head body

def IsPart (bytes : List UInt8) (found : Option (List UInt8)) : Prop :=
  ∀ content, found = some content → content <+: bytes

theorem isPart_none (bytes : List UInt8) : IsPart bytes none := by
  intro content h
  cases h

theorem isPart_some {bytes content : List UInt8} (h : content <+: bytes) :
    IsPart bytes (some content) := by
  intro found heq
  cases heq
  exact h

namespace Fetch

def Effect.outcome (found : Option (List UInt8)) : Effect → Option (List UInt8)
  | .openAt offset => some (FileSystem.resized offset.toNat (found.getD []))
  | .openFresh => some []
  | .append bytes => some (found.getD [] ++ bytes)
  | .send _ => found
  | .report _ => found

/-- At no moment does the file hold anything but a beginning of the bytes. -/
def Harmless (bytes : List UInt8) (found : Option (List UInt8)) : List Effect → Prop
  | [] => IsPart bytes found
  | effect :: effects => IsPart bytes found ∧ Harmless bytes (effect.outcome found) effects

/-- The file fits what the fetch believes; `body` is what the server has yet to send. -/
def Consistent (bytes body : List UInt8) (found : Option (List UInt8)) : Phase → Prop
  | .waiting offset => offset ≠ 0 → ∃ content, found = some content ∧ content.length = offset.toNat
  | .receiving total downloaded =>
    total = some (UInt64.ofNat bytes.length) ∧
      ∃ content, found = some content ∧ content ++ body = bytes ∧ content.length = downloaded.toNat
  | .ended (.returned (.ok ())) => found = some bytes
  | .ended _ => True

structure Faithful (bytes body : List UInt8) (found : Option (List UInt8)) (phase : Phase)
    (todo : List Effect) : Prop where
  harmless : Harmless bytes found todo
  consistent : Consistent bytes body (todo.foldl Effect.outcome found) phase

variable {bytes body : List UInt8} {found : Option (List UInt8)} {phase : Phase}

theorem Harmless.isPart {todo : List Effect} (h : Harmless bytes found todo) : IsPart bytes found := by
  cases todo with
  | nil => exact h
  | cons effect effects => exact h.1

theorem Faithful.perform {effect : Effect} {todo : List Effect}
    (h : Faithful bytes body found phase (effect :: todo)) :
    Faithful bytes body (effect.outcome found) phase todo :=
  ⟨h.harmless.2, h.consistent⟩

theorem Faithful.fail {todo : List Effect} (h : Faithful bytes body found phase todo)
    (error : TransferError) : Faithful bytes body found (.ended (.returned (.error error))) [] :=
  ⟨h.harmless.isPart, trivial⟩

theorem toNat_ofNat_length (hfits : bytes.length < UInt64.size) :
    (UInt64.ofNat bytes.length).toNat = bytes.length :=
  UInt64.toNat_ofNat_of_lt' hfits

/-- A fetch begins with the length of the file that it finds. -/
theorem faithful_begin (hfits : bytes.length < UInt64.size) (h : IsPart bytes found) :
    Faithful bytes body found (begin (UInt64.ofNat ((found.map List.length).getD 0))).1
      (begin (UInt64.ofNat ((found.map List.length).getD 0))).2 := by
  refine ⟨⟨h, h⟩, fun hoffset => ?_⟩
  cases found with
  | none => exact absurd rfl hoffset
  | some content =>
    have hlength := (h content rfl).length_le
    exact ⟨content, rfl, (UInt64.toNat_ofNat_of_lt' (Nat.lt_of_le_of_lt hlength hfits)).symm⟩

inductive Learns (bytes : List UInt8) : Phase → List UInt8 → Signal → List UInt8 → Prop
  | head {offset : UInt64} {head : ResponseHead} {answer : List UInt8} (body : List UInt8)
      (h : Serves bytes (rangeFor offset) head answer) :
    Learns bytes (.waiting offset) body (.head head) answer
  | chunk (total : Option UInt64) (downloaded : UInt64) (chunk rest : List UInt8) :
    Learns bytes (.receiving total downloaded) (chunk ++ rest) (.chunk chunk) rest
  | bodyEnd (phase : Phase) (body : List UInt8) : Learns bytes phase body .bodyEnd body
  | lost (phase : Phase) (body : List UInt8) (message : String) (transient : Bool) :
    Learns bytes phase body (.lost message transient) body
  | stall (phase : Phase) (body : List UInt8) : Learns bytes phase body .stall body
  | cancel (phase : Phase) (body : List UInt8) : Learns bytes phase body .cancel body

theorem faithful_failWith (h : IsPart bytes found) (error : TransferError) :
    Faithful bytes body found (failWith error).1 (failWith error).2 :=
  ⟨h, trivial⟩

theorem faithful_onHead_fresh (hpart : IsPart bytes found) :
    Faithful bytes bytes found (.receiving (some (UInt64.ofNat bytes.length)) 0)
      [.openFresh, .report (.started 0 (some (UInt64.ofNat bytes.length)))] := by
  have hnil : IsPart bytes (some []) := isPart_some (List.nil_prefix)
  exact ⟨⟨hpart, hnil, hnil⟩, rfl, [], rfl, rfl, rfl⟩

theorem resized_self {content : List UInt8} {length : Nat} (h : content.length = length) :
    FileSystem.resized length content = content := by
  simp [FileSystem.resized, ← h]

/-- The part that a server sends from the offset on continues the content that was found. -/
theorem faithful_onPartial (hfits : bytes.length < UInt64.size) {content : List UInt8}
    (hbeginning : content <+: bytes) {offset : UInt64} (hlength : content.length = offset.toNat)
    (hoffset : offset.toNat < bytes.length) (length : Option UInt64) :
    Faithful bytes (bytes.drop offset.toNat) (some content)
      (onPartial offset
        ⟨206, some (ContentRange.restHeader offset.toNat bytes.length), length⟩).1
      (onPartial offset
        ⟨206, some (ContentRange.restHeader offset.toNat bytes.length), length⟩).2 := by
  have hrange : (ResponseHead.mk 206 (some (ContentRange.restHeader offset.toNat bytes.length))
      length).range = ⟨some offset, some (UInt64.ofNat bytes.length)⟩ := by
    simp [ResponseHead.range, ContentRange.parse?_restHeader hoffset hfits]
  have hpart : IsPart bytes (some content) := isPart_some hbeginning
  have hopened : Effect.outcome (some content) (.openAt offset) = some content := by
    simp [Effect.outcome, resized_self hlength]
  have hrest : content ++ bytes.drop offset.toNat = bytes := by
    obtain ⟨rest, rfl⟩ := hbeginning
    rw [← hlength, List.drop_left]
  unfold onPartial
  simp only [hrange, ne_eq, not_true_eq_false, if_false]
  refine ⟨⟨hpart, ?_, ?_⟩, rfl, content, ?_, hrest, hlength⟩
  · rwa [hopened]
  · rwa [hopened]
  · exact hopened

theorem faithful_onUnsatisfiable {content : List UInt8} (hbeginning : content <+: bytes)
    {offset : UInt64} (hlength : content.length = offset.toNat) {head : ResponseHead}
    (htotal : ∀ total, head.range.total = some total → total.toNat = bytes.length) :
    Faithful bytes body (some content) (onUnsatisfiable offset head).1
      (onUnsatisfiable offset head).2 := by
  have hpart : IsPart bytes (some content) := isPart_some hbeginning
  unfold onUnsatisfiable
  split
  · next hrange =>
    refine ⟨⟨hpart, hpart⟩, ?_⟩
    have hall := hbeginning.eq_of_length (by rw [hlength, htotal offset hrange])
    exact congrArg some hall
  · exact ⟨⟨hpart, hpart⟩, fun h => absurd rfl h⟩

theorem rangeFor_eq_some {offset n : UInt64} (h : rangeFor offset = some n) :
    offset ≠ 0 ∧ n = offset := by
  unfold rangeFor at h
  split at h
  · cases h
  · next hne =>
    cases h
    exact ⟨hne, rfl⟩

/-- Whichever answer the server gives to the request, the file is begun anew, continued where it
ends or left alone. -/
theorem faithful_onHead (hfits : bytes.length < UInt64.size) {offset : UInt64}
    (h : Faithful bytes body found (.waiting offset) []) {head : ResponseHead}
    {answer : List UInt8} (hserves : Serves bytes (rangeFor offset) head answer) (url : String) :
    Faithful bytes answer found (onHead url offset head).1 (onHead url offset head).2 := by
  have hpart : IsPart bytes found := h.harmless
  have hwaiting : offset ≠ 0 → ∃ content, found = some content ∧ content.length = offset.toNat :=
    h.consistent
  have hunsatisfiable (hoffset : offset ≠ 0) (answer : List UInt8) {head : ResponseHead}
      (htotal : ∀ total, head.range.total = some total → total.toNat = bytes.length) :
      Faithful bytes answer found (onUnsatisfiable offset head).1
        (onUnsatisfiable offset head).2 := by
    obtain ⟨content, rfl, hlength⟩ := hwaiting hoffset
    exact faithful_onUnsatisfiable (hpart content rfl) hlength htotal
  generalize hrange : rangeFor offset = range at hserves
  cases hserves with
  | whole range contentRange => exact faithful_onHead_fresh hpart
  | rest hoffset length =>
    obtain ⟨hne, rfl⟩ := rangeFor_eq_some hrange
    obtain ⟨content, rfl, hlength⟩ := hwaiting hne
    unfold onHead
    rw [if_neg (by simp), if_pos ⟨rfl, hne⟩]
    exact faithful_onPartial hfits (hpart content rfl) hlength hoffset length
  | beyond hoffset length =>
    obtain ⟨hne, rfl⟩ := rangeFor_eq_some hrange
    unfold onHead
    rw [if_pos ⟨rfl, hne⟩]
    refine hunsatisfiable hne answer fun total htotal => ?_
    have hheader : (ContentRange.parse? (ContentRange.beyondHeader bytes.length)) =
        some ⟨none, some (UInt64.ofNat bytes.length)⟩ := ContentRange.parse?_beyondHeader hfits
    simp only [ResponseHead.range, Option.bind_some, hheader, Option.getD_some,
      Option.some.injEq] at htotal
    rw [← htotal, toNat_ofNat_length hfits]
  | refused range hfailure htotal =>
    unfold onHead
    split
    · next hstatus => exact hunsatisfiable hstatus.2 answer fun total => htotal total hstatus.1
    · split
      · next hstatus => simp [ResponseHead.isSuccess, hstatus.1] at hfailure
      · rw [hfailure, if_neg (by simp)]
        exact faithful_failWith hpart _

/-- A piece of the body is appended before the next one is heard of. -/
theorem faithful_onChunk (hfits : bytes.length < UInt64.size) {total : Option UInt64}
    {downloaded : UInt64} {chunk rest : List UInt8}
    (h : Faithful bytes (chunk ++ rest) found (.receiving total downloaded) []) :
    Faithful bytes rest found (onChunk total downloaded chunk).1 (onChunk total downloaded chunk).2 := by
  obtain ⟨htotal, content, hfound, hwhole, hlength⟩ := h.consistent
  have hpart : IsPart bytes found := h.harmless
  change found = some content at hfound
  subst hfound
  have hmore : content ++ chunk ++ rest = bytes := by rw [List.append_assoc, hwhole]
  have happended : IsPart bytes (some (content ++ chunk)) := isPart_some ⟨rest, hmore⟩
  have hsum : content.length + chunk.length ≤ bytes.length := by
    rw [← hmore, List.length_append, List.length_append]
    exact Nat.le_add_right _ _
  have hchunk : (UInt64.ofNat chunk.length).toNat = chunk.length :=
    UInt64.toNat_ofNat_of_lt' (show chunk.length < UInt64.size by omega)
  rw [onChunk]
  cases hreached : Counter.add64 downloaded (UInt64.ofNat chunk.length) with
  | ok reached =>
    refine ⟨⟨hpart, happended, happended⟩, htotal, content ++ chunk, rfl, hmore, ?_⟩
    rw [(Counter.add64_eq_ok hreached).2, hchunk, ← hlength, List.length_append]
  | error overflow =>
    -- no more comes in than the server holds
    have hlarge := (Counter.add64_eq_error hreached).1
    omega

/-- A body that ends early is not taken for the whole. -/
theorem faithful_onBodyEnd (hfits : bytes.length < UInt64.size) {total : Option UInt64}
    {downloaded : UInt64} (h : Faithful bytes body found (.receiving total downloaded) []) :
    Faithful bytes body found (onBodyEnd total downloaded).1 (onBodyEnd total downloaded).2 := by
  obtain ⟨rfl, content, hfound, hwhole, hlength⟩ := h.consistent
  have hpart : IsPart bytes found := h.harmless
  unfold onBodyEnd
  dsimp only
  split
  · exact faithful_failWith hpart _
  · next hlong =>
    rw [UInt64.lt_iff_toNat_lt, toNat_ofNat_length hfits, ← hlength] at hlong
    have hbeginning : content <+: bytes := ⟨body, hwhole⟩
    have hall := hbeginning.eq_of_length (Nat.le_antisymm hbeginning.length_le (Nat.le_of_not_lt hlong))
    exact ⟨hpart, hfound.trans (congrArg some hall)⟩

/-- Whatever a fetch learns, it stays faithful. -/
theorem Faithful.step (hfits : bytes.length < UInt64.size) {rest : List UInt8} {signal : Signal}
    (h : Faithful bytes body found phase []) (hlearns : Learns bytes phase body signal rest)
    (request : FetchRequest) (stallSecs : UInt64) :
    Faithful bytes rest found (step request stallSecs phase signal).1
      (step request stallSecs phase signal).2 := by
  have hpart : IsPart bytes found := h.harmless
  cases hlearns with
  | head body hserves => exact faithful_onHead hfits h hserves request.url
  | chunk total downloaded chunk rest => exact faithful_onChunk hfits h
  | bodyEnd =>
    cases phase with
    | waiting offset => exact h
    | receiving total downloaded => exact faithful_onBodyEnd hfits h
    | ended result => exact h
  | lost =>
    cases phase with
    | ended result => exact h
    | _ => exact faithful_failWith hpart _
  | stall =>
    cases phase with
    | waiting offset => exact h
    | receiving total downloaded => exact faithful_failWith hpart _
    | ended result => exact h
  | cancel =>
    cases phase with
    | ended result => exact h
    | _ => exact faithful_failWith hpart _

/-- An effect that is performed touches the file at the destination only. -/
theorem perform_ok {destination : Path} {run after : Run} {effect : Effect}
    (h : run.files.Sound) (hresolved : destination.Resolved)
    (hperform : perform destination run effect = .ok after) :
    FileSystem.Edits run.files after.files (· = run.files.placeOf destination) ∧
      after.files.content? destination = effect.outcome (run.files.content? destination) := by
  -- directories that are made on the way do not change the file
  have hroom {roomy : FileSystem} (hroomy : run.files.makeRoomFor destination = .ok roomy) :
      roomy.placeOf destination = run.files.placeOf destination ∧
        FileSystem.Edits run.files roomy (· = run.files.placeOf destination) ∧
        roomy.content? destination = run.files.content? destination := by
    have hedits := FileSystem.edits_makeRoomFor h hroomy
    refine ⟨?_, hedits.mono fun _ => False.elim, hedits.content? h hresolved id⟩
    unfold FileSystem.placeOf
    rw [hedits.cwd]
  cases effect with
  | send range =>
    cases hperform
    exact ⟨.refl h, rfl⟩
  | report progress =>
    cases hperform
    exact ⟨.refl h, rfl⟩
  | append bytes =>
    obtain ⟨files, happend, hperform⟩ := FileSystem.bind_eq_ok.mp hperform
    cases hperform
    have hwrites := FileSystem.writes_append h happend
    exact ⟨hwrites.edits, hwrites.content? hresolved⟩
  | openAt offset =>
    obtain ⟨roomy, hroomy, hperform⟩ := FileSystem.bind_eq_ok.mp hperform
    obtain ⟨files, hset, hperform⟩ := FileSystem.bind_eq_ok.mp hperform
    cases hperform
    obtain ⟨hplace, hedits, hcontent⟩ := hroom hroomy
    have hwrites := FileSystem.writes_setLength hedits.sound hset
    refine ⟨hedits.trans (hplace ▸ hwrites.edits), ?_⟩
    rw [hwrites.content? hresolved, hcontent]
    rfl
  | openFresh =>
    obtain ⟨roomy, hroomy, hperform⟩ := FileSystem.bind_eq_ok.mp hperform
    obtain ⟨files, hcreate, hperform⟩ := FileSystem.bind_eq_ok.mp hperform
    cases hperform
    obtain ⟨hplace, hedits, hcontent⟩ := hroom hroomy
    have hwrites := FileSystem.writes_create hedits.sound hcreate
    refine ⟨hedits.trans (hplace ▸ hwrites.edits), ?_⟩
    rw [hwrites.content? hresolved]
    rfl

end Fetch

end DownloadQueue
