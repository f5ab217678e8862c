import DownloadQueue.Proofs.FileSystem.Moves
import DownloadQueue.Proofs.Json.RoundTrip
import DownloadQueue.Proofs.Table
import DownloadQueue.Proofs.Timestamp

namespace DownloadQueue

namespace Json

theorem toNatBelow?_ofNat {n bound : Nat} (h : n < bound) :
    (Json.ofNat n).toNatBelow? bound = some n := by
  rw [Json.ofNat, toNatBelow?, Numeral.toNat?_ofNat]
  simp only [h, if_true]

theorem toUInt64?_ofNat (n : UInt64) : (Json.ofNat n.toNat).toUInt64? = some n := by
  rw [toUInt64?, toNatBelow?_ofNat n.toNat_lt, Option.map_some, UInt64.ofNat_toNat]

theorem toUInt32?_ofNat (n : UInt32) : (Json.ofNat n.toNat).toUInt32? = some n := by
  rw [toUInt32?, toNatBelow?_ofNat n.toNat_lt, Option.map_some, UInt32.ofNat_toNat]

theorem toText?_ofText (text : String) : (Json.ofText text).toText? = some text :=
  rfl

end Json

theorem toUInt64?_countJson (n : UInt64) : (countJson n).toUInt64? = some n :=
  Json.toUInt64?_ofNat n

theorem ItemId.ofJson?_toJson (id : ItemId) : ItemId.ofJson? id.toJson = some id := by
  rw [ItemId.toJson, ItemId.ofJson?, Json.toUInt64?_ofNat, Option.map_some]

theorem Status.ofName?_name (status : Status) : Status.ofName? status.name = some status := by
  cases status <;> rfl

theorem Status.ofJson?_toJson (status : Status) :
    Status.ofJson? false status.toJson = some status :=
  Status.ofName?_name status

theorem Timestamp.ofJson?_toJson (instant : Timestamp) :
    Timestamp.ofJson? instant.toJson = some instant := by
  rw [Timestamp.toJson, Timestamp.ofJson?, Json.toText?_ofText, Option.bind_some,
    String.toList_ofList, Timestamp.ofText?_text]

namespace Item

/-- What the record of an item says about its fields. -/
theorem slots?_toJson (item : Item) : item.toJson.slots? keys = some
    [.given item.id.toJson, .given (.ofText item.sourceUrl), .given item.destination.toJson,
      .given item.status.toJson, .given (countJson item.bytesDownloaded),
      .given (.ofOption countJson item.bytesTotal), .given (.ofNat item.attempts.toNat),
      (match item.lastError with
        | none => .omitted
        | some error => .given (.ofText error)),
      .given item.addedAt.toJson] := by
  rw [toJson]
  cases item.lastError <;> rfl

theorem nullable_ofOption (total : Option UInt64) :
    Json.Slot.nullable Json.toUInt64? (.ofOption countJson total) = some total := by
  cases total with
  | none => rfl
  | some n => exact congrArg (Option.map some) (Json.toUInt64?_ofNat n)

/-- An item is read back from its record. -/
theorem ofJson?_toJson (item : Item) : ofJson? item.toJson = some item := by
  have hdestination : Path.ofJson? item.destination.toJson = some item.destination := rfl
  rw [ofJson?, slots?_toJson]
  simp only [Option.bind_eq_bind, Option.bind_some, Json.Slot.required, Json.Slot.optional,
    ItemId.ofJson?_toJson, Json.toText?_ofText, hdestination, Status.ofJson?_toJson,
    toUInt64?_countJson, nullable_ofOption, Json.toUInt32?_ofNat, Timestamp.ofJson?_toJson, Option.pure_def]
  obtain ⟨id, sourceUrl, destination, status, downloaded, total, attempts, lastError, addedAt⟩ := item
  cases lastError <;> rfl

/-- A record is written with texts and natural numbers only. -/
theorem plain_toJson (item : Item) : item.toJson.Plain := by
  have hmember (key : String) {value : Json} (hvalue : value.Plain)
      {members : List (Option String × Json)} (hmembers : Json.PlainMembers members) :
      Json.PlainMembers ((some key, value) :: members) := ⟨⟨key, rfl⟩, hvalue, hmembers⟩
  have htext (text : String) : (Json.ofText text).Plain := ⟨text, rfl⟩
  have hnumber (n : Nat) : (Json.ofNat n).Plain := ⟨n, rfl⟩
  have htotal : (Json.ofOption countJson item.bytesTotal).Plain := by
    cases item.bytesTotal with
    | none => trivial
    | some n => exact hnumber _
  rw [toJson]
  cases item.lastError with
  | none =>
    exact hmember _ (hnumber _) (hmember _ (htext _) (hmember _ (htext _) (hmember _ (htext _)
      (hmember _ (hnumber _) (hmember _ htotal (hmember _ (hnumber _) (hmember _ (htext _)
        trivial)))))))
  | some error =>
    exact hmember _ (hnumber _) (hmember _ (htext _) (hmember _ (htext _) (hmember _ (htext _)
      (hmember _ (hnumber _) (hmember _ htotal (hmember _ (hnumber _) (hmember _ (htext _)
        (hmember _ (htext _) trivial))))))))

end Item

namespace QueueFile

theorem mapM_ofJson?_toJson (items : List Item) :
    (items.map Item.toJson).mapM Item.ofJson? = some items := by
  induction items with
  | nil => rfl
  | cons item items ih =>
    rw [List.map_cons, List.mapM_cons, ih, Item.ofJson?_toJson]
    rfl

theorem plainElements_toJson (items : List Item) :
    Json.PlainElements (items.map Item.toJson) := by
  induction items with
  | nil => trivial
  | cons item items ih => exact ⟨item.plain_toJson, ih⟩

theorem Document.plain_toJson (document : Document) : document.toJson.Plain :=
  ⟨⟨_, rfl⟩, ⟨_, rfl⟩, ⟨_, rfl⟩, plainElements_toJson document.items, trivial⟩

theorem Document.ofJson?_toJson (document : Document) :
    Document.ofJson? document.toJson = some document := by
  have hslots : document.toJson.slots? ["version", "items"] =
      some [.given (.ofNat document.version.toNat),
        .given (.array (document.items.map Item.toJson))] := rfl
  have hitems : itemsOfJson? (.array (document.items.map Item.toJson)) = some document.items :=
    mapM_ofJson?_toJson document.items
  rw [Document.ofJson?, hslots]
  simp only [Option.bind_eq_bind, Option.bind_some, Json.Slot.required, Json.toUInt32?_ofNat,
    hitems, Option.pure_def]

theorem firstDuplicate?_of_nodup {seen ids : List ItemId} (hnodup : ids.Nodup)
    (hfresh : ∀ id ∈ ids, id ∉ seen) : firstDuplicate? seen ids = none := by
  induction ids generalizing seen with
  | nil => rfl
  | cons id ids ih =>
    rw [List.nodup_cons] at hnodup
    rw [firstDuplicate?, if_neg (hfresh id List.mem_cons_self)]
    refine ih hnodup.2 fun other hmem => ?_
    rw [List.mem_cons, not_or]
    exact ⟨fun heq => hnodup.1 (heq ▸ hmem), hfresh other (List.mem_cons_of_mem _ hmem)⟩

/-- A document with distinct numbers is read back. -/
theorem parse_pretty (path : Path) {items : List Item} (hnodup : (items.map Item.id).Nodup) :
    parse path (Json.encodeUtf8 (Document.toJson ⟨formatVersion, items⟩).pretty) = .ok items := by
  have hunique : firstDuplicate? [] (items.map Item.id) = none :=
    firstDuplicate?_of_nodup hnodup fun _ _ => List.not_mem_nil
  rw [parse, Json.parse?_pretty (Document.plain_toJson _), Option.bind_some,
    Document.ofJson?_toJson]
  simp only [ne_eq, not_true_eq_false, if_false, hunique]

/-- What a save has written is read back. -/
theorem parse_render (path : Path) {items : List Item} (hnodup : (items.map Item.id).Nodup) :
    parse path (render items) = .ok (kept items) :=
  parse_pretty path (hnodup.sublist (List.filter_sublist.map _))

def Reserved (cwd : Place) (queueFile : Path) (place : Place) : Prop :=
  place = Path.fold cwd queueFile.components ∨
    place = Path.fold cwd (temporary queueFile).components

open FileSystem in
theorem edits_replace {fs written other : FileSystem} {path : Path} {content : List UInt8}
    (hwrites : Writes fs written (temporary path) fun _ => content)
    (hreplace : written.rename (temporary path) path = .ok other) :
    Edits fs other (Reserved fs.cwd path) ∧ other.read path = .ok content := by
  have hcwd := hwrites.edits.cwd
  have htemporary : written.placeOf (temporary path) = fs.placeOf (temporary path) := by
    unfold placeOf
    rw [hcwd]
  obtain ⟨hedits, hread⟩ := hwrites.edits.sound.rename (htemporary ▸ hwrites.fileAt) hreplace
  refine ⟨(hwrites.edits.mono fun _ => .inr).trans (hedits.mono ?_), hread⟩
  unfold placeOf
  rw [hcwd]
  exact fun place => Or.symm

open FileSystem in
/-- A save that succeeds leaves what was to be saved in the queue file; one that fails has changed
the temporary file at most. -/
theorem save_cases {fs : FileSystem} (h : fs.Sound) (path : Path) (items : List Item) :
    ((save fs path items).2 = .ok () ∧ Edits fs (save fs path items).1 (Reserved fs.cwd path) ∧
        (save fs path items).1.read path = .ok (render items)) ∨
      (∃ error, (save fs path items).2 = .error error) ∧
        Edits fs (save fs path items).1 (· = fs.placeOf (temporary path)) := by
  unfold save saveSteps
  simp only [runSteps, SaveStep.run]
  cases hroom : fs.makeRoomFor path with
  | error error =>
    exact .inr ⟨⟨_, rfl⟩, (edits_roomLeft h path).mono fun _ => False.elim⟩
  | ok fs₁ =>
    have hedits := edits_makeRoomFor h hroom
    have hcwd₁ := hedits.cwd
    have htemporary : fs₁.placeOf (temporary path) = fs.placeOf (temporary path) := by
      rw [placeOf, hcwd₁, placeOf]
    have hroomy {touched : Place → Prop} : Edits fs fs₁ touched := hedits.mono fun _ => False.elim
    dsimp only
    cases hcreate : fs₁.create (temporary path) with
    | error error => exact .inr ⟨⟨_, rfl⟩, hroomy⟩
    | ok fs₂ =>
      have hcreated := writes_create hedits.sound hcreate
      dsimp only
      cases happend : fs₂.append (temporary path) (render items) with
      | error error => exact .inr ⟨⟨_, rfl⟩, hroomy.trans (htemporary ▸ hcreated.edits)⟩
      | ok fs₃ =>
        have hwritten := hcreated.trans (writes_append hcreated.edits.sound happend)
        dsimp only
        cases hreplace : fs₃.rename (temporary path) path with
        | error error => exact .inr ⟨⟨_, rfl⟩, hroomy.trans (htemporary ▸ hwritten.edits)⟩
        | ok fs₄ =>
          obtain ⟨hreplaced, hread⟩ := edits_replace hwritten hreplace
          rw [hcwd₁] at hreplaced
          exact .inl ⟨rfl, hroomy.trans hreplaced, hread⟩

open FileSystem in
/-- A save leaves other files alone; if it succeeds, the queue file holds what was to be saved. -/
theorem edits_save {fs : FileSystem} (h : fs.Sound) (path : Path) (items : List Item) :
    Edits fs (save fs path items).1 (Reserved fs.cwd path) ∧
      ((save fs path items).2 = .ok () → (save fs path items).1.read path = .ok (render items)) := by
  rcases save_cases h path items with ⟨-, hedits, hread⟩ | ⟨⟨error, hfails⟩, hedits⟩
  · exact ⟨hedits, fun _ => hread⟩
  · refine ⟨hedits.mono fun _ => .inr, fun hsaved => ?_⟩
    rw [hfails] at hsaved
    cases hsaved

/-- A path under which a written queue is read gives the queue back. -/
theorem load_of_read {fs : FileSystem} {path : Path} {items : List Item}
    (hnodup : (items.map Item.id).Nodup) (hread : fs.read path = .ok (render items)) :
    load fs path = .ok (kept items) := by
  rw [load, hread]
  exact parse_render path hnodup

/-- The removal of another file leaves the queue that is loaded. -/
theorem load_removePartial {fs : FileSystem} (h : fs.Sound) {path destination : Path}
    (hplace : fs.placeOf path ≠ fs.placeOf destination) {items : List Item}
    (hload : load fs path = .ok items) :
    load ((fs.removePartial destination).toOption.getD fs) path = .ok items := by
  have hread : fs.read path ≠ .error .notDirectory := by
    intro hread
    rw [load, hread] at hload
    cases hload
  rw [load, h.read_removePartial hplace hread, ← load, hload]

/-- Whatever is saved is loaded again, all fields of every item and their order included, apart from
the deleted items; so a file that loads is taken over by a load and a save. -/
theorem load_save (path : Path) :
    (∀ items : List Item, (items.map Item.id).Nodup →
      parse path (render items) = .ok (kept items) ∧
      ∀ fs : FileSystem, fs.Sound → (save fs path items).2 = .ok () →
        (save fs path items).1.read path = .ok (render items) ∧
        load (save fs path items).1 path = .ok (kept items)) ∧
    ∀ (fs : FileSystem) (items : List Item), fs.Sound → load fs path = .ok items →
      (save fs path items).2 = .ok () → load (save fs path items).1 path = .ok (kept items) := by
  have hsaves (items : List Item) (hnodup : (items.map Item.id).Nodup) (fs : FileSystem)
      (hsound : fs.Sound) (hsaved : (save fs path items).2 = .ok ()) :
      (save fs path items).1.read path = .ok (render items) ∧
        load (save fs path items).1 path = .ok (kept items) := by
    have hread := (edits_save hsound path items).2 hsaved
    exact ⟨hread, load_of_read hnodup hread⟩
  constructor
  · intro items hnodup
    exact ⟨parse_render path hnodup, hsaves items hnodup⟩
  · intro fs items hsound hload hsaved
    -- a file with a number twice does not load, so what was loaded has distinct numbers
    exact (hsaves items (nodup_of_load hload) fs hsound hsaved).2

/-- Items with quotes, a backslash, control characters and a character beyond the first plane, with
the largest numbers, in a leap second, and one deleted item between them. -/
def unwieldy : List Item :=
  [{ id := ⟨0xFFFFFFFFFFFFFFFF⟩, sourceUrl := "http://h/\"\\\x00\x1f\x7f😀", destination := ⟨"/d/\n\t/é"⟩,
     status := .failed, bytesDownloaded := 0xFFFFFFFFFFFFFFFF, bytesTotal := some 0,
     attempts := 0xFFFFFFFF, lastError := some "",
     addedAt :=
       { date := ⟨2016, 12, 31, by decide, by decide, by decide⟩
         time := ⟨23, 59, 60, 123456789, by decide, by decide, by decide, by decide⟩ } },
   { Item.new ⟨7⟩ "" ⟨"/d/b"⟩ .epoch with status := .deleted },
   { Item.new ⟨0⟩ "u" ⟨""⟩ .epoch with status := .alreadyDownloaded }]

theorem load_save_unwieldy :
    (save .empty ⟨"/q"⟩ unwieldy).2 = .ok () ∧
    load (save .empty ⟨"/q"⟩ unwieldy).1 ⟨"/q"⟩ = .ok (kept unwieldy) ∧
    (kept unwieldy).map Item.id = [⟨0xFFFFFFFFFFFFFFFF⟩, ⟨0⟩] := by
  have hsound : FileSystem.empty.Sound := .flat fun _ hentry => absurd hentry List.not_mem_nil
  have hsaved : (save .empty ⟨"/q"⟩ unwieldy).2 = .ok () := by rfl
  have hnodup : (unwieldy.map Item.id).Nodup := by decide
  have hsaves := ((load_save ⟨"/q"⟩).1 unwieldy hnodup).2 .empty hsound hsaved
  exact ⟨hsaved, hsaves.2, by decide⟩

end QueueFile

end DownloadQueue
