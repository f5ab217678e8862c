import DownloadQueue.Proofs.Table

namespace DownloadQueue.Table

variable {table after : Table} {item old : Item} {before behind : List Item} {id : ItemId}

theorem Sound.ne_of_split (h : table.Sound) (hitems : table.items = before ++ old :: behind)
    {other : Item} (hmem : other ∈ before) : other.id ≠ old.id := by
  have hnodup := h.nodup
  rw [hitems, List.map_append, List.map_cons, List.nodup_append] at hnodup
  exact hnodup.2.2 other.id (List.mem_map_of_mem hmem) old.id List.mem_cons_self

theorem replaceFirst_split (hbefore : ∀ other ∈ before, other.id ≠ old.id) (change : Item → Item) :
    replaceFirst old.id change (before ++ old :: behind) = before ++ change old :: behind := by
  induction before with
  | nil => exact if_pos rfl
  | cons first before ih =>
    rw [List.cons_append, replaceFirst, if_neg (hbefore first List.mem_cons_self),
      ih fun other hmem => hbefore other (List.mem_cons_of_mem _ hmem)]
    rfl

/-- The item of a sound table with some number is changed in its place. -/
theorem Sound.items_modify (h : table.Sound) (hitems : table.items = before ++ old :: behind)
    (change : Item → Item) : (table.modify old.id change).items = before ++ change old :: behind := by
  change replaceFirst old.id change table.items = _
  rw [hitems]
  exact replaceFirst_split (fun _ hmem => h.ne_of_split hitems hmem) change

theorem Sound.remove_eq (h : table.Sound) (hitems : table.items = before ++ old :: behind) :
    table.remove old.id = (some old, { table with items := before ++ behind }) := by
  have hmem : old ∈ table.items := by simp [hitems]
  have herase : table.items.eraseP (fun item => item.id = old.id) = before ++ behind := by
    rw [hitems, List.eraseP_append_right _ fun other hother => ?_]
    · rw [List.eraseP_cons_of_pos (by simp)]
    · simpa using h.ne_of_split hitems hother
  rw [remove, h.get?_of_mem hmem, herase]

theorem remove_of_not_mem (h : id ∉ table.items.map Item.id) : table.remove id = (none, table) := by
  have herase : table.items.eraseP (fun item => item.id = id) = table.items := by
    refine List.eraseP_of_forall_not fun other hmem => ?_
    simpa using fun heq : other.id = id => h (heq ▸ List.mem_map_of_mem hmem)
  rw [remove, get?_eq_none_iff.mpr h, herase]

theorem contains_iff : table.contains id = true ↔ id ∈ table.items.map Item.id := by
  simp [contains]

theorem items_place (table : Table) (item : Item) :
    (table.place item).items =
      if table.contains item.id then replaceFirst item.id (fun _ => item) table.items
      else table.items ++ [item] := by
  unfold place
  split <;> rfl

theorem nextId_place (table : Table) (item : Item) : (table.place item).nextId = table.nextId := by
  unfold place
  split <;> rfl

/-- An item goes to the place of the one with its number, and all others stay. -/
theorem Sound.items_place_of_split (h : table.Sound)
    (hitems : table.items = before ++ old :: behind) (hid : old.id = item.id) :
    (table.place item).items = before ++ item :: behind := by
  have hcontains : table.contains item.id = true := by
    rw [contains_iff, ← hid, hitems]
    simp
  rw [items_place, if_pos hcontains, ← hid]
  exact h.items_modify hitems fun _ => item

theorem items_place_of_not_mem (h : item.id ∉ table.items.map Item.id) :
    (table.place item).items = table.items ++ [item] := by
  rw [items_place, if_neg fun hcontains => h (contains_iff.mp hcontains)]

/-- An item that is put in stands in the place of the one with its number, or behind all others, and
the next number is beyond its own and no smaller than before. -/
theorem upsert_eq_ok (h : table.upsert item = .ok after) :
    after.items = (table.place item).items ∧ item.id.value.toNat < after.nextId.toNat ∧
      table.nextId.toNat ≤ after.nextId.toNat := by
  have hitems (next : UInt64) : ({ table with nextId := next }.place item).items =
      (table.place item).items := by
    rw [items_place, items_place]
    rfl
  rw [upsert] at h
  split at h
  · next hle =>
    rw [UInt64.le_iff_toNat_le] at hle
    cases hnext : Counter.next64 item.id.value with
    | error overflow =>
      rw [hnext] at h
      cases h
    | ok next =>
      obtain ⟨-, hvalue⟩ := Counter.next64_eq_ok hnext
      rw [hnext] at h
      cases h
      rw [nextId_place]
      refine ⟨hitems next, ?_, ?_⟩ <;> dsimp only <;> omega
  · next hlt =>
    cases h
    rw [UInt64.le_iff_toNat_le, Nat.not_le] at hlt
    rw [nextId_place]
    exact ⟨rfl, hlt, Nat.le_refl _⟩

/-- The number that is given away is the next one, and the one after it becomes the next. -/
theorem takeId_eq_ok (h : table.takeId = .ok (id, after)) :
    id.value = table.nextId ∧ after.items = table.items ∧
      table.nextId.toNat < after.nextId.toNat := by
  cases hnext : Counter.next64 table.nextId with
  | error overflow =>
    rw [takeId, hnext] at h
    cases h
  | ok next =>
    obtain ⟨-, hvalue⟩ := Counter.next64_eq_ok hnext
    rw [takeId, hnext] at h
    cases h
    refine ⟨rfl, rfl, ?_⟩
    dsimp only
    omega

theorem exists_split_of_mem (h : id ∈ table.items.map Item.id) :
    ∃ before old behind, table.items = before ++ old :: behind ∧ old.id = id := by
  obtain ⟨old, hmem, hid⟩ := List.mem_map.mp h
  obtain ⟨before, behind, hitems⟩ := List.append_of_mem hmem
  exact ⟨before, old, behind, hitems, hid⟩

/-- A put under a known number changes no number, and one under a new number raises the next one. -/
theorem Sound.upsert (h : table.Sound) (hupsert : table.upsert item = .ok after) : after.Sound := by
  obtain ⟨hitems, hnew, hnext⟩ := upsert_eq_ok hupsert
  have hbelow (other : Item) (hmem : other ∈ table.items) :
      other.id.value.toNat < after.nextId.toNat := Nat.lt_of_lt_of_le (h.lt_nextId other hmem) hnext
  by_cases hmem : item.id ∈ table.items.map Item.id
  · obtain ⟨before, old, behind, hsplit, hid⟩ := exists_split_of_mem hmem
    have hplace := hitems.trans (h.items_place_of_split hsplit hid)
    have hids : after.items.map Item.id = table.items.map Item.id := by
      rw [hplace, hsplit, List.map_append, List.map_append, List.map_cons, List.map_cons, hid]
    refine ⟨hids ▸ h.nodup, fun other hother => ?_⟩
    have hother := List.mem_map_of_mem (f := Item.id) hother
    rw [hids] at hother
    obtain ⟨same, hsame, heq⟩ := List.mem_map.mp hother
    exact heq ▸ hbelow same hsame
  · have hplace := hitems.trans (items_place_of_not_mem hmem)
    constructor
    · rw [hplace, List.map_append, List.nodup_append]
      refine ⟨h.nodup, by simp, fun one hone two htwo heq => hmem ?_⟩
      rw [List.map_cons, List.map_nil, List.mem_singleton] at htwo
      exact htwo ▸ heq ▸ hone
    · intro other hother
      rw [hplace, List.mem_append, List.mem_singleton] at hother
      rcases hother with hother | rfl
      · exact hbelow other hother
      · exact hnew

inductive Interleaves {α : Type} : List α → List α → List α → Prop
  | nil : Interleaves [] [] []
  | left {a : α} {first second whole : List α} (h : Interleaves first second whole) :
    Interleaves (a :: first) second (a :: whole)
  | right {a : α} {first second whole : List α} (h : Interleaves first second whole) :
    Interleaves first (a :: second) (a :: whole)

theorem interleaves_filter {α : Type} (keep : α → Bool) (whole : List α) :
    Interleaves (whole.filter keep) (whole.filter fun a => !keep a) whole := by
  induction whole with
  | nil => exact .nil
  | cons a whole ih =>
    cases hkeep : keep a with
    | true =>
      rw [List.filter_cons_of_pos hkeep, List.filter_cons_of_neg (by simp [hkeep])]
      exact .left ih
    | false =>
      rw [List.filter_cons_of_neg (by simp [hkeep]), List.filter_cons_of_pos (by simp [hkeep])]
      exact .right ih

inductive Edit
  | upsert (item : Item)
  | takeId
  | remove (id : ItemId)
  | retain (keep : Item → Bool)
  | modify (id : ItemId) (change : Item → Item) (hid : ∀ item, (change item).id = item.id)

/-- A table with the numbers that items of it had or that it gave away. -/
structure Ledger where
  table : Table
  known : List ItemId

namespace Ledger

def edit (ledger : Ledger) : Edit → Except Overflow Ledger
  | .upsert item => (ledger.table.upsert item).map fun table => ⟨table, item.id :: ledger.known⟩
  | .takeId => ledger.table.takeId.map fun (id, table) => ⟨table, id :: ledger.known⟩
  | .remove id => .ok ⟨(ledger.table.remove id).2, ledger.known⟩
  | .retain keep => .ok ⟨(ledger.table.retain keep).2, ledger.known⟩
  | .modify id change _ => .ok ⟨ledger.table.modify id change, ledger.known⟩

structure Sound (ledger : Ledger) : Prop where
  table : ledger.table.Sound
  known : ∀ id ∈ ledger.known, id.value.toNat < ledger.table.nextId.toNat

variable {ledger next : Ledger}

/-- The step lemma: no edit gives a number away again. -/
theorem Sound.edit (h : ledger.Sound) {edit : Edit} (hedit : ledger.edit edit = .ok next) :
    next.Sound := by
  cases edit with
  | upsert item =>
    cases hupsert : ledger.table.upsert item with
    | error overflow =>
      rw [Ledger.edit, hupsert] at hedit
      cases hedit
    | ok table =>
      rw [Ledger.edit, hupsert] at hedit
      cases hedit
      obtain ⟨-, hnew, hnext⟩ := upsert_eq_ok hupsert
      exact ⟨h.table.upsert hupsert, List.forall_mem_cons.mpr
        ⟨hnew, fun id hmem => Nat.lt_of_lt_of_le (h.known id hmem) hnext⟩⟩
  | takeId =>
    cases htake : ledger.table.takeId with
    | error overflow =>
      rw [Ledger.edit, htake] at hedit
      cases hedit
    | ok taken =>
      obtain ⟨id, after⟩ := taken
      rw [Ledger.edit, htake] at hedit
      cases hedit
      obtain ⟨hid, hitems, hnext⟩ := takeId_eq_ok htake
      refine ⟨⟨hitems ▸ h.table.nodup, fun item hmem => ?_⟩,
        List.forall_mem_cons.mpr ⟨hid ▸ hnext, fun other hmem => ?_⟩⟩
      · exact Nat.lt_trans (h.table.lt_nextId item (hitems ▸ hmem)) hnext
      · exact Nat.lt_trans (h.known other hmem) hnext
  | remove id =>
    cases hedit
    exact ⟨h.table.sublist List.eraseP_sublist, h.known⟩
  | retain keep =>
    cases hedit
    exact ⟨h.table.filter keep, h.known⟩
  | modify id change hid =>
    cases hedit
    exact ⟨h.table.of_ids (ids_modify _ id change hid) rfl, h.known⟩

/-- The run lemma. -/
theorem Sound.edits (h : ledger.Sound) {edits : List Edit}
    (hedits : edits.foldlM Ledger.edit ledger = .ok next) : next.Sound := by
  induction edits generalizing ledger with
  | nil =>
    cases hedits
    exact h
  | cons edit edits ih =>
    rw [List.foldlM_cons] at hedits
    cases hedit : ledger.edit edit with
    | error overflow =>
      rw [hedit] at hedits
      cases hedits
    | ok middle =>
      rw [hedit] at hedits
      exact ih (h.edit hedit) hedits

/-- What can be said of the numbers in a table and of every further edit of it. -/
structure Orderly (ledger : Ledger) : Prop where
  distinct : (ledger.table.items.map Item.id).Nodup
  below : ∀ item ∈ ledger.table.items, item.id.value < ledger.table.nextId
  taken : ∀ id after, ledger.table.takeId = .ok (id, after) →
    after.items = ledger.table.items ∧ ∀ other ∈ ledger.known, other.value < id.value
  replaced : ∀ item after, ledger.table.upsert item = .ok after → ∀ before old behind,
    ledger.table.items = before ++ old :: behind → old.id = item.id →
      after.items = before ++ item :: behind
  added : ∀ item after, ledger.table.upsert item = .ok after →
    item.id ∉ ledger.table.items.map Item.id → after.items = ledger.table.items ++ [item]
  removed : ∀ before old behind, ledger.table.items = before ++ old :: behind →
    ledger.table.remove old.id = (some old, { ledger.table with items := before ++ behind })
  missed : ∀ id, id ∉ ledger.table.items.map Item.id →
    ledger.table.remove id = (none, ledger.table)
  sorted : ∀ keep, Interleaves (ledger.table.retain keep).2.items (ledger.table.retain keep).1
      ledger.table.items ∧
    (∀ item ∈ (ledger.table.retain keep).2.items, keep item = true) ∧
      ∀ item ∈ (ledger.table.retain keep).1, keep item = false
  modified : ∀ change before old behind, ledger.table.items = before ++ old :: behind →
    (ledger.table.modify old.id change).items = before ++ change old :: behind

/-- What is true of every edit of a sound ledger. -/
theorem Sound.orderly (h : ledger.Sound) : ledger.Orderly where
  distinct := h.table.nodup
  below item hmem := UInt64.lt_iff_toNat_lt.mpr (h.table.lt_nextId item hmem)
  taken id after htake := by
    obtain ⟨hid, hitems, -⟩ := takeId_eq_ok htake
    exact ⟨hitems, fun other hmem => hid ▸ UInt64.lt_iff_toNat_lt.mpr (h.known other hmem)⟩
  replaced item after hupsert before old behind hitems hid :=
    (upsert_eq_ok hupsert).1.trans (h.table.items_place_of_split hitems hid)
  added item after hupsert hnew := (upsert_eq_ok hupsert).1.trans (items_place_of_not_mem hnew)
  removed before old behind hitems := h.table.remove_eq hitems
  missed id hmissing := remove_of_not_mem hmissing
  sorted keep := ⟨interleaves_filter keep ledger.table.items,
    fun item hmem => ((mem_retain ledger.table keep item).mp hmem).2,
    fun item hmem => ((mem_removed ledger.table keep item).mp hmem).2⟩
  modified change before old behind hitems := h.table.items_modify hitems change

/-- The ledger of a table that was read from a queue file. -/
theorem sound_of_load {fs : FileSystem} {path : Path} {items : List Item} {table : Table}
    (hload : QueueFile.load fs path = .ok items) (htable : ofItems items = .ok table) :
    (⟨table, items.map Item.id⟩ : Ledger).Sound := by
  obtain ⟨hsound, rfl⟩ := Sound.ofItems (QueueFile.nodup_of_load hload) htable
  refine ⟨hsound, fun id hmem => ?_⟩
  obtain ⟨item, hitem, rfl⟩ := List.mem_map.mp hmem
  exact hsound.lt_nextId item hitem

end Ledger

end DownloadQueue.Table
