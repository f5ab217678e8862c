import DownloadQueue.Table
import DownloadQueue.QueueFile

namespace DownloadQueue

namespace Counter

theorem next64_eq_ok {n m : UInt64} (h : next64 n = .ok m) :
    n.toNat + 1 < UInt64.size ∧ m.toNat = n.toNat + 1 := by
  obtain ⟨-, hsum⟩ := add64_eq_ok h
  have hlt : m.toNat < UInt64.size := m.toNat_lt
  rw [hsum] at hlt
  exact ⟨hlt, hsum⟩

end Counter

namespace Table

/-- The numbers of the items are distinct and were given away before. -/
structure Sound (table : Table) : Prop where
  nodup : (table.items.map Item.id).Nodup
  lt_nextId : ∀ item ∈ table.items, item.id.value.toNat < table.nextId.toNat

theorem Sound.empty : empty.Sound :=
  ⟨List.nodup_nil, fun _ h => absurd h List.not_mem_nil⟩

theorem Sound.of_ids {table other : Table} (h : table.Sound)
    (hids : other.items.map Item.id = table.items.map Item.id)
    (hnext : other.nextId = table.nextId) : other.Sound where
  nodup := hids ▸ h.nodup
  lt_nextId item hmem := by
    have hid : item.id ∈ table.items.map Item.id := hids ▸ List.mem_map_of_mem hmem
    obtain ⟨first, hfirst, heq⟩ := List.mem_map.mp hid
    rw [hnext, ← heq]
    exact h.lt_nextId first hfirst

theorem id_of_get? {table : Table} {id : ItemId} {item : Item} (h : table.get? id = some item) :
    item.id = id := by
  simpa using List.find?_some h

theorem mem_of_get? {table : Table} {id : ItemId} {item : Item} (h : table.get? id = some item) :
    item ∈ table.items :=
  List.mem_of_find?_eq_some h

/-- Where keys are distinct, an entry is found by its key. -/
theorem find?_eq_some_of_mem {α : Type} {key : α → ItemId} {entries : List α}
    (hnodup : (entries.map key).Nodup) {entry : α} (hmem : entry ∈ entries) :
    (entries.find? fun other => key other = key entry) = some entry := by
  induction entries with
  | nil => exact absurd hmem List.not_mem_nil
  | cons first rest ih =>
    rw [List.map_cons, List.nodup_cons] at hnodup
    rcases List.mem_cons.mp hmem with rfl | hrest
    · exact List.find?_cons_of_pos (by simp)
    · have hne : key first ≠ key entry := by
        intro heq
        exact hnodup.1 (heq ▸ List.mem_map_of_mem hrest)
      rw [List.find?_cons_of_neg (by simpa using hne)]
      exact ih hnodup.2 hrest

theorem Sound.get?_of_mem {table : Table} (h : table.Sound) {item : Item}
    (hmem : item ∈ table.items) : table.get? item.id = some item :=
  find?_eq_some_of_mem h.nodup hmem

theorem Sound.eq_of_id {table : Table} (h : table.Sound) {item other : Item}
    (hitem : item ∈ table.items) (hother : other ∈ table.items) (heq : item.id = other.id) :
    item = other := by
  have hget := h.get?_of_mem hitem
  rw [heq, h.get?_of_mem hother] at hget
  exact (Option.some.inj hget).symm

theorem get?_isSome_iff {table : Table} {id : ItemId} :
    (table.get? id).isSome ↔ id ∈ table.items.map Item.id := by
  rw [get?, List.find?_isSome]
  simp only [List.mem_map, decide_eq_true_eq]

theorem get?_eq_none_iff {table : Table} {id : ItemId} :
    table.get? id = none ↔ id ∉ table.items.map Item.id := by
  rw [← get?_isSome_iff, Bool.not_eq_true, Option.isSome_eq_false_iff, Option.isNone_iff_eq_none]

/-- Taking items out of a sound table keeps the others where lookups find them. -/
theorem Sound.find?_filter {table : Table} (h : table.Sound) (keep : Item → Bool) (id : ItemId) :
    ((table.items.filter keep).find? fun item => item.id = id) = (table.get? id).filter keep := by
  cases hget : table.get? id with
  | none =>
    have hnone : ∀ item ∈ table.items, item.id ≠ id := by
      intro item hmem heq
      exact get?_eq_none_iff.mp hget (heq ▸ List.mem_map_of_mem hmem)
    rw [Option.filter_none, List.find?_eq_none]
    intro item hmem
    simpa using hnone item ((List.mem_filter.mp hmem).1)
  | some item =>
    have hmem := mem_of_get? hget
    have hid := id_of_get? hget
    subst hid
    by_cases hkeep : keep item = true
    · rw [Option.filter_some_pos hkeep]
      refine find?_eq_some_of_mem ?_ (List.mem_filter.mpr ⟨hmem, hkeep⟩)
      exact h.nodup.sublist (List.filter_sublist.map _)
    · rw [Option.filter_some_neg (by simpa using hkeep), List.find?_eq_none]
      intro other hother
      obtain ⟨hmemOther, hkeepOther⟩ := List.mem_filter.mp hother
      intro heq
      have hsame : table.get? other.id = some item := by
        rw [show other.id = item.id by simpa using heq]
        exact hget
      rw [h.get?_of_mem hmemOther] at hsame
      cases hsame
      exact hkeep hkeepOther

theorem Sound.sublist {table : Table} (h : table.Sound) {items : List Item}
    (hsublist : items.Sublist table.items) : ({ table with items } : Table).Sound where
  nodup := h.nodup.sublist (hsublist.map _)
  lt_nextId item hmem := h.lt_nextId item (hsublist.subset hmem)

theorem Sound.filter {table : Table} (h : table.Sound) (keep : Item → Bool) :
    ({ table with items := table.items.filter keep } : Table).Sound :=
  h.sublist List.filter_sublist

theorem Sound.not_mem_nextId {table : Table} (h : table.Sound) :
    (⟨table.nextId⟩ : ItemId) ∉ table.items.map Item.id := by
  intro hmem
  obtain ⟨item, hitem, hid⟩ := List.mem_map.mp hmem
  have hlt := h.lt_nextId item hitem
  rw [hid] at hlt
  exact Nat.lt_irrefl _ hlt

theorem Sound.get?_nextId {table : Table} (h : table.Sound) : table.get? ⟨table.nextId⟩ = none :=
  get?_eq_none_iff.mpr h.not_mem_nextId

theorem get?_append {table : Table} {next : UInt64} {item : Item}
    (hnone : table.get? item.id = none) (other : ItemId) :
    (⟨table.items ++ [item], next⟩ : Table).get? other =
      if other = item.id then some item else table.get? other := by
  rw [Table.get?, List.find?_append]
  change (table.get? other).or _ = _
  split
  · next heq =>
    subst heq
    rw [hnone, Option.none_or, List.find?_cons_of_pos (by simp)]
  · next hne =>
    rw [List.find?_cons_of_neg (by simpa using Ne.symm hne), List.find?_nil, Option.or_none]

/-- A new item under the next number is put behind all others. -/
theorem Sound.append {table : Table} (h : table.Sound) {next : UInt64} {item : Item}
    (hnext : Counter.next64 table.nextId = .ok next) (hid : item.id = ⟨table.nextId⟩) :
    (⟨table.items ++ [item], next⟩ : Table).Sound := by
  obtain ⟨-, htoNat⟩ := Counter.next64_eq_ok hnext
  constructor
  · rw [List.map_append, List.nodup_append]
    refine ⟨h.nodup, by simp, ?_⟩
    intro id hmem other hother heq
    rw [List.map_cons, List.map_nil, List.mem_singleton] at hother
    apply h.not_mem_nextId
    rw [← hid, ← hother, ← heq]
    exact hmem
  · intro other hother
    rcases List.mem_append.mp hother with hmem | hmem
    · have := h.lt_nextId other hmem
      change other.id.value.toNat < next.toNat
      omega
    · rw [List.mem_singleton] at hmem
      subst hmem
      change other.id.value.toNat < next.toNat
      rw [hid, htoNat]
      exact Nat.lt_succ_self _

theorem larger_eq_some (best : Option UInt64) (item : Item) :
    ∃ m, larger best item = some m ∧ item.id.value.toNat ≤ m.toNat ∧
      ∀ n, best = some n → n.toNat ≤ m.toNat := by
  cases best with
  | none =>
    refine ⟨item.id.value, rfl, Nat.le_refl _, ?_⟩
    intro n hn
    cases hn
  | some n =>
    refine ⟨_, rfl, ?_, ?_⟩
    · split
      · exact Nat.le_refl _
      · next hlt => exact Nat.le_of_not_lt fun h => hlt (UInt64.lt_iff_toNat_lt.mpr h)
    · intro n' hn'
      cases hn'
      split
      · next hlt => exact Nat.le_of_lt (UInt64.lt_iff_toNat_lt.mp hlt)
      · exact Nat.le_refl _

/-- The largest number is found, wherever it stands. -/
theorem foldl_larger_ge (items : List Item) {n : UInt64} :
    ∃ m, items.foldl larger (some n) = some m ∧ n.toNat ≤ m.toNat ∧
      ∀ item ∈ items, item.id.value.toNat ≤ m.toNat := by
  induction items generalizing n with
  | nil => exact ⟨n, rfl, Nat.le_refl _, fun _ h => absurd h List.not_mem_nil⟩
  | cons first rest ih =>
    obtain ⟨k, hk, hfirst, hbest⟩ := larger_eq_some (some n) first
    obtain ⟨m, hm, hle, hrest⟩ := ih (n := k)
    refine ⟨m, ?_, Nat.le_trans (hbest n rfl) hle, ?_⟩
    · rw [List.foldl_cons, hk, hm]
    · intro item hmem
      rcases List.mem_cons.mp hmem with rfl | hmem
      · exact Nat.le_trans hfirst hle
      · exact hrest item hmem

theorem maxId?_ge {items : List Item} {item : Item} (hmem : item ∈ items) :
    ∃ m, maxId? items = some m ∧ item.id.value.toNat ≤ m.toNat := by
  cases items with
  | nil => exact absurd hmem List.not_mem_nil
  | cons first rest =>
    obtain ⟨m, hm, hfirst, hrest⟩ := foldl_larger_ge rest (n := first.id.value)
    refine ⟨m, hm, ?_⟩
    rcases List.mem_cons.mp hmem with rfl | hmem
    · exact hfirst
    · exact hrest item hmem

/-- A table is sound from the start: its next number is one more than the largest. -/
theorem Sound.ofItems {items : List Item} {table : Table} (hnodup : (items.map Item.id).Nodup)
    (h : ofItems items = .ok table) : table.Sound ∧ table.items = items := by
  rw [Table.ofItems] at h
  cases hmax : maxId? items with
  | none =>
    rw [hmax] at h
    cases h
    refine ⟨⟨hnodup, ?_⟩, rfl⟩
    intro item hmem
    obtain ⟨m, hm, -⟩ := maxId?_ge hmem
    rw [hmax] at hm
    cases hm
  | some n =>
    rw [hmax] at h
    cases hnext : Counter.next64 n with
    | error overflow =>
      simp only [hnext, Except.map] at h
      cases h
    | ok next =>
      simp only [hnext, Except.map] at h
      cases h
      refine ⟨⟨hnodup, ?_⟩, rfl⟩
      intro item hmem
      obtain ⟨m, hm, hle⟩ := maxId?_ge hmem
      rw [hmax] at hm
      cases hm
      have := (Counter.next64_eq_ok hnext).2
      change item.id.value.toNat < next.toNat
      omega

end Table

namespace QueueFile

/-- A file is loaded only if no number stands in it twice. -/
theorem firstDuplicate?_eq_none {seen ids : List ItemId} (h : firstDuplicate? seen ids = none) :
    ids.Nodup ∧ ∀ id ∈ ids, id ∉ seen := by
  induction ids generalizing seen with
  | nil => exact ⟨List.nodup_nil, fun _ h => absurd h List.not_mem_nil⟩
  | cons id ids ih =>
    rw [firstDuplicate?] at h
    split at h
    · cases h
    · next hseen =>
      obtain ⟨hnodup, hfresh⟩ := ih h
      refine ⟨List.nodup_cons.mpr ⟨?_, hnodup⟩, ?_⟩
      · intro hmem
        exact hfresh id hmem List.mem_cons_self
      · intro other hmem
        rcases List.mem_cons.mp hmem with rfl | hmem
        · exact hseen
        · exact fun hother => hfresh other hmem (List.mem_cons_of_mem _ hother)

/-- A file with a number twice is refused. -/
theorem nodup_of_parse {path : Path} {bytes : List UInt8} {items : List Item}
    (h : parse path bytes = .ok items) : (items.map Item.id).Nodup := by
  rw [parse] at h
  split at h
  · cases h
  · split at h
    · cases h
    · split at h
      · cases h
      · next hnone =>
        cases h
        exact (firstDuplicate?_eq_none hnone).1

theorem nodup_of_load {fs : FileSystem} {path : Path} {items : List Item}
    (h : load fs path = .ok items) : (items.map Item.id).Nodup := by
  rw [load] at h
  split at h
  · exact nodup_of_parse h
  · split at h
    · cases h
      exact List.nodup_nil
    · cases h

end QueueFile

end DownloadQueue
