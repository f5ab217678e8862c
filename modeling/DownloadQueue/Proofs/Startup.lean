import DownloadQueue.Proofs.Durability
import DownloadQueue.Proofs.Records
import Mathlib.Algebra.BigOperators.Group.List.Basic
import Mathlib.Algebra.Ring.Nat

/-!
# Starting from a queue file

A start brings the loaded items in order, admits workers and publishes a first snapshot. A queue file
that cannot be loaded is told of, and the queue starts empty. A file that loads is another matter: no
number may be left for the next item, and the bytes of all items may be too many to be added up for
the snapshot. Then there is no queue. These are the only two ways in which a start fails.
-/

namespace DownloadQueue

namespace Scheduler

variable {s t u : Scheduler} {id other : ItemId}

def restored (files : FileSystem) (item : Item) : Item :=
  match item.status with
  | .downloading => (turned .queued item).measured files
  | .queued | .paused | .failed => item.measured files
  | .finished | .alreadyDownloaded | .deleted => item

theorem files_restoreItem (s : Scheduler) (item : Item) : (s.restoreItem item).files = s.files := by
  rw [restoreItem]
  split
  · rw [files_reconcile, setStatus_eq]
  · exact files_reconcile s item.id
  · exact files_reconcile s item.id
  · exact files_reconcile s item.id
  · rfl
  · rfl
  · rfl

theorem ids_restoreItem (s : Scheduler) (item : Item) :
    (s.restoreItem item).table.items.map Item.id = s.table.items.map Item.id := by
  rw [restoreItem]
  split
  · exact ((alike_reconcile _ _).ids).trans (ids_setStatus _ _ _)
  · exact (alike_reconcile _ _).ids
  · exact (alike_reconcile _ _).ids
  · exact (alike_reconcile _ _).ids
  · rfl
  · rfl
  · rfl

/-- One item is brought in order, and no other record changes. -/
theorem get?_restoreItem {item : Item} (hget : s.table.get? item.id = some item) (other : ItemId) :
    (s.restoreItem item).table.get? other =
      if other = item.id then some (restored s.files item) else s.table.get? other := by
  have hmeasured : (s.reconcile item.id).table.get? other =
      if other = item.id then some (item.measured s.files) else s.table.get? other := by
    rw [get?_reconcile, hget]
    rfl
  have hsame : s.table.get? other = if other = item.id then some item else s.table.get? other := by
    split
    · next heq => rw [heq, hget]
    · rfl
  rw [restoreItem, restored]
  cases item.status with
  | downloading =>
    have hfiles : (s.setStatus item.id .queued).files = s.files := by rw [setStatus_eq]
    change ((s.setStatus item.id .queued).reconcile item.id).table.get? other = _
    rw [get?_reconcile, get?_setStatus, get?_setStatus, if_pos rfl, hget, hfiles]
    split <;> rfl
  | queued => exact hmeasured
  | paused => exact hmeasured
  | failed => exact hmeasured
  | finished => exact hsame
  | alreadyDownloaded => exact hsame
  | deleted => exact hsame

/-- Each item is brought in order by its own record and file, so their order does not matter. -/
theorem get?_foldl_restoreItem (items : List Item) (hnodup : (items.map Item.id).Nodup)
    (hget : ∀ item ∈ items, s.table.get? item.id = some item) (other : ItemId) :
    (items.foldl restoreItem s).table.get? other =
      if other ∈ items.map Item.id then (s.table.get? other).map (restored s.files)
      else s.table.get? other := by
  induction items generalizing s with
  | nil => rfl
  | cons first rest ih =>
    rw [List.map_cons, List.nodup_cons] at hnodup
    have hfirst := get?_restoreItem (hget first List.mem_cons_self)
    have hrest : ∀ item ∈ rest, (s.restoreItem first).table.get? item.id = some item := by
      intro item hmem
      have hne : item.id ≠ first.id := fun heq => hnodup.1 (heq ▸ List.mem_map_of_mem hmem)
      rw [hfirst, if_neg hne]
      exact hget item (List.mem_cons_of_mem _ hmem)
    rw [List.foldl_cons, ih hnodup.2 hrest, files_restoreItem, hfirst]
    by_cases heq : other = first.id
    · rw [if_neg (heq ▸ hnodup.1), if_pos heq, if_pos (heq ▸ List.mem_cons_self), heq,
        hget first List.mem_cons_self]
      rfl
    · simp only [heq, if_false, List.map_cons, List.mem_cons, false_or]

theorem ids_restore (s : Scheduler) :
    s.restore.table.items.map Item.id = s.table.items.map Item.id := by
  have hfold (items : List Item) (t : Scheduler) :
      (items.foldl restoreItem t).table.items.map Item.id = t.table.items.map Item.id := by
    induction items generalizing t with
    | nil => rfl
    | cons item items ih => exact (ih _).trans (ids_restoreItem t item)
  exact hfold _ s

/-- Bringing a loaded table in order changes its items one by one and keeps their order. -/
theorem items_restore (h : s.table.Sound) (hidle : s.active = []) :
    s.restore.table.items = s.table.items.map (restored s.files) := by
  have hsound := (orderly_restore h hidle).coherent.sound
  rw [← hsound.filterMap_get?, ids_restore, List.filterMap_map, ← List.filterMap_eq_map]
  refine List.filterMap_congr fun item hmem => ?_
  have hgiven := get?_foldl_restoreItem s.table.items h.nodup (fun _ => h.get?_of_mem) item.id
  rw [if_pos (List.mem_map_of_mem hmem), h.get?_of_mem hmem] at hgiven
  exact hgiven

theorem active_restore (hidle : s.active = []) : s.restore.active = [] := by
  have hduties (items : List Item) (s : Scheduler) : (items.foldl restoreItem s).duties = s.duties := by
    induction items generalizing s with
    | nil => rfl
    | cons item items ih => exact (ih _).trans (duties_restoreItem s item)
  have hnone : s.duties = [] := by
    rw [duties, hidle]
    rfl
  exact List.map_eq_nil_iff.mp ((hduties s.table.items s).trans hnone)

/-- Admissions change no number and no place in the table. -/
theorem ids_tick (s : Scheduler) : s.tick.table.items.map Item.id = s.table.items.map Item.id := by
  have hfill (ids : List ItemId) (t : Scheduler) :
      (t.fillSlots ids).table.items.map Item.id = t.table.items.map Item.id := by
    induction ids generalizing t with
    | nil => rfl
    | cons id ids ih =>
      rw [fillSlots]
      split
      · rfl
      · exact (ih _).trans (ids_startTransfer t id)
  rw [tick]
  split
  · rfl
  · exact hfill _ s

/-- An admission keeps what does not change when a queued item gets a worker. -/
theorem map_tick {β : Type} (f : Item → β) (hsound : s.table.Sound)
    (h : ∀ item, item.status = .queued → f (turned .downloading item) = f item) :
    s.tick.table.items.map f = s.table.items.map f := by
  have hstrokes : Strokes (fun _ => False) s s.tick := strokes_tick hsound
  have hticked := hstrokes.sound hsound
  have hsame : ∀ item ∈ s.table.items,
      ((s.tick.table.get? item.id).map f) = some (f item) := by
    intro item hmem
    obtain ⟨later, hlater, rfl | ⟨hqueued, rfl⟩⟩ := get?_tick hsound (hsound.get?_of_mem hmem)
    · rw [hlater, Option.map_some]
    · rw [hlater, Option.map_some, h item hqueued]
  calc
    s.tick.table.items.map f =
        ((s.table.items.map Item.id).filterMap s.tick.table.get?).map f := by
      rw [← ids_tick, hticked.filterMap_get?]
    _ = s.table.items.filterMap fun item => (s.tick.table.get? item.id).map f := by
      rw [List.map_filterMap, List.filterMap_map]
      rfl
    _ = s.table.items.filterMap fun item => some (f item) := List.filterMap_congr hsame
    _ = s.table.items.map f := by rw [List.filterMap_eq_map']

/-- A sum comes about exactly if it is small enough. -/
theorem sum64_eq (total : UInt64) (ns : List UInt64) :
    (sum64 total ns).map UInt64.toNat =
      if total.toNat + (ns.map UInt64.toNat).sum < UInt64.size then
        .ok (total.toNat + (ns.map UInt64.toNat).sum)
      else .error .addition := by
  induction ns generalizing total with
  | nil =>
    have hlt : total.toNat + 0 < UInt64.size := total.toNat_lt
    exact (if_pos hlt).symm
  | cons n ns ih =>
    rw [List.map_cons, List.sum_cons, ← Nat.add_assoc, sum64]
    cases hsum : Counter.add64 total n with
    | ok next =>
      rw [← (Counter.add64_eq_ok hsum).2]
      exact ih next
    | error overflow =>
      obtain ⟨hlarge, rfl⟩ := Counter.add64_eq_error hsum
      rw [if_neg (by omega)]
      rfl

theorem sum64_map (items : List Item) (f : Item → UInt64) :
    (sum64 0 (items.map f)).map UInt64.toNat =
      if (items.map fun item => (f item).toNat).sum < UInt64.size then
        .ok (items.map fun item => (f item).toNat).sum
      else .error .addition := by
  have hsum := sum64_eq 0 (items.map f)
  rw [UInt64.toNat_zero, Nat.zero_add, List.map_map] at hsum
  exact hsum

def counted (item : Item) : Nat :=
  if item.status = .deleted then 0 else item.bytesDownloaded.toNat

theorem sum_counted (items : List Item) :
    (items.map counted).sum =
      ((QueueFile.kept items).map fun item => item.bytesDownloaded.toNat).sum := by
  induction items with
  | nil => rfl
  | cons item items ih =>
    by_cases hdeleted : item.status = .deleted
    · simpa [counted, QueueFile.kept, hdeleted] using ih
    · simpa [counted, QueueFile.kept, hdeleted] using ih

def Fresh (s : Scheduler) : Prop :=
  ∀ binding ∈ s.active, binding.startedAt = s.clock

theorem Fresh.of_eq (h : s.Fresh) (hactive : t.active = s.active) (hclock : t.clock = s.clock) :
    t.Fresh := by
  rw [Fresh, hactive, hclock]
  exact h

theorem Fresh.speedAt (h : s.Fresh) (item : Item) : s.speedAt item = 0 := by
  rw [Scheduler.speedAt]
  split
  · next binding hbinding =>
    split
    · rw [h binding (List.mem_of_find?_eq_some hbinding), Nat.sub_self]
      have hshort : Duration.toFloat ⟨0⟩ < 0.001 := by decide +kernel
      rw [speedOf, if_pos hshort]
    · rfl
  · rfl

def byteSum (s : Scheduler) : Nat :=
  (s.present.map fun item => item.bytesDownloaded.toNat).sum

def speedSum (s : Scheduler) : Nat :=
  (s.table.items.map fun item => (s.speedAt item).toNat).sum

/-- A snapshot comes about exactly if bytes and speeds can be added up. -/
theorem snapshot_outcome (s : Scheduler) :
    (s.snapshot.map fun _ => ()) =
      if s.byteSum < UInt64.size ∧ s.speedSum < UInt64.size then .ok () else .error .addition := by
  have hbytes : (sum64 0 (s.present.map Item.bytesDownloaded)).map UInt64.toNat =
      if s.byteSum < UInt64.size then .ok s.byteSum else .error .addition := sum64_map _ _
  have hspeeds : (sum64 0 (s.table.items.map s.speedAt)).map UInt64.toNat =
      if s.speedSum < UInt64.size then .ok s.speedSum else .error .addition := sum64_map _ _
  rw [snapshot]
  cases hsum : sum64 0 (s.present.map Item.bytesDownloaded) with
  | error overflow =>
    rw [hsum] at hbytes
    split at hbytes
    · cases hbytes
    · next hlarge =>
      cases hbytes
      rw [if_neg fun h => hlarge h.1]
      rfl
  | ok bytes =>
    rw [hsum] at hbytes
    split at hbytes
    · next hsmall =>
      cases hrate : sum64 0 (s.table.items.map s.speedAt) with
      | error overflow =>
        rw [hrate] at hspeeds
        split at hspeeds
        · cases hspeeds
        · next hfast =>
          cases hspeeds
          rw [if_neg fun h => hfast h.2]
          rfl
      | ok speed =>
        rw [hrate] at hspeeds
        split at hspeeds
        · next hslow =>
          rw [if_pos ⟨hsmall, hslow⟩]
          rfl
        · cases hspeeds
    · cases hbytes

theorem publish_result (s : Scheduler) : s.publish.result = s.snapshot.map fun _ => () := by
  rw [publish]
  cases s.snapshot <;> rfl

theorem Fresh.speedSum (h : s.Fresh) : s.speedSum = 0 := by
  refine List.sum_eq_zero fun n hmem => ?_
  obtain ⟨item, -, rfl⟩ := List.mem_map.mp hmem
  rw [h.speedAt item]
  rfl

theorem Fresh.publish_result (h : s.Fresh) :
    s.publish.result =
      if (s.table.items.map counted).sum < UInt64.size then .ok () else .error .addition := by
  have hbytes : s.byteSum = (s.table.items.map counted).sum := (sum_counted s.table.items).symm
  have hspeeds : s.speedSum < UInt64.size := h.speedSum ▸ by decide
  rw [Scheduler.publish_result, snapshot_outcome, hbytes]
  exact if_congr (and_iff_left hspeeds) rfl rfl

theorem fresh_fillSlots (ids : List ItemId) (h : s.Fresh) : (s.fillSlots ids).Fresh := by
  induction ids generalizing s with
  | nil => exact h
  | cons id ids ih =>
    rw [fillSlots]
    split
    · exact h
    · refine ih ?_
      cases hget : s.table.get? id with
      | none =>
        rw [startTransfer, hget]
        exact h
      | some item =>
        rw [startTransfer_eq hget, setStatus_eq]
        intro binding hmem
        rcases List.mem_append.mp hmem with hmem | hmem
        · exact h binding hmem
        · rw [List.mem_singleton.mp hmem]
          rfl

theorem fresh_tick (h : s.Fresh) : s.tick.Fresh := by
  rw [tick]
  split
  · exact h
  · exact fresh_fillSlots _ h

/-- Only deleted items leave the table when changes are saved. -/
theorem saveChanges_frame (s : Scheduler) :
    s.saveChanges.active = s.active ∧ s.saveChanges.clock = s.clock ∧
      ∃ keep : Item → Bool, s.saveChanges.table.items = s.table.items.filter keep ∧
        ∀ item ∈ s.table.items, keep item = false → item.status = .deleted := by
  have hall : s.table.items = s.table.items.filter fun _ => true := by rw [List.filter_true]
  rw [saveChanges]
  split
  · split
    · next saved hsaved =>
      have hemit (removed : List Item) (t : Scheduler) :
          (removed.foldl (fun s item => s.emit (.removed item.id)) t).active = t.active ∧
            (removed.foldl (fun s item => s.emit (.removed item.id)) t).clock = t.clock ∧
            (removed.foldl (fun s item => s.emit (.removed item.id)) t).table = t.table := by
        induction removed generalizing t with
        | nil => exact ⟨rfl, rfl, rfl⟩
        | cons item removed ih => exact ih (t.emit (.removed item.id))
      obtain rfl : s.persist.1 = saved := by rw [hsaved]
      obtain ⟨hactive, hclock, htable⟩ := hemit (s.table.retain fun item =>
        item.status ≠ .deleted || s.isBound item.id).1 { s.persist.1 with
          dirty := false, table := (s.table.retain fun item =>
            item.status ≠ .deleted || s.isBound item.id).2 }
      refine ⟨hactive, hclock, fun item => item.status ≠ .deleted || s.isBound item.id,
        congrArg Table.items htable, ?_⟩
      intro item _ hdropped
      simp only [Bool.or_eq_false_iff, decide_eq_false_iff_not, ne_eq, Decidable.not_not] at hdropped
      exact hdropped.1
    · next saved error hsaved =>
      obtain rfl : s.persist.1 = saved := by rw [hsaved]
      exact ⟨rfl, rfl, _, hall, fun item _ hkept => by cases hkept⟩
  · exact ⟨rfl, rfl, _, hall, fun item _ hkept => by cases hkept⟩

/-- A queue without workers admits some and commits exactly if the bytes of its items can be
added up. -/
theorem commit_tick_result (hsound : s.table.Sound) (hidle : s.active = []) :
    s.tick.commit.result =
      if (s.table.items.map counted).sum < UInt64.size then .ok () else .error .addition := by
  have hfresh : s.Fresh := fun binding hmem => absurd (hidle ▸ hmem) List.not_mem_nil
  obtain ⟨hactive, hclock, keep, hitems, hkeep⟩ := saveChanges_frame s.tick
  have hsaved : s.tick.saveChanges.Fresh := (fresh_tick hfresh).of_eq hactive hclock
  have hcounted : ∀ item, item.status = .queued → counted (turned .downloading item) = counted item := by
    intro item hqueued
    simp [counted, status_turned, bytes_turned, hqueued]
  have hkept : ((s.tick.table.items.filter keep).map counted).sum =
      (s.table.items.map counted).sum := by
    rw [sum_counted, QueueFile.kept_filter hkeep, ← sum_counted, map_tick counted hsound hcounted]
  rw [commit, hsaved.publish_result, hitems, hkept]

def opening (config : Config) (around : Surroundings) (table : Table) : Scheduler :=
  { Scheduler.ofTable config table around.files around.now around.share with clock := around.clock }

theorem status_restored_iff (files : FileSystem) (item : Item) :
    (restored files item).status = .deleted ↔ item.status = .deleted := by
  rw [restored]
  cases hstatus : item.status <;>
    simp [hstatus, Item.measured, status_turned]

/-- A launch comes to its end exactly if the bytes of the items can be added up. -/
theorem launch_result (hsound : s.table.Sound) (hidle : s.active = []) :
    s.launch.result =
      if ((QueueFile.kept s.table.items).map fun item =>
        (restored s.files item).bytesDownloaded.toNat).sum < UInt64.size then .ok ()
      else .error .addition := by
  have hrestored := (orderly_restore hsound hidle).coherent.sound
  have hcounted : (s.restore.table.items.map counted).sum =
      ((QueueFile.kept s.table.items).map fun item =>
        (restored s.files item).bytesDownloaded.toNat).sum := by
    have hkept : QueueFile.kept (s.table.items.map (restored s.files)) =
        (QueueFile.kept s.table.items).map (restored s.files) := by
      rw [QueueFile.kept, QueueFile.kept, List.filter_map]
      congr 1
      refine List.filter_congr fun item _ => ?_
      simp [status_restored_iff]
    rw [sum_counted, items_restore hsound hidle, hkept, List.map_map]
    rfl
  rw [launch, commit_tick_result hrestored (active_restore hidle), hcounted]

theorem Chain.nextId_le {heard : ItemId → Ending → Prop} (hchain : Chain heard s t) :
    s.table.nextId.toNat ≤ t.table.nextId.toNat := by
  induction hchain with
  | refl => exact Nat.le_refl _
  | tail _ hchange ih => exact Nat.le_trans ih hchange.nextId_le

/-- The table of a queue that was started with these items: those that are not deleted are there,
brought in order and perhaps with a worker, and no number is given away again. -/
structure Loaded (files : FileSystem) (items : List Item) (table : Table) : Prop where
  lt_nextId : ∀ item ∈ items, item.id.value.toNat < table.nextId.toNat
  subset : ∀ found ∈ table.items, ∃ item ∈ items, item.id = found.id
  mem : ∀ item ∈ items, item.status ≠ .deleted → ∃ found ∈ table.items,
    found = restored files item ∨
      (restored files item).status = .queued ∧ found = turned .downloading (restored files item)

/-- Between the load and the first commit no item is lost, and none is added. -/
theorem loaded_of_launch (hsound : s.table.Sound) (hidle : s.active = [])
    (hdone : s.launch = .done t ()) : Loaded s.files s.table.items t.table := by
  have hrestored := orderly_restore hsound hidle
  have hchain : Chain (fun _ _ => True) s s.restore.tick :=
    chain_trans_tick (.of_active_eq_nil hsound hidle) (chain_restore hsound hidle)
  have hcommitted : Chain (fun _ _ => True) s.restore.tick s.restore.tick.commit.scheduler :=
    chain_commit s.restore.tick
  obtain ⟨-, -, keep, hitems, hkeep⟩ := saveChanges_frame s.restore.tick
  rw [launch] at hdone
  rw [hdone] at hcommitted
  obtain ⟨snapshot, -, rfl⟩ := publish_eq_done hdone
  refine ⟨?_, ?_, ?_⟩
  · intro item hmem
    have hgrown := Chain.nextId_le (hchain.trans hcommitted)
    exact Nat.lt_of_lt_of_le (hsound.lt_nextId item hmem) hgrown
  · intro found hfound
    change found ∈ s.restore.tick.saveChanges.table.items at hfound
    rw [hitems] at hfound
    have hid := List.mem_map_of_mem (f := Item.id) (List.mem_filter.mp hfound).1
    rw [ids_tick, ids_restore] at hid
    exact List.mem_map.mp hid
  · intro item hmem hlive
    have hget : s.restore.table.get? (restored s.files item).id = some (restored s.files item) := by
      apply hrestored.coherent.sound.get?_of_mem
      rw [items_restore hsound hidle]
      exact List.mem_map_of_mem hmem
    obtain ⟨found, hfound, hcases⟩ := get?_tick hrestored.coherent.sound hget
    refine ⟨found, ?_, hcases⟩
    change found ∈ s.restore.tick.saveChanges.table.items
    rw [hitems, List.mem_filter]
    refine ⟨Table.mem_of_get? hfound, ?_⟩
    by_contra hdropped
    have hdeleted := hkeep found (Table.mem_of_get? hfound) (by simpa using hdropped)
    rcases hcases with rfl | ⟨-, rfl⟩
    · exact hlive ((status_restored_iff s.files item).mp hdeleted)
    · rw [status_turned] at hdeleted
      cases hdeleted

end Scheduler

namespace Table

/-- The largest number is the one to begin with, or the number of an item. -/
theorem foldl_larger_mem (items : List Item) {n m : UInt64}
    (h : items.foldl larger (some n) = some m) : m = n ∨ ∃ item ∈ items, item.id.value = m := by
  induction items generalizing n with
  | nil =>
    cases h
    exact .inl rfl
  | cons first rest ih =>
    rw [List.foldl_cons, larger] at h
    rcases ih h with hbest | ⟨item, hmem, heq⟩
    · split at hbest
      · exact .inr ⟨first, List.mem_cons_self, hbest.symm⟩
      · exact .inl hbest
    · exact .inr ⟨item, List.mem_cons_of_mem _ hmem, heq⟩

theorem mem_of_maxId? {items : List Item} {n : UInt64} (h : maxId? items = some n) :
    ∃ item ∈ items, item.id.value = n := by
  cases items with
  | nil => cases h
  | cons first rest =>
    rcases foldl_larger_mem rest (n := first.id.value) h with heq | ⟨item, hmem, heq⟩
    · exact ⟨first, List.mem_cons_self, heq.symm⟩
    · exact ⟨item, List.mem_cons_of_mem _ hmem, heq⟩

theorem next64_eq_error {n : UInt64} {overflow : Overflow}
    (h : Counter.next64 n = .error overflow) :
    n.toNat + 1 = UInt64.size ∧ overflow = .addition := by
  obtain ⟨hlarge, hkind⟩ := Counter.add64_eq_error h
  change UInt64.size ≤ n.toNat + 1 at hlarge
  have hlt : n.toNat < UInt64.size := n.toNat_lt
  exact ⟨by omega, hkind⟩

/-- There is a number for the next item exactly if no item has the last one. -/
theorem ofItems_cases (items : List Item) :
    (∃ item ∈ items, item.id.value.toNat + 1 = UInt64.size) ∧ ofItems items = .error .addition ∨
      (∀ item ∈ items, item.id.value.toNat + 1 < UInt64.size) ∧
        ∃ table, ofItems items = .ok table := by
  rw [ofItems]
  cases hmax : maxId? items with
  | none =>
    refine .inr ⟨?_, _, rfl⟩
    intro item hmem
    obtain ⟨m, hm, -⟩ := maxId?_ge hmem
    rw [hmax] at hm
    cases hm
  | some n =>
    cases hnext : Counter.next64 n with
    | error overflow =>
      obtain ⟨hlast, rfl⟩ := next64_eq_error hnext
      obtain ⟨item, hmem, rfl⟩ := mem_of_maxId? hmax
      exact .inl ⟨⟨item, hmem, hlast⟩, by simp [hnext, Except.map]⟩
    | ok next =>
      refine .inr ⟨?_, ⟨items, next⟩, by simp [hnext, Except.map]⟩
      intro item hmem
      obtain ⟨m, hm, hle⟩ := maxId?_ge hmem
      rw [hmax] at hm
      cases hm
      have hgrown := (Counter.next64_eq_ok hnext).2
      have hlt : next.toNat < UInt64.size := next.toNat_lt
      omega

end Table

namespace Controller

open Scheduler (opening Loaded restored roomyConfig roomyFiles cutOff load_roomyFiles)

variable {config : Config} {around : Surroundings}

theorem start_of_validate (hvalid : config.validate = .ok ()) :
    start config around = takeUp config around := by
  rw [start, hvalid]

theorem launch_eq_broken {table : Table} {error : Option PersistenceError} {overflow : Overflow}
    (h : (opening config around table).launch.result = .error overflow) :
    launch config around around.files table error =
      .broken (opening config around table).launch.scheduler overflow := by
  rw [opening] at h
  rw [launch]
  simp only [h]
  rfl

theorem launch_eq_started_of_ok (around : Surroundings) {table : Table} {error : Option PersistenceError}
    (h : (opening config around table).launch.result = .ok ()) :
    launch config around around.files table error =
      .started ⟨(opening config around table).launch.scheduler, true, error⟩ := by
  rw [opening] at h
  rw [launch]
  simp only [h]
  rfl

theorem launch_empty (config : Config) (around : Surroundings) :
    (opening config around .empty).launch.result = .ok () := by
  rw [Scheduler.launch_result .empty rfl]
  rfl

/-- A file that does not load is told of and moved aside if it can be, and the queue starts with an
empty table. -/
theorem takeUp_of_load_error {error : PersistenceError}
    (hload : QueueFile.load around.files config.queue.queueFile = .error error) :
    takeUp config around = .started
      ⟨(opening config { around with files := (QueueFile.moveAside around.files
        config.queue.queueFile around.stamp).1 } .empty).launch.scheduler, true, some error⟩ := by
  rw [takeUp, hload]
  generalize QueueFile.moveAside around.files config.queue.queueFile around.stamp = moved
  exact launch_eq_started_of_ok { around with files := moved.1 } (launch_empty config _)

def bytesAtStart (files : FileSystem) (items : List Item) : Nat :=
  ((QueueFile.kept items).map fun item => (restored files item).bytesDownloaded.toNat).sum

/-- **Startup.** With settings that can be worked with, a queue file that cannot be loaded is told
of, and the queue starts empty. From one that loads the queue starts with all its items that are not
deleted, unless an item has the last number, or the bytes of the items are too many to be added up. -/
theorem start_outcome (hvalid : config.validate = .ok ()) :
    (∀ error, QueueFile.load around.files config.queue.queueFile = .error error →
      ∃ c, start config around = .started c ∧ c.startupError = some error ∧
        c.scheduler.table.items = []) ∧
    ∀ items, QueueFile.load around.files config.queue.queueFile = .ok items →
      (∃ item ∈ items, item.id.value.toNat + 1 = UInt64.size) ∧
          start config around = .exhausted .addition ∨
        (∀ item ∈ items, item.id.value.toNat + 1 < UInt64.size) ∧
          (UInt64.size ≤ bytesAtStart around.files items ∧
              (∃ s, start config around = .broken s .addition) ∨
            bytesAtStart around.files items < UInt64.size ∧
              ∃ c, start config around = .started c ∧ c.startupError = none ∧
                Loaded around.files items c.scheduler.table) := by
  rw [start_of_validate hvalid]
  constructor
  · intro error hload
    refine ⟨_, takeUp_of_load_error hload, rfl, ?_⟩
    generalize ({ around with files := _ } : Surroundings) = moved
    -- without items there is nothing to add up
    have hends : (opening config moved .empty).launch.result.isOk = true := by
      rw [launch_empty]
      rfl
    have hloaded := Scheduler.loaded_of_launch .empty rfl (Step.eq_done_of_isOk hends)
    rw [List.eq_nil_iff_forall_not_mem]
    intro found hfound
    obtain ⟨item, hmem, -⟩ := hloaded.subset found hfound
    cases hmem
  · intro items hload
    -- the numbers come first: without a next one there is no table
    rcases Table.ofItems_cases items with ⟨hlast, hnone⟩ | ⟨hnumbers, table, htable⟩
    · left
      refine ⟨hlast, ?_⟩
      rw [takeUp, hload]
      simp only [hnone]
    · right
      refine ⟨hnumbers, ?_⟩
      obtain ⟨hsound, rfl⟩ := Table.Sound.ofItems (QueueFile.nodup_of_load hload) htable
      have htaken : takeUp config around = launch config around around.files table none := by
        rw [takeUp, hload]
        simp only [htable]
      have hresult := Scheduler.launch_result (s := opening config around table) hsound rfl
      -- then the first snapshot adds up the bytes; the speeds are all zero
      by_cases hbytes : bytesAtStart around.files table.items < UInt64.size
      · right
        have hlaunched : (opening config around table).launch.result = .ok () :=
          hresult.trans (if_pos hbytes)
        have hends : (opening config around table).launch.result.isOk = true := by
          rw [hlaunched]
          rfl
        have hdone := Step.eq_done_of_isOk hends
        refine ⟨hbytes, _, htaken.trans (launch_eq_started_of_ok around hlaunched), rfl, ?_⟩
        exact Scheduler.loaded_of_launch hsound rfl hdone
      · left
        have hlaunched : (opening config around table).launch.result = .error .addition :=
          hresult.trans (if_neg hbytes)
        exact ⟨Nat.le_of_not_lt hbytes, _, htaken.trans (launch_eq_broken hlaunched)⟩

theorem start_outcome_roomy :
    roomyConfig.validate = .ok () ∧
      ∃ c, start roomyConfig ⟨roomyFiles, 0, .epoch, "", 0⟩ = .started c ∧ c.startupError = none ∧
        Loaded roomyFiles [cutOff] c.scheduler.table := by
  have hvalid : roomyConfig.validate = .ok () := by decide +kernel
  have hsmall : bytesAtStart roomyFiles [cutOff] < UInt64.size := by decide +kernel
  have hload : QueueFile.load (⟨roomyFiles, 0, .epoch, "", 0⟩ : Surroundings).files
      roomyConfig.queue.queueFile = .ok [cutOff] := load_roomyFiles
  refine ⟨hvalid, ?_⟩
  rcases (start_outcome hvalid).2 [cutOff] hload with ⟨⟨item, hmem, hlast⟩, -⟩ | ⟨-, ⟨hlarge, -⟩ | ⟨-, hstarted⟩⟩
  · rw [List.mem_singleton.mp hmem] at hlast
    exact absurd hlast (by decide)
  · exact absurd hsmall (Nat.not_lt_of_le hlarge)
  · exact hstarted

def lastItem : Item :=
  { Item.new ⟨18446744073709551615⟩ "http://h/a" ⟨"/a"⟩ .epoch with status := .finished }

def halfItem (id : ItemId) : Item :=
  { Item.new id "http://h/a" ⟨"/a"⟩ .epoch with
    status := .finished, bytesDownloaded := 9223372036854775808 }

def savedAround (items : List Item) : Surroundings :=
  ⟨⟨[], [(["q"], .file (QueueFile.render items))]⟩, 0, .epoch, "", 0⟩

theorem load_savedAround {items : List Item} (hnodup : (items.map Item.id).Nodup) :
    QueueFile.load (savedAround items).files ⟨"/q"⟩ = .ok (QueueFile.kept items) := by
  have hread : (savedAround items).files.read ⟨"/q"⟩ = .ok (QueueFile.render items) := rfl
  exact QueueFile.load_of_read hnodup hread

/-- A queue file that loads may leave no queue: its only item has the last number, or its two items
have more bytes than can be counted. -/
theorem not_always_started :
    roomyConfig.validate = .ok () ∧
      start roomyConfig (savedAround [lastItem]) = .exhausted .addition ∧
      (∃ s, start roomyConfig (savedAround [halfItem ⟨1⟩, halfItem ⟨2⟩]) =
        .broken s .addition) ∧
      ¬ ∀ (config : Config) (around : Surroundings), config.validate = .ok () →
        ∃ c, start config around = .started c := by
  have hvalid : roomyConfig.validate = .ok () := by decide +kernel
  have hexhausted : start roomyConfig (savedAround [lastItem]) = .exhausted .addition := by
    have hload : QueueFile.load (savedAround [lastItem]).files roomyConfig.queue.queueFile =
        .ok [lastItem] := load_savedAround (List.nodup_singleton lastItem.id)
    rw [start_of_validate hvalid, takeUp, hload]
    rfl
  have hbroken : ∃ s, start roomyConfig (savedAround [halfItem ⟨1⟩, halfItem ⟨2⟩]) =
      .broken s .addition := by
    have hload : QueueFile.load (savedAround [halfItem ⟨1⟩, halfItem ⟨2⟩]).files
        roomyConfig.queue.queueFile = .ok [halfItem ⟨1⟩, halfItem ⟨2⟩] :=
      load_savedAround (by decide)
    have htable : Table.ofItems [halfItem ⟨1⟩, halfItem ⟨2⟩] =
        .ok ⟨[halfItem ⟨1⟩, halfItem ⟨2⟩], 3⟩ := rfl
    have hlaunched : (opening roomyConfig (savedAround [halfItem ⟨1⟩, halfItem ⟨2⟩])
        ⟨[halfItem ⟨1⟩, halfItem ⟨2⟩], 3⟩).launch.result = .error .addition := by
      decide +kernel
    rw [start_of_validate hvalid, takeUp, hload]
    simp only [htable]
    exact ⟨_, launch_eq_broken hlaunched⟩
  refine ⟨hvalid, hexhausted, hbroken, ?_⟩
  intro hstarts
  obtain ⟨c, hstarted⟩ := hstarts roomyConfig (savedAround [lastItem]) hvalid
  rw [hexhausted] at hstarted
  cases hstarted

end Controller

end DownloadQueue
