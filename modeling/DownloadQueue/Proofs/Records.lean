import DownloadQueue.Proofs.Contents

namespace DownloadQueue

def Item.measured (files : FileSystem) (item : Item) : Item :=
  { item with bytesDownloaded := files.fileLength item.destination }

def Item.blank (item : Item) : Item :=
  { item with bytesDownloaded := 0, bytesTotal := none }

namespace Table

/-- Looking up all numbers of a sound table in order gives its items. -/
theorem Sound.filterMap_get? {table : Table} (h : table.Sound) :
    (table.items.map Item.id).filterMap table.get? = table.items := by
  rw [List.filterMap_map]
  have hall : ∀ item ∈ table.items, (table.get? ∘ Item.id) item = some item :=
    fun item hmem => h.get?_of_mem hmem
  rw [List.filterMap_congr hall, List.filterMap_some]

end Table

namespace Scheduler

variable {s t : Scheduler} {id other : ItemId} {item : Item}

theorem get?_modifyItem (s : Scheduler) (id : ItemId) (change : Item → Item)
    (h : ∀ item, (change item).id = item.id) (other : ItemId) :
    (s.modifyItem id change).table.get? other =
      if other = id then (s.table.get? id).map change else s.table.get? other := by
  change (s.table.modify id change).get? other = _
  split
  · next heq =>
    subst heq
    exact Table.get?_modify_self s.table other change h
  · next hne => exact Table.get?_modify_of_ne s.table hne change h

def turned (status : Status) (item : Item) : Item :=
  if item.status = status then item else withStatus status item

theorem turned_of_status {status : Status} (h : item.status = status) : turned status item = item :=
  if_pos h

theorem status_turned (status : Status) (item : Item) : (turned status item).status = status := by
  unfold turned
  split
  · next h => exact h
  · rfl

theorem bytes_turned (status : Status) (item : Item) :
    (turned status item).bytesDownloaded = item.bytesDownloaded ∧
      (turned status item).bytesTotal = item.bytesTotal := by
  unfold turned
  split <;> exact ⟨rfl, rfl⟩

/-- A status is set for one item, and no other record changes. -/
theorem get?_setStatus (s : Scheduler) (id : ItemId) (status : Status) (other : ItemId) :
    (s.setStatus id status).table.get? other =
      if other = id then (s.table.get? id).map (turned status) else s.table.get? other := by
  rw [setStatus]
  split
  · next hnone =>
    split
    · next heq =>
      subst heq
      rw [hnone]
      rfl
    · rfl
  · next item hget =>
    split
    · next hsame =>
      split
      · next heq =>
        subst heq
        rw [hget, Option.map_some, turned, if_pos hsame]
      · rfl
    · next hne =>
      change (s.modifyItem id (withStatus status)).table.get? other = _
      rw [get?_modifyItem s id (withStatus status) fun _ => rfl, hget, Option.map_some,
        Option.map_some, turned, if_neg hne]

/-- What a new status changes and tells. -/
theorem setStatus_of_ne (hget : s.table.get? id = some item) {status : Status}
    (hne : item.status ≠ status) :
    s.setStatus id status =
      ((s.modifyItem id (withStatus status)).markDirty).emit
        (.statusChanged id item.status status) := by
  rw [setStatus, hget]
  exact if_neg hne

theorem setStatus_of_eq (hget : s.table.get? id = some item) {status : Status}
    (heq : item.status = status) : s.setStatus id status = s := by
  rw [setStatus, hget]
  exact if_pos heq

/-- Progress is read off the file of one item, and no other record changes. -/
theorem get?_reconcile (s : Scheduler) (id other : ItemId) :
    (s.reconcile id).table.get? other =
      if other = id then (s.table.get? id).map (Item.measured s.files) else s.table.get? other := by
  rw [reconcile]
  split
  · next hnone =>
    split
    · next heq =>
      subst heq
      rw [hnone]
      rfl
    · rfl
  · next item hget =>
    dsimp only
    split
    · next hlength =>
      split
      · next heq =>
        subst heq
        rw [hget, Option.map_some, Item.measured, hlength]
      · rfl
    · have hmodified := get?_modifyItem s id
        (fun found => { found with bytesDownloaded := s.files.fileLength item.destination })
        (fun _ => rfl) other
      rw [hget] at hmodified ⊢
      exact hmodified

theorem files_reconcile (s : Scheduler) (id : ItemId) : (s.reconcile id).files = s.files :=
  (alike_reconcile s id).files

theorem get?_discardPartial (s : Scheduler) (id other : ItemId) :
    (s.discardPartial id).table.get? other =
      if other = id then (s.table.get? id).map Item.blank else s.table.get? other := by
  rw [discardPartial]
  split
  · next hnone =>
    split
    · next heq =>
      subst heq
      rw [hnone]
      rfl
    · rfl
  · exact get?_modifyItem s id Item.blank (fun _ => rfl) other

theorem get?_startTransfer (hget : s.table.get? id = some item) (other : ItemId) :
    (s.startTransfer id).table.get? other =
      if other = id then some (turned .downloading item) else s.table.get? other := by
  rw [startTransfer_eq hget, get?_setStatus]
  change (if other = id then (s.table.get? id).map _ else s.table.get? other) = _
  rw [hget]
  rfl

/-- An item that is admitted keeps its record but for its status. -/
theorem get?_fillSlots (ids : List ItemId) (hget : s.table.get? id = some item) :
    ∃ later, (s.fillSlots ids).table.get? id = some later ∧
      (later = item ∨ id ∈ ids ∧ later = turned .downloading item) := by
  induction ids generalizing s item with
  | nil => exact ⟨item, hget, .inl rfl⟩
  | cons first rest ih =>
    rw [fillSlots]
    split
    · exact ⟨item, hget, .inl rfl⟩
    · cases hfirst : s.table.get? first with
      | none =>
        have hsame : s.startTransfer first = s := by rw [startTransfer, hfirst]
        rw [hsame]
        obtain ⟨later, hlater, hadmitted⟩ := ih hget
        exact ⟨later, hlater, hadmitted.imp_right (.imp_left (List.mem_cons_of_mem first))⟩
      | some found =>
        have hstarted := get?_startTransfer hfirst id
        split at hstarted
        · next heq =>
          subst heq
          rw [hget] at hfirst
          cases hfirst
          obtain ⟨later, hlater, hsame⟩ := ih hstarted
          refine ⟨later, hlater, .inr ⟨List.mem_cons_self, ?_⟩⟩
          rcases hsame with rfl | ⟨-, rfl⟩
          · rfl
          · exact turned_of_status (status_turned _ _)
        · obtain ⟨later, hlater, hadmitted⟩ := ih (hstarted.trans hget)
          exact ⟨later, hlater, hadmitted.imp_right (.imp_left (List.mem_cons_of_mem first))⟩

/-- Only queued items are admitted. -/
theorem get?_tick (h : s.table.Sound) (hget : s.table.get? id = some item) :
    ∃ later, s.tick.table.get? id = some later ∧
      (later = item ∨ item.status = .queued ∧ later = turned .downloading item) := by
  rw [tick]
  split
  · exact ⟨item, hget, .inl rfl⟩
  · obtain ⟨later, hlater, hadmitted⟩ := get?_fillSlots s.candidates hget
    refine ⟨later, hlater, hadmitted.imp_right (.imp_left fun hmem => ?_)⟩
    obtain ⟨⟨standing, hstanding, hqueued⟩, -⟩ := ready_of_mem_candidates h.nodup hmem
    rw [standing?_of_get? hget] at hstanding
    cases hstanding
    exact hqueued

/-- An admission leaves the bytes of an item as they are counted. -/
theorem bytes_tick (h : s.table.Sound) (hget : s.table.get? id = some item) :
    ∃ later, s.tick.table.get? id = some later ∧ later.bytesDownloaded = item.bytesDownloaded ∧
      later.bytesTotal = item.bytesTotal := by
  obtain ⟨later, hlater, rfl | ⟨-, rfl⟩⟩ := get?_tick h hget
  · exact ⟨_, hlater, rfl, rfl⟩
  · exact ⟨_, hlater, bytes_turned _ _⟩

theorem tick_of_closed (h : s.shuttingDown = true) : s.tick = s := by
  rw [tick, h, Bool.or_true, if_pos rfl]

/-- The ending of a worker that was told to stop does not overflow. -/
theorem handleEnding_of_stop {binding : Binding} (hbinding : s.binding? id = some binding)
    {stop : StopReason} (hstop : binding.stop = some stop) (ending : Ending) :
    s.handleEnding id ending = .done ((s.unbind id).settled id stop ending).tick () := by
  rw [handleEnding, hbinding]
  dsimp only
  rw [hstop, settle_of_stop]
  rfl

def totalled (item : Item) : Item :=
  { item with bytesTotal := knownTotal item.bytesTotal (some item.bytesDownloaded) }

theorem get?_finish (s : Scheduler) (id other : ItemId) :
    (s.finish id).table.get? other =
      if other = id then (s.table.get? id).map fun item => turned .finished (totalled item)
      else s.table.get? other := by
  change ((s.modifyItem id totalled).setStatus id .finished).table.get? other = _
  rw [get?_setStatus, get?_modifyItem s id totalled fun _ => rfl,
    get?_modifyItem s id totalled fun _ => rfl, if_pos rfl, Option.map_map]
  split <;> rfl

theorem files_finish (s : Scheduler) (id : ItemId) : (s.finish id).files = s.files := by
  rw [finish, setStatus_eq]
  rfl

/-- A complete file is kept, and so is its item if it was deleted. -/
theorem settled_completed (hget : s.table.get? id = some item) (stop : StopReason) :
    (s.settled id stop .completed).files = s.files ∧
      (s.settled id stop .completed).table.get? id =
        some (if stop = .delete then item else turned .finished (totalled item)) := by
  unfold settled
  rw [if_pos rfl]
  split
  · exact ⟨rfl, hget⟩
  · exact ⟨files_finish s id, by rw [get?_finish, if_pos rfl, hget, Option.map_some]⟩

/-- What has come in is thrown away, or the item is measured by it. -/
theorem settled_of_ne_completed (hget : s.table.get? id = some item) (stop : StopReason)
    {ending : Ending} (hne : ending ≠ .completed) :
    (s.settled id stop ending).files =
        (if stop.discardsPartial then (s.files.removePartial item.destination).toOption.getD s.files
        else s.files) ∧
      (s.settled id stop ending).table.get? id =
        some (if stop.discardsPartial then item.blank else item.measured s.files) := by
  unfold settled
  rw [if_neg hne, applyStop]
  split
  · exact ⟨files_discardPartial hget, by rw [get?_discardPartial, if_pos rfl, hget, Option.map_some]⟩
  · exact ⟨files_reconcile s id, by rw [get?_reconcile, if_pos rfl, hget, Option.map_some]⟩

/-- Nothing but the records and the files is settled with an ending. -/
theorem settled_frame (s : Scheduler) (id : ItemId) (stop : StopReason) (ending : Ending) :
    (s.settled id stop ending).duties = s.duties ∧
      (s.settled id stop ending).shuttingDown = s.shuttingDown := by
  unfold settled
  split
  · split
    · exact ⟨rfl, rfl⟩
    · rw [finish, setStatus_eq]
      exact ⟨rfl, rfl⟩
  · rw [applyStop]
    split
    · exact ⟨duties_discardPartial s id, shuttingDown_discardPartial s id⟩
    · exact ⟨(alike_reconcile s id).duties, (alike_reconcile s id).shuttingDown⟩

theorem get?_settled_of_ne (s : Scheduler) (stop : StopReason) (ending : Ending) (hne : other ≠ id) :
    (s.settled id stop ending).table.get? other = s.table.get? other := by
  unfold settled
  split
  · split
    · rfl
    · rw [get?_finish, if_neg hne]
  · rw [applyStop]
    split
    · rw [get?_discardPartial, if_neg hne]
    · rw [get?_reconcile, if_neg hne]

theorem abandon_eq (s : Scheduler) (id : ItemId) :
    (s.abandon id).active = s.active.filter (fun binding => binding.id ≠ id) ∧
      (s.abandon id).files = s.files := by
  have hactive : ((s.unbind id).reconcile id).active = (s.unbind id).active := by
    rw [reconcile]
    split
    · rfl
    · dsimp only
      split <;> rfl
  exact ⟨hactive, files_reconcile _ _⟩

/-- What is left when some workers were given up on: only progress has changed, and no file. -/
theorem foldl_abandon (ids : List ItemId) (s : Scheduler) :
    (ids.foldl abandon s).active = s.active.filter (fun binding => binding.id ∉ ids) ∧
      (ids.foldl abandon s).files = s.files ∧
      ∀ other, (ids.foldl abandon s).table.get? other =
        if other ∈ ids then (s.table.get? other).map (Item.measured s.files)
        else s.table.get? other := by
  induction ids generalizing s with
  | nil => exact ⟨(List.filter_eq_self.mpr (by simp)).symm, rfl, fun other => by simp⟩
  | cons id ids ih =>
    obtain ⟨hactive, hfiles⟩ := abandon_eq s id
    obtain ⟨hrest, hrestFiles, hget⟩ := ih (s.abandon id)
    rw [List.foldl_cons, hrest, hactive, hrestFiles, hfiles]
    refine ⟨?_, rfl, fun other => ?_⟩
    · rw [List.filter_filter]
      refine List.filter_congr fun binding _ => ?_
      simp [Bool.and_comm]
    · have hself : (s.abandon id).table.get? other = if other = id then
          (s.table.get? id).map (Item.measured s.files) else s.table.get? other :=
        get?_reconcile (s.unbind id) id other
      rw [hget, hself, hfiles]
      by_cases heq : other = id
      · subst heq
        rw [if_pos rfl, if_pos List.mem_cons_self, Option.map_map]
        split <;> rfl
      · simp [heq]

/-- No worker is left, the files are the same, and the items of the workers are measured. -/
theorem abandonAll_eq (s : Scheduler) :
    s.abandonAll.active = [] ∧ s.abandonAll.files = s.files ∧
      ∀ id, s.abandonAll.table.get? id =
        if s.isBound id then (s.table.get? id).map (Item.measured s.files)
        else s.table.get? id := by
  obtain ⟨hactive, hfiles, hget⟩ := foldl_abandon (s.active.map Binding.id) s
  refine ⟨?_, hfiles, fun id => ?_⟩
  · rw [abandonAll, hactive, List.filter_eq_nil_iff]
    intro binding hmem
    simpa using ⟨binding, hmem, rfl⟩
  · rw [abandonAll, hget]
    have hbound : id ∈ s.active.map Binding.id ↔ s.isBound id = true := by
      rw [isBound, List.any_eq_true, List.mem_map]
      simp
    simp only [hbound]

end Scheduler

end DownloadQueue
