import DownloadQueue.Proofs.Table
import DownloadQueue.Scheduler.Dispatch

/-!
# What the rules of the queue look at

The rules decide by the standing of an item (all but its progress and its history) and by the duty
of its worker (all but the measurement of its speed). Two schedulers that agree in these and in what
they did to the outside are alike. Here is what each small change does to standings and duties.
-/

namespace DownloadQueue

structure Standing where
  id : ItemId
  sourceUrl : String
  destination : Path
  status : Status
  deriving DecidableEq

def Item.standing (item : Item) : Standing :=
  ⟨item.id, item.sourceUrl, item.destination, item.status⟩

@[simp] theorem Item.standing_status (item : Item) : item.standing.status = item.status :=
  rfl

def Standing.withStatus (status : Status) (standing : Standing) : Standing :=
  { standing with status }

structure Duty where
  id : ItemId
  seq : Nat
  cancelled : Bool
  stop : Option StopReason
  deriving DecidableEq

def Binding.duty (binding : Binding) : Duty :=
  ⟨binding.id, binding.seq, binding.cancelled, binding.stop⟩

@[simp] theorem Binding.duty_stop (binding : Binding) : binding.duty.stop = binding.stop :=
  rfl

@[simp] theorem Binding.duty_cancelled (binding : Binding) :
    binding.duty.cancelled = binding.cancelled :=
  rfl

def Duty.stopped (reason : StopReason) (duty : Duty) : Duty :=
  { duty with stop := some (StopReason.merge duty.stop reason), cancelled := true }

namespace Table

theorem map_replaceFirst {β : Type} (f : Item → β) (id : ItemId) (change : Item → Item)
    (h : ∀ item, f (change item) = f item) (items : List Item) :
    (replaceFirst id change items).map f = items.map f := by
  induction items with
  | nil => rfl
  | cons item items ih =>
    rw [replaceFirst]
    split
    · rw [List.map_cons, List.map_cons, h]
    · rw [List.map_cons, List.map_cons, ih]

end Table

namespace Scheduler

variable {s t u : Scheduler} {id other : ItemId}

def standings (s : Scheduler) : List Standing :=
  s.table.items.map Item.standing

def duties (s : Scheduler) : List Duty :=
  s.active.map Binding.duty

def standing? (s : Scheduler) (id : ItemId) : Option Standing :=
  (s.table.get? id).map Item.standing

def duty? (s : Scheduler) (id : ItemId) : Option Duty :=
  (s.binding? id).map Binding.duty

theorem standing?_eq_find? (s : Scheduler) (id : ItemId) :
    s.standing? id = s.standings.find? fun standing => standing.id = id := by
  rw [standing?, standings, Table.get?, List.find?_map]
  rfl

theorem duty?_eq_find? (s : Scheduler) (id : ItemId) :
    s.duty? id = s.duties.find? fun duty => duty.id = id := by
  rw [duty?, duties, binding?, List.find?_map]
  rfl

theorem ids_eq_map_standings (s : Scheduler) :
    s.table.items.map Item.id = s.standings.map Standing.id := by
  rw [standings, List.map_map]
  rfl

theorem id_of_duty? {duty : Duty} (h : s.duty? id = some duty) : duty.id = id := by
  rw [duty?_eq_find?] at h
  simpa using List.find?_some h

theorem mem_of_duty? {duty : Duty} (h : s.duty? id = some duty) : duty ∈ s.duties := by
  rw [duty?_eq_find?] at h
  exact List.mem_of_find?_eq_some h

theorem standing?_of_get? {item : Item} (h : s.table.get? id = some item) :
    s.standing? id = some item.standing := by
  rw [standing?, h]
  rfl

theorem get?_of_standing? {standing : Standing} (h : s.standing? id = some standing) :
    ∃ item, s.table.get? id = some item ∧ item.standing = standing :=
  Option.map_eq_some_iff.mp h

theorem isBound_iff : s.isBound id = true ↔ ∃ duty, s.duty? id = some duty := by
  have hfind : s.isBound id = true ↔ (s.binding? id).isSome := by
    rw [isBound, binding?, List.find?_isSome, List.any_eq_true]
  rw [hfind, Option.isSome_iff_exists]
  simp only [duty?, Option.map_eq_some_iff]
  constructor
  · rintro ⟨binding, hbinding⟩
    exact ⟨binding.duty, binding, hbinding, rfl⟩
  · rintro ⟨_, binding, hbinding, -⟩
    exact ⟨binding, hbinding⟩

theorem isBound_eq_false_iff : s.isBound id = false ↔ s.duty? id = none := by
  rw [← Bool.not_eq_true, isBound_iff, Option.eq_none_iff_forall_not_mem]
  simp

/-- The two differ only in progress, history, timers, the clock and what listeners were told. -/
structure Alike (s t : Scheduler) : Prop where
  standings : t.standings = s.standings
  nextId : t.table.nextId = s.table.nextId
  duties : t.duties = s.duties
  config : t.config = s.config
  maxConcurrent : t.maxConcurrent = s.maxConcurrent
  shuttingDown : t.shuttingDown = s.shuttingDown
  admissions : t.admissions = s.admissions
  inbox : t.inbox = s.inbox
  files : t.files = s.files
  fetches : t.fetches = s.fetches
  removals : t.removals = s.removals

theorem Alike.refl (s : Scheduler) : Alike s s := by
  constructor <;> rfl

theorem Alike.trans (h : Alike s t) (h' : Alike t u) : Alike s u where
  standings := h'.standings.trans h.standings
  nextId := h'.nextId.trans h.nextId
  duties := h'.duties.trans h.duties
  config := h'.config.trans h.config
  maxConcurrent := h'.maxConcurrent.trans h.maxConcurrent
  shuttingDown := h'.shuttingDown.trans h.shuttingDown
  admissions := h'.admissions.trans h.admissions
  inbox := h'.inbox.trans h.inbox
  files := h'.files.trans h.files
  fetches := h'.fetches.trans h.fetches
  removals := h'.removals.trans h.removals

theorem Alike.standing? (h : Alike s t) (id : ItemId) : t.standing? id = s.standing? id := by
  rw [standing?_eq_find?, standing?_eq_find?, h.standings]

theorem Alike.duty? (h : Alike s t) (id : ItemId) : t.duty? id = s.duty? id := by
  rw [duty?_eq_find?, duty?_eq_find?, h.duties]

theorem Alike.ids (h : Alike s t) : t.table.items.map Item.id = s.table.items.map Item.id := by
  rw [ids_eq_map_standings, ids_eq_map_standings, h.standings]

theorem alike_emit (s : Scheduler) (event : Event) : Alike s (s.emit event) := by
  constructor <;> rfl

theorem alike_markDirty (s : Scheduler) : Alike s s.markDirty := by
  constructor <;> rfl

theorem alike_modifyItem (s : Scheduler) (id : ItemId) (change : Item → Item)
    (h : ∀ item, (change item).standing = item.standing) : Alike s (s.modifyItem id change) := by
  constructor
  case standings => exact Table.map_replaceFirst Item.standing id change h s.table.items
  all_goals rfl

theorem alike_rebind (s : Scheduler) (id : ItemId) (change : Binding → Binding)
    (h : ∀ binding, (change binding).duty = binding.duty) : Alike s (s.rebind id change) := by
  constructor
  case duties =>
    rw [duties, rebind, List.map_map]
    refine List.map_congr_left fun binding _ => ?_
    rw [Function.comp_apply]
    split
    · exact h binding
    · rfl
  all_goals rfl

theorem alike_reconcile (s : Scheduler) (id : ItemId) : Alike s (s.reconcile id) := by
  rw [reconcile]
  split
  · exact Alike.refl s
  · simp only
    split
    · exact Alike.refl s
    · refine Alike.trans ?_ (alike_markDirty _)
      exact alike_modifyItem s id _ fun _ => rfl

theorem alike_forgetTimer (s : Scheduler) (id : ItemId) : Alike s (s.forgetTimer id) := by
  constructor <;> rfl

theorem alike_cancelTimer (s : Scheduler) (id : ItemId) : Alike s (s.cancelTimer id) := by
  rw [cancelTimer]
  split
  · exact Alike.refl s
  · constructor <;> rfl

theorem alike_scheduleRetry (s : Scheduler) (id : ItemId) (delay : Duration) :
    Alike s (s.scheduleRetry id delay) := by
  refine (alike_cancelTimer s id).trans ?_
  constructor <;> rfl

theorem alike_foldl_emit {α : Type} (event : α → Event) (removed : List α) (s : Scheduler) :
    Alike s (removed.foldl (fun s a => s.emit (event a)) s) := by
  induction removed generalizing s with
  | nil => exact Alike.refl s
  | cons first rest ih => exact (alike_emit s _).trans (ih _)

theorem alike_cancelAllTimers (s : Scheduler) : Alike s s.cancelAllTimers := by
  constructor <;> rfl

theorem table_cancelTimer (s : Scheduler) (id : ItemId) : (s.cancelTimer id).table = s.table := by
  rw [cancelTimer]
  split <;> rfl

variable {item : Item} {p : Status → Prop}

def Stands (p : Status → Prop) (s : Scheduler) (id : ItemId) : Prop :=
  ∃ standing, s.standing? id = some standing ∧ p standing.status

theorem stands_of_get? (hget : s.table.get? id = some item) (h : p item.status) : s.Stands p id :=
  ⟨item.standing, standing?_of_get? hget, h⟩

theorem Stands.of_standing? (heq : t.standing? id = s.standing? id) (h : s.Stands p id) :
    t.Stands p id := by
  rwa [Stands, heq]

theorem Stands.mono {q : Status → Prop} (h : s.Stands p id) (hpq : ∀ status, p status → q status) :
    s.Stands q id := by
  obtain ⟨standing, hstanding, hstatus⟩ := h
  exact ⟨standing, hstanding, hpq _ hstatus⟩

theorem Stands.modifyItem (hstands : s.Stands p id) (other : ItemId) {change : Item → Item}
    (h : ∀ item, (change item).standing = item.standing) : (s.modifyItem other change).Stands p id :=
  hstands.of_standing? ((alike_modifyItem s other change h).standing? id)

/-- A new status changes the table and nothing else that the rules look at. -/
theorem setStatus_eq (s : Scheduler) (id : ItemId) (status : Status) :
    s.setStatus id status =
      { s with
        table := (s.setStatus id status).table
        dirty := (s.setStatus id status).dirty
        events := (s.setStatus id status).events } := by
  rw [setStatus]
  split
  · rfl
  · split <;> rfl

theorem ids_setStatus (s : Scheduler) (id : ItemId) (status : Status) :
    (s.setStatus id status).table.items.map Item.id = s.table.items.map Item.id := by
  rw [setStatus]
  split
  · rfl
  · split
    · rfl
    · exact Table.ids_modify s.table id (withStatus status) fun _ => rfl

theorem nextId_setStatus (s : Scheduler) (id : ItemId) (status : Status) :
    (s.setStatus id status).table.nextId = s.table.nextId := by
  rw [setStatus]
  split
  · rfl
  · split <;> rfl

/-- A status is set for one item, and no other standing changes. -/
theorem standing?_setStatus (s : Scheduler) (id : ItemId) (status : Status) (other : ItemId) :
    (s.setStatus id status).standing? other =
      if other = id then (s.standing? id).map (Standing.withStatus status)
      else s.standing? other := by
  rw [setStatus]
  split
  · next hget =>
    have hnone : s.standing? id = none := by rw [standing?, hget]; rfl
    split
    · next heq => rw [heq, hnone]; rfl
    · rfl
  · next item hget =>
    have hsome := standing?_of_get? hget
    split
    · next hsame =>
      split
      · next heq =>
        rw [heq, hsome, ← hsame]
        rfl
      · rfl
    · change ((s.table.modify id (withStatus status)).get? other).map Item.standing = _
      by_cases heq : other = id
      · subst heq
        rw [if_pos rfl, Table.get?_modify_self _ _ (withStatus status) fun _ => rfl, standing?, Option.map_map,
          Option.map_map]
        rfl
      · rw [if_neg heq, Table.get?_modify_of_ne _ heq (withStatus status) fun _ => rfl]
        rfl

theorem duties_setStatus (s : Scheduler) (id : ItemId) (status : Status) :
    (s.setStatus id status).duties = s.duties := by
  rw [setStatus_eq]
  rfl

theorem duty?_setStatus (s : Scheduler) (id : ItemId) (status : Status) (other : ItemId) :
    (s.setStatus id status).duty? other = s.duty? other := by
  rw [duty?_eq_find?, duties_setStatus, ← duty?_eq_find?]

theorem sound_setStatus (h : s.table.Sound) (id : ItemId) (status : Status) :
    (s.setStatus id status).table.Sound :=
  h.of_ids (ids_setStatus s id status) (nextId_setStatus s id status)

theorem duties_stopTransfer (s : Scheduler) (id : ItemId) (reason : StopReason) :
    (s.stopTransfer id reason).duties =
      s.duties.map fun duty => if duty.id = id then duty.stopped reason else duty := by
  rw [duties, duties, stopTransfer, rebind, List.map_map, List.map_map]
  refine List.map_congr_left fun binding _ => ?_
  by_cases heq : binding.id = id
  · rw [Function.comp_apply, Function.comp_apply, if_pos heq, if_pos (by exact heq)]
    rfl
  · rw [Function.comp_apply, Function.comp_apply, if_neg heq, if_neg (by exact heq)]

/-- A stop is for one worker, and no other duty changes. -/
theorem duty?_stopTransfer (s : Scheduler) (id : ItemId) (reason : StopReason) (other : ItemId) :
    (s.stopTransfer id reason).duty? other =
      if other = id then (s.duty? id).map (Duty.stopped reason) else s.duty? other := by
  rw [duty?_eq_find?, duties_stopTransfer, List.find?_map]
  have hpred : ((fun duty : Duty => decide (duty.id = other)) ∘
      fun duty => if duty.id = id then duty.stopped reason else duty) =
      fun duty => decide (duty.id = other) := by
    funext duty
    rw [Function.comp_apply]
    split <;> rfl
  rw [hpred, ← duty?_eq_find?]
  split
  · next heq =>
    subst heq
    cases hduty : s.duty? other with
    | none => rfl
    | some duty => rw [Option.map_some, if_pos (id_of_duty? hduty), Option.map_some]
  · next hne =>
    cases hduty : s.duty? other with
    | none => rfl
    | some duty =>
      rw [Option.map_some, if_neg]
      rw [id_of_duty? hduty]
      exact hne

/-- Without a worker there is nothing to stop. -/
theorem stopTransfer_of_duty?_eq_none (h : s.duty? id = none) (reason : StopReason) :
    s.stopTransfer id reason = s := by
  have hne : ∀ binding ∈ s.active, binding.id ≠ id := by
    intro binding hmem heq
    have hbound : s.isBound id = true := by
      rw [isBound, List.any_eq_true]
      exact ⟨binding, hmem, by simpa using heq⟩
    rw [isBound_eq_false_iff.mpr h] at hbound
    cases hbound
  have hmap : (s.active.map fun binding =>
      if binding.id = id then
        { binding with stop := some (StopReason.merge binding.stop reason), cancelled := true }
      else binding) = s.active.map fun binding => binding := by
    refine List.map_congr_left fun binding hmem => ?_
    rw [if_neg (hne binding hmem)]
  rw [stopTransfer, rebind, hmap, List.map_id']

theorem duties_unbind (s : Scheduler) (id : ItemId) :
    (s.unbind id).duties = s.duties.filter fun duty => duty.id ≠ id := by
  rw [duties, duties, unbind, List.filter_map]
  rfl

theorem duty?_unbind (s : Scheduler) (id other : ItemId) :
    (s.unbind id).duty? other = if other = id then none else s.duty? other := by
  rw [duty?_eq_find?, duties_unbind, List.find?_filter, duty?_eq_find?]
  split
  · next heq =>
    subst heq
    rw [List.find?_eq_none]
    intro duty _
    simp
  · next hne =>
    congr 1
    funext duty
    by_cases heq : duty.id = other
    · simp [heq, hne]
    · simp [heq]

theorem duty?_ne_none_of_unbind (h : (s.unbind id).duty? other ≠ none) : s.duty? other ≠ none := by
  rw [duty?_unbind] at h
  split at h
  · exact absurd rfl h
  · exact h

def newBinding (s : Scheduler) (item : Item) : Binding :=
  { id := item.id, seq := s.admissions + 1, startOffset := item.bytesDownloaded,
    startedAt := s.clock, cancelled := false, stop := none }

def newDuty (s : Scheduler) (id : ItemId) : Duty :=
  { id, seq := s.admissions + 1, cancelled := false, stop := none }

def fetchOf (s : Scheduler) (standing : Standing) : FetchRequest :=
  { id := standing.id, url := standing.sourceUrl, destination := standing.destination,
    resumeOffset := s.files.fileLength standing.destination }

/-- An admission is an entry in the books and a new status. -/
theorem startTransfer_eq {item : Item} (h : s.table.get? id = some item) :
    s.startTransfer id =
      { s with
        admissions := s.admissions + 1
        active := s.active ++ [s.newBinding item]
        fetches := s.fetches ++ [s.fetchOf item.standing] }.setStatus id .downloading := by
  obtain rfl : item.id = id := Table.id_of_get? h
  rw [startTransfer, h]
  rfl

theorem duties_startTransfer {item : Item} (h : s.table.get? id = some item) :
    (s.startTransfer id).duties = s.duties ++ [s.newDuty id] := by
  obtain rfl : item.id = id := Table.id_of_get? h
  rw [startTransfer_eq h, setStatus_eq, duties, List.map_append]
  rfl

theorem duty?_startTransfer {item : Item} (h : s.table.get? id = some item)
    (hfree : s.duty? id = none) (other : ItemId) :
    (s.startTransfer id).duty? other =
      if other = id then some (s.newDuty id) else s.duty? other := by
  rw [duty?_eq_find?, duties_startTransfer h, List.find?_append, ← duty?_eq_find?]
  split
  · next heq =>
    subst heq
    rw [hfree, Option.none_or]
    exact List.find?_cons_of_pos (by simp [newDuty])
  · next hne =>
    rw [List.find?_cons_of_neg (by simp [newDuty, Ne.symm hne]), List.find?_nil,
      Option.or_none]

theorem standing?_startTransfer {item : Item} (h : s.table.get? id = some item) (other : ItemId) :
    (s.startTransfer id).standing? other =
      if other = id then some (item.standing.withStatus .downloading) else s.standing? other := by
  rw [startTransfer_eq h, standing?_setStatus]
  split
  · change (s.standing? id).map _ = _
    rw [standing?_of_get? h]
    rfl
  · rfl

theorem ids_startTransfer (s : Scheduler) (id : ItemId) :
    (s.startTransfer id).table.items.map Item.id = s.table.items.map Item.id := by
  rw [startTransfer]
  split
  · rfl
  · exact ids_setStatus _ _ _

/-- Discarding an item's file changes the tree and the log of removals, and of the item only its
progress. -/
theorem discardPartial_alike {item : Item} (h : s.table.get? id = some item) :
    Alike
      { s with
        files := (s.files.removePartial item.destination).toOption.getD s.files
        removals := s.removals ++ [{ destination := item.destination, held := s.held }] }
      (s.discardPartial id) := by
  rw [discardPartial, h]
  refine Alike.trans ?_ (alike_markDirty _)
  exact alike_modifyItem _ id _ fun _ => rfl

theorem standing?_discardPartial (s : Scheduler) (id other : ItemId) :
    (s.discardPartial id).standing? other = s.standing? other := by
  cases hget : s.table.get? id with
  | none => rw [discardPartial, hget]
  | some item => exact (discardPartial_alike hget).standing? other

theorem duty?_discardPartial (s : Scheduler) (id other : ItemId) :
    (s.discardPartial id).duty? other = s.duty? other := by
  cases hget : s.table.get? id with
  | none => rw [discardPartial, hget]
  | some item => exact (discardPartial_alike hget).duty? other

theorem duties_discardPartial (s : Scheduler) (id : ItemId) :
    (s.discardPartial id).duties = s.duties := by
  cases hget : s.table.get? id with
  | none => rw [discardPartial, hget]
  | some item => exact (discardPartial_alike hget).duties

theorem nextId_discardPartial (s : Scheduler) (id : ItemId) :
    (s.discardPartial id).table.nextId = s.table.nextId := by
  cases hget : s.table.get? id with
  | none => rw [discardPartial, hget]
  | some item => exact (discardPartial_alike hget).nextId

theorem sound_discardPartial (h : s.table.Sound) (id : ItemId) :
    (s.discardPartial id).table.Sound := by
  cases hget : s.table.get? id with
  | none => rwa [discardPartial, hget]
  | some item =>
    have halike := discardPartial_alike hget
    exact h.of_ids halike.ids halike.nextId

end Scheduler

end DownloadQueue
