import DownloadQueue.Proofs.FileSystem.Apart
import DownloadQueue.Proofs.Records
import DownloadQueue.Proofs.Timers

/-!
# What a message leaves behind

A message is about one item: about its record, its worker, its file and its timer. What it leaves of
them, and what else it notes, is its imprint, and that depends on nothing but these and the settings.
So messages about different items can be handled in either order, if their files are apart; what is
left agrees in all but the order of the events.
-/

namespace DownloadQueue

def Binding.unnumbered (binding : Binding) : Binding :=
  { binding with seq := 0 }

namespace Table

variable {table : Table} {id other : ItemId} {item first second : Item}

def replace (table : Table) (item : Item) : Table :=
  table.modify item.id fun _ => item

theorem get?_replace (table : Table) (item : Item) (other : ItemId) :
    (table.replace item).get? other =
      if other = item.id then (table.get? other).map fun _ => item else table.get? other := by
  obtain ⟨items, nextId⟩ := table
  change (replaceFirst item.id (fun _ => item) items).find? (fun found => found.id = other) =
    if other = item.id then (items.find? fun found => found.id = other).map fun _ => item
    else items.find? fun found => found.id = other
  induction items with
  | nil => simp [replaceFirst]
  | cons head items ih =>
    rw [replaceFirst]
    by_cases hhead : head.id = item.id
    · rw [if_pos hhead, List.find?_cons, List.find?_cons, hhead]
      by_cases hother : other = item.id
      · simp [hother]
      · simp [hother, Ne.symm hother]
    · rw [if_neg hhead, List.find?_cons, List.find?_cons, ih]
      by_cases hfound : head.id = other
      · subst hfound
        simp [hhead]
      · simp [hfound]

theorem ids_replace (table : Table) (item : Item) :
    (table.replace item).items.map Item.id = table.items.map Item.id := by
  change (replaceFirst item.id (fun _ => item) table.items).map Item.id = table.items.map Item.id
  induction table.items with
  | nil => rfl
  | cons head items ih =>
    rw [replaceFirst]
    split
    · next hhead => rw [List.map_cons, List.map_cons, hhead]
    · rw [List.map_cons, List.map_cons, ih]

theorem modify_eq_replace (hget : table.get? id = some item) (change : Item → Item)
    (hid : (change item).id = item.id) : table.modify id change = table.replace (change item) := by
  obtain rfl := Table.id_of_get? hget
  obtain ⟨items, nextId⟩ := table
  unfold replace modify
  congr 1
  rw [hid]
  change items.find? (fun found => found.id = item.id) = some item at hget
  dsimp only
  induction items with
  | nil => cases hget
  | cons head items ih =>
    rw [List.find?_cons] at hget
    rw [replaceFirst, replaceFirst]
    by_cases hhead : head.id = item.id
    · simp only [hhead, decide_true, Option.some.injEq] at hget
      rw [if_pos hhead, if_pos hhead, hget]
    · simp only [hhead, decide_false] at hget
      rw [if_neg hhead, if_neg hhead, ih hget]

theorem replace_self (hget : table.get? id = some item) : table.replace item = table := by
  rw [← modify_eq_replace hget (fun item => item) rfl]
  obtain ⟨items, nextId⟩ := table
  unfold modify
  congr 1
  clear hget
  dsimp only
  induction items with
  | nil => rfl
  | cons head items ih => rw [replaceFirst, ih, ite_self]

theorem replace_replace (h : first.id = second.id) :
    (table.replace first).replace second = table.replace second := by
  obtain ⟨items, nextId⟩ := table
  unfold replace modify
  rw [h]
  congr 1
  dsimp only
  induction items with
  | nil => rfl
  | cons head items ih =>
    rw [replaceFirst, replaceFirst]
    split
    · next hhead => rw [replaceFirst, if_pos h]
    · next hhead => rw [replaceFirst, if_neg hhead, ih]

/-- Items with different numbers are replaced in either order. -/
theorem replace_comm (h : first.id ≠ second.id) :
    (table.replace first).replace second = (table.replace second).replace first := by
  obtain ⟨items, nextId⟩ := table
  unfold replace modify
  congr 1
  dsimp only
  induction items with
  | nil => rfl
  | cons head items ih =>
    rw [replaceFirst, replaceFirst.eq_2 second.id]
    by_cases hfirst : head.id = first.id
    · have hsecond : head.id ≠ second.id := fun heq => h (hfirst.symm.trans heq)
      rw [if_pos hfirst, if_neg hsecond, replaceFirst, if_neg h, replaceFirst, if_pos hfirst]
    · rw [if_neg hfirst]
      by_cases hsecond : head.id = second.id
      · rw [if_pos hsecond, replaceFirst, if_pos hsecond, replaceFirst, if_neg (Ne.symm h)]
      · rw [if_neg hsecond, replaceFirst, if_neg hsecond, replaceFirst, if_neg hfirst, ih]

end Table

/-- What an operation leaves of one item, and what it notes besides. -/
structure Imprint where
  item : Item
  worker : Option Binding
  waits : Bool := false
  discards : Bool := false
  dirty : Bool := false
  admits : Nat := 0
  events : List Event := []

def Imprint.andThen (first second : Imprint) : Imprint where
  item := second.item
  worker := second.worker
  waits := first.waits || second.waits
  discards := second.discards
  dirty := first.dirty || second.dirty
  admits := first.admits + second.admits
  events := first.events ++ second.events

namespace Scheduler

variable {s t u : Scheduler} {id other : ItemId} {item : Item} {worker : Option Binding}
variable {first second imprint : Imprint}

def worker? (s : Scheduler) (id : ItemId) : Option Binding :=
  (s.binding? id).map Binding.unnumbered

def bare (s : Scheduler) : Scheduler :=
  { s with
    table := .empty, active := [], admissions := 0, dirty := false, timers := [], pending := []
    nextSerial := 0, files := .empty, events := [], fetches := [], removals := [] }

/-- The settings and the surroundings are part of what is left. -/
theorem field_eq_of_bare {α : Type} (h : t.bare = s.bare) (field : Scheduler → α)
    (hfield : ∀ s : Scheduler, field s.bare = field s) : field t = field s := by
  rw [← hfield t, h, hfield]

/-- One scheduler is the other one with this imprint. -/
structure Imprinted (imprint : Imprint) (s t : Scheduler) : Prop where
  table : t.table = s.table.replace imprint.item
  worker? : ∀ id, t.worker? id = if id = imprint.item.id then imprint.worker else s.worker? id
  pending : ∀ id, id ∈ t.pending.map Prod.fst ↔
    id ∈ s.pending.map Prod.fst ∨ (imprint.waits = true ∧ id = imprint.item.id)
  files : t.files =
    if imprint.discards then s.files.without imprint.item.destination else s.files
  dirty : t.dirty = (s.dirty || imprint.dirty)
  admissions : t.admissions = s.admissions + imprint.admits
  events : t.events = s.events ++ imprint.events
  bare : t.bare = s.bare

theorem Imprinted.get?_self (h : Imprinted imprint s t) (hid : imprint.item.id = id)
    (hget : s.table.get? id = some item) : t.table.get? id = some imprint.item := by
  rw [h.table, Table.get?_replace, if_pos hid.symm, hget, Option.map_some]

theorem Imprinted.get?_of_ne (h : Imprinted imprint s t) (hne : id ≠ imprint.item.id) :
    t.table.get? id = s.table.get? id := by
  rw [h.table, Table.get?_replace, if_neg hne]

theorem Imprinted.worker?_self (h : Imprinted imprint s t) (hid : imprint.item.id = id) :
    t.worker? id = imprint.worker := by
  rw [h.worker?, if_pos hid.symm]

theorem Imprinted.worker?_of_ne (h : Imprinted imprint s t) (hne : id ≠ imprint.item.id) :
    t.worker? id = s.worker? id := by
  rw [h.worker?, if_neg hne]

/-- Imprints on one item follow upon each other. -/
theorem Imprinted.trans (h : Imprinted first s t) (h' : Imprinted second t u)
    (hid : first.item.id = second.item.id) (hkept : first.discards = false) :
    Imprinted (first.andThen second) s u where
  table := by rw [h'.table, h.table, Table.replace_replace hid]; rfl
  worker? id := by
    rw [h'.worker?, h.worker?, hid, Imprint.andThen]
    split <;> rfl
  pending id := by
    rw [h'.pending, h.pending, hid, Imprint.andThen, Bool.or_eq_true, or_assoc, or_and_right]
  files := by rw [h'.files, h.files, hkept, if_neg Bool.false_ne_true]; rfl
  dirty := by rw [h'.dirty, h.dirty, Bool.or_assoc]; rfl
  admissions := by rw [h'.admissions, h.admissions, Nat.add_assoc]; rfl
  events := by rw [h'.events, h.events, List.append_assoc]; rfl
  bare := h'.bare.trans h.bare

/-- An imprint on the item that another one left. -/
theorem Imprinted.followed (h : Imprinted first s t) (hid : first.item.id = id)
    (hget : s.table.get? id = some item) (hkept : first.discards = false)
    (hnext : t.table.get? id = some first.item → t.worker? id = first.worker →
      Imprinted second t u) (hsame : second.item.id = first.item.id) :
    Imprinted (first.andThen second) s u :=
  h.trans (hnext (h.get?_self hid hget) (h.worker?_self hid)) hsame.symm hkept

theorem Imprinted.of_eq (h : Imprinted first s t) (heq : first = second) : Imprinted second s t :=
  heq ▸ h

def Leaves (s : Scheduler) (step : Step Unit) : Except Overflow Imprint → Prop
  | .ok imprint => ∃ t, step = .done t () ∧ Imprinted imprint s t
  | .error overflow => step.result = .error overflow

/-! ## Imprints of small changes -/

section

variable (hget : s.table.get? id = some item) (hworker : s.worker? id = worker)
include hget hworker

theorem worker?_eq_ite (other : ItemId) :
    s.worker? other = if other = item.id then worker else s.worker? other := by
  obtain rfl := Table.id_of_get? hget
  split
  · next heq => rw [heq, hworker]
  · rfl

theorem imprinted_modifyItem (change : Item → Item) (hid : (change item).id = item.id) :
    Imprinted { item := change item, worker } s (s.modifyItem id change) where
  table := Table.modify_eq_replace hget change hid
  worker? other := by
    rw [hid]
    exact worker?_eq_ite hget hworker other
  pending other := by simp [modifyItem]
  files := rfl
  dirty := (Bool.or_false _).symm
  admissions := rfl
  events := (List.append_nil _).symm
  bare := rfl

theorem imprinted_emit (event : Event) :
    Imprinted { item, worker, events := [event] } s (s.emit event) where
  table := (Table.replace_self hget).symm
  worker? other := worker?_eq_ite hget hworker other
  pending other := by simp [emit]
  files := rfl
  dirty := (Bool.or_false _).symm
  admissions := rfl
  events := rfl
  bare := rfl

theorem imprinted_markDirty : Imprinted { item, worker, dirty := true } s s.markDirty where
  table := (Table.replace_self hget).symm
  worker? other := worker?_eq_ite hget hworker other
  pending other := by simp [markDirty]
  files := rfl
  dirty := (Bool.or_true _).symm
  admissions := rfl
  events := (List.append_nil _).symm
  bare := rfl

theorem imprinted_refl : Imprinted { item, worker } s s where
  table := (Table.replace_self hget).symm
  worker? other := worker?_eq_ite hget hworker other
  pending other := by simp
  files := rfl
  dirty := (Bool.or_false _).symm
  admissions := rfl
  events := (List.append_nil _).symm
  bare := rfl

end

@[simp] theorem id_turned (status : Status) (item : Item) : (turned status item).id = item.id := by
  unfold turned
  split <;> rfl

@[simp] theorem destination_turned (status : Status) (item : Item) :
    (turned status item).destination = item.destination := by
  unfold turned
  split <;> rfl

def tidings (status : Status) (item : Item) : List Event :=
  if item.status = status then [] else [.statusChanged item.id item.status status]

/-- The imprint of a status that is set. -/
theorem imprinted_setStatus (hget : s.table.get? id = some item) (hworker : s.worker? id = worker)
    (status : Status) :
    Imprinted
      { item := turned status item, worker, dirty := item.status ≠ status
        events := tidings status item }
      s (s.setStatus id status) := by
  by_cases heq : item.status = status
  · rw [setStatus_of_eq hget heq, turned_of_status heq, tidings, if_pos heq,
      decide_eq_false (not_not.mpr heq)]
    exact imprinted_refl hget hworker
  · rw [setStatus_of_ne hget heq, turned, if_neg heq, tidings, if_neg heq, decide_eq_true heq]
    obtain rfl := Table.id_of_get? hget
    have hchanged := imprinted_modifyItem hget hworker (withStatus status) rfl
    have hmarked := hchanged.followed rfl hget rfl imprinted_markDirty rfl
    exact hmarked.followed rfl hget rfl (fun hget hworker => imprinted_emit hget hworker _) rfl

/-- The imprint of a file that is thrown away. -/
theorem imprinted_discardPartial (hget : s.table.get? id = some item)
    (hworker : s.worker? id = worker) :
    Imprinted { item := item.blank, worker, discards := true, dirty := true } s
      (s.discardPartial id) := by
  have hworkers := worker?_eq_ite hget hworker
  rw [discardPartial, hget]
  exact {
    table := Table.modify_eq_replace hget Item.blank rfl
    worker? := hworkers
    pending := fun other => by simp [modifyItem, markDirty]
    files := rfl
    dirty := (Bool.or_true _).symm
    admissions := rfl
    events := (List.append_nil _).symm
    bare := rfl }

/-- The imprint of progress that is read off the file. -/
theorem imprinted_reconcile (hget : s.table.get? id = some item) (hworker : s.worker? id = worker) :
    Imprinted
      { item := item.measured s.files, worker
        dirty := s.files.fileLength item.destination ≠ item.bytesDownloaded }
      s (s.reconcile id) := by
  rw [reconcile, hget]
  dsimp only
  split
  · next hsame =>
    rw [decide_eq_false (not_not.mpr hsame), Item.measured, hsame]
    exact imprinted_refl hget hworker
  · next hdiffers =>
    rw [decide_eq_true hdiffers]
    obtain rfl := Table.id_of_get? hget
    have hchanged := imprinted_modifyItem hget hworker
      (fun found => { found with bytesDownloaded := s.files.fileLength item.destination }) rfl
    exact hchanged.followed rfl hget rfl imprinted_markDirty rfl

/-- To stop an item's timer takes nobody else off the list of those that wait. -/
theorem mem_pending_cancelTimer (s : Scheduler) (id other : ItemId) :
    other ∈ (s.cancelTimer id).pending.map Prod.fst ∨ other = id ↔
      other ∈ s.pending.map Prod.fst ∨ other = id := by
  rw [cancelTimer]
  split
  · rfl
  · simp only [forgetTimer, abortTimer, List.mem_map, List.mem_filter, decide_eq_true_eq]
    constructor
    · rintro (⟨entry, ⟨hmem, -⟩, heq⟩ | heq)
      · exact .inl ⟨entry, hmem, heq⟩
      · exact .inr heq
    · rintro (⟨entry, hmem, rfl⟩ | heq)
      · by_cases heq : entry.1 = id
        · exact .inr heq
        · exact .inl ⟨entry, ⟨hmem, heq⟩, rfl⟩
      · exact .inr heq

/-- A retry that is scheduled changes nothing but the timers and who waits for them. -/
theorem exists_scheduleRetry_eq (s : Scheduler) (id : ItemId) (delay : Duration) :
    ∃ timers pending nextSerial,
      s.scheduleRetry id delay = { s with timers, pending, nextSerial } := by
  rw [scheduleRetry, cancelTimer]
  split <;> exact ⟨_, _, _, rfl⟩

theorem mem_pending_scheduleRetry (s : Scheduler) (id other : ItemId) (delay : Duration) :
    other ∈ (s.scheduleRetry id delay).pending.map Prod.fst ↔
      other ∈ s.pending.map Prod.fst ∨ other = id := by
  rw [← mem_pending_cancelTimer]
  simp [scheduleRetry]

/-- The imprint of a timer; its serial is not part of it. -/
theorem imprinted_scheduleRetry (hget : s.table.get? id = some item)
    (hworker : s.worker? id = worker) (delay : Duration) :
    Imprinted { item, worker, waits := true } s (s.scheduleRetry id delay) := by
  obtain rfl := Table.id_of_get? hget
  have hpending (other : ItemId) := mem_pending_scheduleRetry s item.id other delay
  obtain ⟨timers, pending, nextSerial, hscheduled⟩ := exists_scheduleRetry_eq s item.id delay
  rw [hscheduled] at hpending ⊢
  exact {
    table := (Table.replace_self hget).symm
    worker? := worker?_eq_ite hget hworker
    pending := fun other => by rw [hpending, eq_self, true_and]
    files := rfl
    dirty := (Bool.or_false _).symm
    admissions := rfl
    events := (List.append_nil _).symm
    bare := rfl }

theorem worker?_unbind (s : Scheduler) (id other : ItemId) :
    (s.unbind id).worker? other = if other = id then none else s.worker? other := by
  rw [worker?, binding?, unbind, List.find?_filter]
  split
  · next heq =>
    subst heq
    rw [Option.map_eq_none_iff, List.find?_eq_none]
    simp
  · next hne =>
    rw [worker?, binding?]
    congr 2
    funext binding
    by_cases heq : binding.id = other
    · simp [heq, hne]
    · simp [heq]

theorem imprinted_unbind (hget : s.table.get? id = some item) :
    Imprinted { item, worker := none } s (s.unbind id) where
  table := (Table.replace_self hget).symm
  worker? other := by
    obtain rfl := Table.id_of_get? hget
    exact worker?_unbind s item.id other
  pending other := by simp [unbind]
  files := rfl
  dirty := (Bool.or_false _).symm
  admissions := rfl
  events := (List.append_nil _).symm
  bare := rfl

/-- The imprint of a change to a worker that keeps its number. -/
theorem imprinted_rebind (hget : s.table.get? id = some item) {binding : Binding}
    (hworker : s.worker? id = some binding) (change : Binding → Binding)
    (hid : ∀ binding, (change binding).id = binding.id)
    (hchange : ∀ binding, (change binding).unnumbered = change binding.unnumbered) :
    Imprinted { item, worker := some (change binding) } s (s.rebind id change) where
  table := (Table.replace_self hget).symm
  worker? other := by
    obtain rfl := Table.id_of_get? hget
    have hpredicate : ((fun binding : Binding => decide (binding.id = other)) ∘ fun binding =>
        if binding.id = item.id then change binding else binding) =
        fun binding => decide (binding.id = other) := by
      funext binding
      rw [Function.comp_apply]
      split
      · rw [hid]
      · rfl
    have hrebound : (s.rebind item.id change).worker? other = (s.binding? other).map fun binding =>
        (if binding.id = item.id then change binding else binding).unnumbered := by
      rw [worker?, binding?, rebind, List.find?_map, hpredicate, Option.map_map]
      rfl
    rw [hrebound]
    dsimp only
    split
    · next heq =>
      subst heq
      obtain ⟨found, hfound, rfl⟩ := Option.map_eq_some_iff.mp hworker
      have hown : found.id = item.id := by simpa using List.find?_some hfound
      rw [hfound, Option.map_some, if_pos hown, hchange]
    · next hne =>
      rw [worker?]
      cases hfound : s.binding? other with
      | none => rfl
      | some found =>
        have hown : found.id = other := by simpa using List.find?_some hfound
        rw [Option.map_some, Option.map_some, if_neg (hown ▸ hne)]
  pending other := by simp [rebind]
  files := rfl
  dirty := (Bool.or_false _).symm
  admissions := rfl
  events := (List.append_nil _).symm
  bare := rfl

/-! ## Admissions -/

def admission (clock : Nat) (item : Item) : Imprint where
  item := turned .downloading item
  worker := some
    { id := item.id, seq := 0, startOffset := item.bytesDownloaded, startedAt := clock
      cancelled := false, stop := none }
  dirty := item.status ≠ .downloading
  admits := 1
  events := tidings .downloading item

def engaged (s : Scheduler) (item : Item) : Scheduler :=
  { s with
    admissions := s.admissions + 1
    active := s.active ++ [s.newBinding item]
    fetches := s.fetches ++ [s.fetchOf item.standing] }

/-- The imprint of an admission does not tell which number the worker got. -/
theorem imprinted_engaged (hget : s.table.get? item.id = some item)
    (hfree : s.worker? item.id = none) :
    Imprinted { item, worker := (admission s.clock item).worker, admits := 1 } s
      (s.engaged item) where
  table := (Table.replace_self hget).symm
  worker? other := by
    have hnone : s.binding? item.id = none := Option.map_eq_none_iff.mp hfree
    rw [worker?, worker?, binding?, binding?, engaged, List.find?_append]
    dsimp only
    split
    · next heq =>
      subst heq
      rw [← binding?, hnone, Option.none_or, List.find?_cons_of_pos (by simp [newBinding])]
      rfl
    · next hne =>
      rw [List.find?_cons_of_neg (by simp [newBinding, Ne.symm hne]), List.find?_nil,
        Option.or_none]
  pending other := by simp [engaged]
  files := rfl
  dirty := (Bool.or_false _).symm
  admissions := rfl
  events := (List.append_nil _).symm
  bare := rfl

theorem imprinted_startTransfer (hget : s.table.get? id = some item) (hfree : s.worker? id = none) :
    Imprinted (admission s.clock item) s (s.startTransfer id) := by
  obtain rfl := Table.id_of_get? hget
  rw [startTransfer_eq hget]
  exact (imprinted_engaged hget hfree).followed rfl hget rfl
    (fun hget hworker => imprinted_setStatus hget hworker .downloading) (id_turned .downloading item)

def completion (item : Item) : Imprint where
  item := turned .finished (totalled item)
  worker := none
  dirty := item.status ≠ .finished
  events := tidings .finished item

def failure (item : Item) (reason : String) (waits : Bool) : Imprint where
  item := { turned .failed item with lastError := some reason }
  worker := none
  waits := waits
  dirty := item.status ≠ .failed
  events := tidings .failed item ++ [.failed item.id reason]

def interruption (files : FileSystem) (item : Item) : Imprint where
  item := (turned .queued item).measured files
  worker := none
  dirty := item.status ≠ .queued || files.fileLength item.destination ≠ item.bytesDownloaded
  events := tidings .queued item

def stop (files : FileSystem) (item : Item) (reason : StopReason) : Imprint :=
  if reason.discardsPartial then
    { item := item.blank, worker := none, discards := true, dirty := true }
  else
    { item := item.measured files, worker := none
      dirty := files.fileLength item.destination ≠ item.bytesDownloaded }

def imprintOfEnding (s : Scheduler) (item : Item) :
    Option StopReason → Ending → Except Overflow Imprint
  | none, .completed => .ok (completion item)
  | some .delete, .completed => .ok { item, worker := none }
  | some _, .completed => .ok (completion item)
  | none, .failed reason retryable =>
    (s.config.retry.automaticDelay s.share retryable item.attempts).map fun delay =>
      failure item reason delay.isSome
  | none, .cancelled => .ok (interruption s.files item)
  | some reason, _ => .ok (stop s.files item reason)

def imprintOfReport (s : Scheduler) (item : Item) (binding : Binding) :
    Report → Except Overflow Imprint
  | .progress (.started offset total) => .ok
      { item := { item with
          bytesDownloaded := offset, bytesTotal := knownTotal total item.bytesTotal }
        worker := some { binding with startOffset := offset, startedAt := s.clock }
        events := [.started item.id offset] }
  | .progress (.reached bytes total) => .ok <|
      if bytes < item.bytesDownloaded then { item, worker := some binding }
      else
        { item := { item with
            bytesDownloaded := bytes, bytesTotal := knownTotal total item.bytesTotal }
          worker := some binding
          events := [.progress item.id bytes (knownTotal total item.bytesTotal)] }
  | .ended ending => s.imprintOfEnding item binding.stop ending

def absorb (s : Scheduler) (message : Message) : Step Unit :=
  match message.report with
  | .progress progress => .done (s.handleProgress message.id progress) ()
  | .ended ending =>
    (s.unbind message.id).settle message.id ((s.worker? message.id).bind Binding.stop) ending

theorem isBound_of_worker? {binding : Binding} (h : s.worker? id = some binding) :
    s.isBound id = true := by
  obtain ⟨found, hfound, -⟩ := Option.map_eq_some_iff.mp h
  exact isBound_iff.mpr ⟨found.duty, by rw [duty?, hfound]; rfl⟩

/-- A message from an item's worker is absorbed, and after an ending workers are admitted. -/
theorem handleMessage_eq {message : Message} {binding : Binding}
    (h : s.worker? message.id = some binding) :
    s.handleMessage message =
      (s.absorb message).andThen fun s () =>
        .done (if message.isEnding then s.tick else s) () := by
  unfold handleMessage absorb Message.isEnding
  cases message.report with
  | progress progress => rfl
  | ended ending =>
    obtain ⟨found, hfound, -⟩ := Option.map_eq_some_iff.mp h
    dsimp only
    rw [handleEnding, hfound, worker?, hfound]
    rfl

/-- A report leaves the imprint that its worker and its item call for, and cannot overflow. -/
theorem imprinted_handleProgress (hget : s.table.get? id = some item) {binding : Binding}
    (hworker : s.worker? id = some binding) (progress : Progress) :
    ∃ imprint, s.imprintOfReport item binding (.progress progress) = .ok imprint ∧
      Imprinted imprint s (s.handleProgress id progress) := by
  have hbound := isBound_of_worker? hworker
  obtain rfl := Table.id_of_get? hget
  rw [handleProgress, hbound, hget]
  cases progress with
  | started offset total =>
    refine ⟨_, rfl, ?_⟩
    have hnoted := imprinted_modifyItem hget hworker (fun item =>
      { item with bytesDownloaded := offset, bytesTotal := knownTotal total item.bytesTotal }) rfl
    have hrebound := hnoted.followed rfl hget rfl (fun hget hworker => imprinted_rebind hget hworker
      (fun binding => { binding with startOffset := offset, startedAt := s.clock })
      (fun _ => rfl) fun _ => rfl) rfl
    exact hrebound.followed rfl hget rfl (fun hget hworker => imprinted_emit hget hworker _) rfl
  | reached bytes total =>
    refine ⟨_, rfl, ?_⟩
    dsimp only
    split
    · exact imprinted_refl hget hworker
    · have hnoted := imprinted_modifyItem hget hworker (fun found =>
        { found with bytesDownloaded := bytes, bytesTotal := knownTotal total item.bytesTotal }) rfl
      exact hnoted.followed rfl hget rfl (fun hget hworker => imprinted_emit hget hworker _) rfl

theorem imprinted_finish (hget : s.table.get? id = some item) (hfree : s.worker? id = none) :
    Imprinted (completion item) s (s.finish id) := by
  have hid : item.id = id := Table.id_of_get? hget
  have hnoted := imprinted_modifyItem hget hfree totalled rfl
  exact hnoted.followed hid hget rfl
    (fun hget hworker => imprinted_setStatus hget hworker .finished)
    (id_turned .finished (totalled item))

theorem imprinted_marked (hget : s.table.get? id = some item) (hfree : s.worker? id = none)
    (reason : String) : Imprinted (failure item reason false) s (s.marked id reason) := by
  obtain rfl := Table.id_of_get? hget
  have hid := id_turned .failed item
  have hturned := imprinted_setStatus hget hfree .failed
  have hnoted := hturned.followed hid hget rfl (fun hget hworker =>
    imprinted_modifyItem hget hworker (fun item => { item with lastError := some reason }) rfl) rfl
  have htold := hnoted.followed hid hget rfl
    (fun hget hworker => imprinted_emit hget hworker (.failed item.id reason)) rfl
  exact htold.of_eq (by simp [Imprint.andThen, failure])

/-- The imprint of a failure; no other item has a say in whether a timer is set. -/
theorem leaves_fail (hget : s.table.get? id = some item) (hfree : s.worker? id = none)
    (reason : String) (retryable : Bool) :
    s.Leaves (s.fail id reason retryable)
      ((s.config.retry.automaticDelay s.share retryable item.attempts).map fun delay =>
        failure item reason delay.isSome) := by
  have hmarked := imprinted_marked hget hfree reason
  rw [fail_eq hget]
  cases s.config.retry.automaticDelay s.share retryable item.attempts with
  | error overflow => rfl
  | ok delay =>
    cases delay with
    | none => exact ⟨_, rfl, hmarked⟩
    | some delay =>
      have hid : (turned .failed item).id = id := by rw [id_turned, Table.id_of_get? hget]
      have hscheduled := hmarked.followed hid hget rfl
        (fun hget hworker => imprinted_scheduleRetry hget hworker delay) rfl
      exact ⟨_, rfl, hscheduled.of_eq (by simp [Imprint.andThen, failure])⟩

theorem imprinted_requeue_reconcile (hget : s.table.get? id = some item)
    (hfree : s.worker? id = none) :
    Imprinted (interruption s.files item) s ((s.setStatus id .queued).reconcile id) := by
  have hid : (turned .queued item).id = id := by rw [id_turned, Table.id_of_get? hget]
  have hturned := imprinted_setStatus hget hfree .queued
  have hfiles : (s.setStatus id .queued).files = s.files := hturned.files
  refine (hturned.followed hid hget rfl imprinted_reconcile rfl).of_eq ?_
  simp [Imprint.andThen, interruption, hfiles, (bytes_turned .queued item).1]

theorem imprinted_applyStop (hget : s.table.get? id = some item) (hfree : s.worker? id = none)
    (reason : StopReason) : Imprinted (stop s.files item reason) s (s.applyStop id reason) := by
  unfold applyStop stop
  split
  · exact imprinted_discardPartial hget hfree
  · exact imprinted_reconcile hget hfree

/-- What the ending of a worker leaves of an item whose slot is free already. -/
theorem leaves_settle (hget : s.table.get? id = some item) (hfree : s.worker? id = none)
    (stop : Option StopReason) (ending : Ending) :
    s.Leaves (s.settle id stop ending) (s.imprintOfEnding item stop ending) := by
  cases stop with
  | none =>
    cases ending with
    | completed => exact ⟨_, rfl, imprinted_finish hget hfree⟩
    | failed reason retryable => exact leaves_fail hget hfree reason retryable
    | cancelled => exact ⟨_, rfl, imprinted_requeue_reconcile hget hfree⟩
  | some reason =>
    have hstopped := imprinted_applyStop hget hfree reason
    cases ending with
    | completed =>
      cases reason with
      | delete => exact ⟨_, rfl, imprinted_refl hget hfree⟩
      | _ => exact ⟨_, rfl, imprinted_finish hget hfree⟩
    | failed message retryable => cases reason <;> exact ⟨_, rfl, hstopped⟩
    | cancelled => cases reason <;> exact ⟨_, rfl, hstopped⟩

structure Final (item : Item) (imprint : Imprint) : Prop where
  id : imprint.item.id = item.id
  destination : imprint.item.destination = item.destination
  worker : imprint.worker = none

/-- An ending leaves the item without a worker, whatever stop was asked for. -/
theorem final_of_ending {stop : Option StopReason} {ending : Ending}
    (h : s.imprintOfEnding item stop ending = .ok imprint) : Final item imprint := by
  have hstop (reason : StopReason) : Final item (Scheduler.stop s.files item reason) := by
    unfold Scheduler.stop
    split <;> exact ⟨rfl, rfl, rfl⟩
  have hcompletion : Final item (completion item) :=
    ⟨id_turned _ _, destination_turned _ _, rfl⟩
  unfold imprintOfEnding at h
  split at h
  · cases h
    exact hcompletion
  · cases h
    exact ⟨rfl, rfl, rfl⟩
  · cases h
    exact hcompletion
  · next reason retryable =>
    cases hdelay : s.config.retry.automaticDelay s.share retryable item.attempts with
    | error overflow =>
      rw [hdelay] at h
      cases h
    | ok delay =>
      rw [hdelay] at h
      cases h
      exact ⟨id_turned _ _, destination_turned _ _, rfl⟩
  · cases h
    exact ⟨id_turned _ _, destination_turned _ _, rfl⟩
  · cases h
    exact hstop _

/-- A message from the worker of an item comes to this: an imprint or an overflow. -/
def Prompts (s : Scheduler) (message : Message) (outcome : Except Overflow Imprint) : Prop :=
  ∃ item binding, s.table.get? message.id = some item ∧ s.worker? message.id = some binding ∧
    s.imprintOfReport item binding message.report = outcome

theorem Imprinted.of_unbind (hget : s.table.get? id = some item)
    (h : Imprinted imprint (s.unbind id) t) (hid : imprint.item.id = id) :
    Imprinted imprint s t := by
  have hboth := (imprinted_unbind hget).trans h ((Table.id_of_get? hget).trans hid.symm) rfl
  exact hboth.of_eq (by simp [Imprint.andThen])

/-- What is absorbed of a message is what it comes to. -/
theorem Prompts.leaves {message : Message} {outcome : Except Overflow Imprint}
    (h : s.Prompts message outcome) : s.Leaves (s.absorb message) outcome := by
  obtain ⟨item, binding, hget, hworker, rfl⟩ := h
  obtain ⟨id, report⟩ := message
  cases report with
  | progress progress =>
    obtain ⟨imprint, himprint, himprinted⟩ := imprinted_handleProgress hget hworker progress
    change s.Leaves _ (s.imprintOfReport item binding (.progress progress))
    rw [himprint]
    exact ⟨_, rfl, himprinted⟩
  | ended ending =>
    have hfree : (s.unbind id).worker? id = none := by rw [worker?_unbind, if_pos rfl]
    have hsettle := leaves_settle (s := s.unbind id) hget hfree binding.stop ending
    have hstop : (s.worker? id).bind Binding.stop = binding.stop := by rw [hworker]; rfl
    unfold absorb imprintOfReport
    dsimp only
    rw [hstop]
    change Leaves (s.unbind id) _ (s.imprintOfEnding item binding.stop ending) at hsettle
    cases houtcome : s.imprintOfEnding item binding.stop ending with
    | error overflow =>
      rw [houtcome] at hsettle
      exact hsettle
    | ok imprint =>
      rw [houtcome] at hsettle
      obtain ⟨t, hdone, himprinted⟩ := hsettle
      have hid := (final_of_ending houtcome).id.trans (Table.id_of_get? hget)
      exact ⟨t, hdone, himprinted.of_unbind hget hid⟩

end Scheduler

end DownloadQueue
