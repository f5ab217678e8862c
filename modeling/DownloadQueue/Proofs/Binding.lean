import DownloadQueue.Proofs.Lifecycle
import Mathlib.Data.List.Perm.Subperm

/-!
# Workers and statuses

A run of the scheduler starts from a queue file that loads and is any sequence of operations, with
anything outside changing in between. In every state of a run an item is downloading exactly if it
has a worker that was not told to stop, and no more items are downloading than the limit allows.
-/

namespace DownloadQueue

namespace Scheduler

variable {heard : ItemId → Ending → Prop} {s t : Scheduler} {id : ItemId}

def Live (s : Scheduler) : Prop :=
  ∀ id standing, s.standing? id = some standing → standing.status = .downloading →
    ∃ duty, s.duty? id = some duty ∧ duty.stop = none

theorem Live.of_eq (h : s.Live) (hstanding : ∀ id, t.standing? id = s.standing? id)
    (hduty : ∀ id, t.duty? id = s.duty? id) : t.Live := by
  intro id standing hfound hstatus
  rw [hstanding] at hfound
  rw [hduty]
  exact h id standing hfound hstatus

/-- A change that concerns one item which it does not leave downloading keeps the others alive. -/
theorem Live.of_others (h : s.Live) (id : ItemId)
    (hstanding : ∀ other, other ≠ id → t.standing? other = s.standing? other)
    (hduty : ∀ other, other ≠ id → t.duty? other = s.duty? other)
    (hself : ∀ standing, t.standing? id = some standing → standing.status ≠ .downloading) :
    t.Live := by
  intro other standing hfound hstatus
  by_cases heq : other = id
  · subst heq
    exact absurd hstatus (hself standing hfound)
  · rw [hstanding other heq] at hfound
    rw [hduty other heq]
    exact h other standing hfound hstatus

theorem status_of_standing?_setStatus {status : Status} {standing : Standing}
    (h : (s.setStatus id status).standing? id = some standing) : standing.status = status := by
  rw [standing?_setStatus, if_pos rfl] at h
  obtain ⟨before, -, rfl⟩ := Option.map_eq_some_iff.mp h
  rfl

theorem Live.not_downloading (h : s.Live) {duty : Duty} (hduty : s.duty? id = some duty)
    (hstop : duty.stop ≠ none) {standing : Standing} (hstanding : s.standing? id = some standing) :
    standing.status ≠ .downloading := by
  intro hstatus
  obtain ⟨found, hfound, hnone⟩ := h id standing hstanding hstatus
  rw [hduty] at hfound
  cases hfound
  exact hstop hnone

theorem Live.startTransfer (h : s.Live) {item : Item} (hget : s.table.get? id = some item)
    (hfree : s.duty? id = none) : (s.startTransfer id).Live := by
  intro other standing hfound hstatus
  rw [duty?_startTransfer hget hfree]
  rw [standing?_startTransfer hget] at hfound
  split
  · exact ⟨_, rfl, rfl⟩
  · next hne =>
    rw [if_neg hne] at hfound
    exact h other standing hfound hstatus

/-- A downloading item keeps a worker that was not told to stop, whatever changes. -/
theorem Change.live (hchange : Change heard s t) (hcoherent : s.Coherent) (h : s.Live) :
    t.Live := by
  cases hchange with
  | note halike => exact h.of_eq halike.standing? halike.duty?
  | save => exact h
  | close => exact h
  | engage hget hqueued hfree hroom hopen => exact h.startTransfer hget hfree
  | @stop id duty standing hduty hstanding hlive reason status hsuits =>
    refine h.of_others id (fun other hne => standing?_stop_of_ne s _ _ hne)
      (fun other hne => ?_) fun standing hfound hstatus => ?_
    · rw [duty?_setStatus, duty?_stopTransfer, if_neg hne]
    · rw [status_of_standing?_setStatus hfound] at hstatus
      subst hstatus
      rcases hsuits.1 with hne | hne | hne <;> cases hne
  | @restop id duty hduty hstop reason hreason =>
    refine h.of_others id (fun other _ => rfl) (fun other hne => ?_)
      fun standing hfound => h.not_downloading hduty hstop hfound
    rw [duty?_stopTransfer, if_neg hne]
  | @shift id standing hstanding hlive status hstatus hfree hcomplete =>
    refine h.of_others id (fun other hne => standing?_setStatus_of_ne s _ hne)
      (fun other _ => duty?_setStatus _ _ _ other) fun standing hfound hdownloading => ?_
    rw [status_of_standing?_setStatus hfound] at hdownloading
    subst hdownloading
    rcases hstatus with hne | hne | hne <;> cases hne
  | discard hget hfree hlive hpartial =>
    exact h.of_eq (standing?_discardPartial s _) (duty?_discardPartial s _)
  | @finish t id duty hduty ending hheard halike status hstatus =>
    refine h.of_others id (fun other hne => ?_) (fun other hne => ?_)
      fun standing hfound hdownloading => ?_
    · rw [standing?_setStatus_of_ne _ _ hne, halike.standing?]
      rfl
    · rw [duty?_setStatus, halike.duty?, duty?_unbind, if_neg hne]
    · rw [status_of_standing?_setStatus hfound] at hdownloading
      subst hdownloading
      rcases hstatus with ⟨hne, -⟩ | ⟨-, hne | hne⟩ <;> cases hne
  | @leave id duty hduty ending hheard hstop =>
    refine h.of_others id (fun other _ => rfl) (fun other hne => ?_)
      fun standing hfound => h.not_downloading hduty hstop hfound
    rw [duty?_unbind, if_neg hne]
  | @clear id duty hduty ending hheard reason hstop hdiscards =>
    refine h.of_others id (fun other _ => ?_) (fun other hne => ?_)
      fun standing hfound => ?_
    · rw [standing?_discardPartial]
      rfl
    · rw [duty?_discardPartial, duty?_unbind, if_neg hne]
    · rw [standing?_discardPartial] at hfound
      refine h.not_downloading hduty ?_ hfound
      rw [hstop]
      exact Option.some_ne_none reason
  | @add item next hnext hid hresolved htaken hstatus =>
    have hnew : s.standing? item.id = none := hid ▸ standing?_nextId hcoherent.sound
    refine h.of_others item.id (fun other hne => ?_) (fun other _ => rfl)
      fun standing hfound hdownloading => ?_
    · rw [standing?_append hnew, if_neg hne]
    · rw [standing?_append hnew, if_pos rfl] at hfound
      cases hfound
      change item.status = _ at hdownloading
      rw [hdownloading] at hstatus
      rcases hstatus with ⟨hne, -⟩ | hne <;> cases hne
  | drop hkeep =>
    intro id standing hfound hdownloading
    rw [hcoherent.standing?_filter] at hfound
    obtain ⟨item, hitem, rfl⟩ := Option.map_eq_some_iff.mp hfound
    have hget := (Option.filter_eq_some_iff.mp hitem).1
    exact h id _ (standing?_of_get? hget) hdownloading
  | relimit hroom => exact h

def Room (s : Scheduler) : Prop :=
  s.running.length ≤ s.maxConcurrent.toNat

theorem running_sublist_unbind (s : Scheduler) (id : ItemId) :
    (s.unbind id).running.Sublist s.running := by
  rw [running_eq, running_eq, duties_unbind]
  exact (List.filter_sublist.filter _).map _

/-- A stop makes no worker a running one. -/
theorem running_sublist_stopTransfer (s : Scheduler) (id : ItemId) (reason : StopReason) :
    (s.stopTransfer id reason).running.Sublist s.running := by
  rw [running_eq, running_eq, duties_stopTransfer]
  induction s.duties with
  | nil => exact List.Sublist.refl _
  | cons duty rest ih =>
    by_cases heq : duty.id = id
    · cases hstop : duty.stop with
      | none =>
        simp only [List.map_cons, heq, if_true, Duty.stopped, List.filter_cons, hstop]
        exact ih.cons _
      | some pending =>
        simp only [List.map_cons, heq, if_true, Duty.stopped, List.filter_cons, hstop]
        exact ih
    · cases hstop : duty.stop with
      | none =>
        simp only [List.map_cons, heq, if_false, List.filter_cons, hstop]
        exact ih.cons_cons _
      | some pending =>
        simp only [List.map_cons, heq, if_false, List.filter_cons, hstop]
        exact ih

theorem running_of_duties (h : t.duties = s.duties) : t.running = s.running := by
  rw [running_eq, running_eq, h]

theorem length_running_le (s : Scheduler) : s.running.length ≤ s.active.length := by
  rw [running, List.length_map]
  exact List.length_filter_le _ _

theorem maxConcurrent_setStatus (s : Scheduler) (id : ItemId) (status : Status) :
    (s.setStatus id status).maxConcurrent = s.maxConcurrent := by
  rw [setStatus_eq]

theorem maxConcurrent_discardPartial (s : Scheduler) (id : ItemId) :
    (s.discardPartial id).maxConcurrent = s.maxConcurrent := by
  cases hget : s.table.get? id with
  | none => rw [discardPartial, hget]
  | some item => exact (discardPartial_alike hget).maxConcurrent

theorem Room.of_sublist (h : s.Room) (hrunning : t.running.Sublist s.running)
    (hlimit : t.maxConcurrent = s.maxConcurrent) : t.Room := by
  rw [Room, hlimit]
  exact Nat.le_trans hrunning.length_le h

theorem Room.startTransfer {item : Item} (hget : s.table.get? id = some item)
    (hroom : s.active.length < s.maxConcurrent.toNat) : (s.startTransfer id).Room := by
  have hrunning : (s.startTransfer id).running = s.running ++ [id] := by
    rw [running_eq, running_eq, duties_startTransfer hget, List.filter_append, List.map_append]
    rfl
  have hlimit : (s.startTransfer id).maxConcurrent = s.maxConcurrent := by
    rw [startTransfer_eq hget, maxConcurrent_setStatus]
  have hle := length_running_le s
  rw [Room, hrunning, hlimit, List.length_append, List.length_singleton]
  omega

/-- Only an admission makes a worker run, and it looks for room first. -/
theorem Change.room (hchange : Change heard s t) (h : s.Room) : t.Room := by
  cases hchange with
  | note halike =>
    exact h.of_sublist (running_of_duties halike.duties ▸ List.Sublist.refl _) halike.maxConcurrent
  | save => exact h
  | close => exact h
  | engage hget hqueued hfree hroom hopen => exact Room.startTransfer hget hroom
  | stop hduty hstanding hlive hsuits =>
    refine h.of_sublist ?_ (maxConcurrent_setStatus _ _ _)
    rw [running_of_duties (duties_setStatus _ _ _)]
    exact running_sublist_stopTransfer _ _ _
  | restop hduty hstop hreason => exact h.of_sublist (running_sublist_stopTransfer _ _ _) rfl
  | shift hstanding hlive hstatus hfree hcomplete =>
    refine h.of_sublist ?_ (maxConcurrent_setStatus _ _ _)
    rw [running_of_duties (duties_setStatus _ _ _)]
  | discard hget hfree hlive hpartial =>
    refine h.of_sublist ?_ (maxConcurrent_discardPartial _ _)
    rw [running_of_duties (duties_discardPartial _ _)]
  | finish hduty hheard halike hstatus =>
    refine h.of_sublist ?_ ((maxConcurrent_setStatus _ _ _).trans halike.maxConcurrent)
    rw [running_of_duties (duties_setStatus _ _ _), running_of_duties halike.duties]
    exact running_sublist_unbind _ _
  | leave hduty hheard hstop => exact h.of_sublist (running_sublist_unbind _ _) rfl
  | clear hduty hheard hstop hdiscards =>
    refine h.of_sublist ?_ (maxConcurrent_discardPartial _ _)
    rw [running_of_duties (duties_discardPartial _ _)]
    exact running_sublist_unbind _ _
  | add hnext hid hresolved htaken hstatus => exact h
  | drop hkeep => exact h
  | @relimit limit hroom =>
    rcases hroom with hroom | hraised
    · exact hroom
    · rw [UInt64.lt_iff_toNat_lt] at hraised
      exact Nat.le_trans h (Nat.le_of_lt hraised)

theorem Chain.room (hchain : Chain heard s t) (h : s.Room) : t.Room := by
  induction hchain with
  | refl => exact h
  | tail _ hchange ih => exact hchange.room ih

inductive Action
  | operation (operation : Operation)
  | message (message : Message)
  | shutdown
  | outside (files : FileSystem) (inbox : List Message) (clock : Nat) (now : Timestamp)
      (share : Float)

/-- The scheduler after an action, also if an overflow cut it short. -/
def act (s : Scheduler) : Action → Scheduler
  | .operation operation => s.operate operation
  | .message message => (s.handleMessage message).scheduler
  | .shutdown => s.shutdown.scheduler
  | .outside files inbox clock now share => { s with files, inbox, clock, now, share }

theorem trail_act (hheard : ∀ id ending, heard id ending) (h : s.Coherent) (action : Action) :
    Trail heard s (s.act action) := by
  cases action with
  | operation operation => exact (chain_operate h operation).trail
  | message message => exact (chain_handleMessage h message fun _ _ => hheard _ _).trail
  | shutdown => exact trail_shutdown hheard h
  | outside files inbox clock now share =>
    refine (trail_outside s files inbox).trans (Chain.note ?_).trail
    constructor <;> rfl

/-- Workers and statuses match, and no more items are downloading than the limit allows. -/
structure Orderly (s : Scheduler) : Prop where
  coherent : s.Coherent
  live : s.Live
  room : s.Room

theorem Trail.orderly (htrail : Trail heard s t) (h : s.Orderly) : t.Orderly := by
  induction htrail with
  | refl => exact h
  | tail _ hmove ih =>
    cases hmove with
    | change hchange =>
      exact ⟨hchange.coherent ih.coherent, hchange.live ih.coherent ih.live, hchange.room ih.room⟩
    | outside => exact ⟨⟨ih.coherent.sound, ih.coherent.nodup, ih.coherent.fits⟩, ih.live, ih.room⟩

theorem Orderly.foldl_act (h : s.Orderly) (actions : List Action) :
    (actions.foldl act s).Orderly := by
  induction actions generalizing s with
  | nil => exact h
  | cons action actions ih =>
    have htrail : Trail (fun _ _ => True) s (s.act action) :=
      trail_act (fun _ _ => trivial) h.coherent action
    exact ih (htrail.orderly h)

/-- A loaded queue is orderly once its items were brought in order. -/
theorem orderly_restore (hsound : s.table.Sound) (hidle : s.active = []) : s.restore.Orderly := by
  have hchain : Chain (fun _ _ => True) s s.restore := chain_restore hsound hidle
  have hroom : s.Room := by
    rw [Room, running, hidle]
    exact Nat.zero_le _
  refine ⟨hchain.coherent (Coherent.of_active_eq_nil hsound hidle), ?_, ?_⟩
  · intro id standing hstanding hstatus
    exact absurd hstatus (not_downloading_restore s hstanding)
  · exact hchain.room hroom

/-- What holds of workers, items and the limit, in terms of the lists that the scheduler keeps. -/
structure Balanced (s : Scheduler) : Prop where
  nodup : (s.table.items.map Item.id).Nodup ∧ (s.active.map Binding.id).Nodup
  known : ∀ binding ∈ s.active, ∃ item ∈ s.table.items, item.id = binding.id
  downloading_iff : ∀ item ∈ s.table.items, item.status = .downloading ↔
    ∃ binding ∈ s.active, binding.id = item.id ∧ binding.stop = none
  stopped : ∀ binding ∈ s.active, ∀ item ∈ s.table.items, item.id = binding.id →
    ∀ reason, binding.stop = some reason →
      (item.status = .queued ∨ item.status = .paused ∨ item.status = .deleted) ∧
      (reason = .delete ↔ item.status = .deleted)
  cancelled_iff : ∀ binding ∈ s.active, binding.cancelled = true ↔ binding.stop ≠ none
  limit : (s.table.items.countP fun item => item.status = .downloading) ≤ s.maxConcurrent.toNat

theorem Coherent.item_of_binding (h : s.Coherent) {binding : Binding} (hmem : binding ∈ s.active) :
    ∃ item ∈ s.table.items, item.id = binding.id ∧ binding.duty.Fits item.status := by
  obtain ⟨standing, hstanding, hfits⟩ := h.fits _ _ (h.duty?_of_mem (List.mem_map_of_mem hmem))
  obtain ⟨item, hget, rfl⟩ := get?_of_standing? hstanding
  exact ⟨item, Table.mem_of_get? hget, Table.id_of_get? hget, hfits⟩

theorem Coherent.fits_of_mem (h : s.Coherent) {binding : Binding} (hmem : binding ∈ s.active)
    {item : Item} (hitem : item ∈ s.table.items) (heq : item.id = binding.id) :
    binding.duty.Fits item.status := by
  obtain ⟨found, hfound, hid, hfits⟩ := h.item_of_binding hmem
  have hsame : item = found := h.sound.eq_of_id hitem hfound (heq.trans hid.symm)
  exact hsame ▸ hfits

theorem Orderly.downloading_iff (h : s.Orderly) {item : Item} (hitem : item ∈ s.table.items) :
    item.status = .downloading ↔
      ∃ binding ∈ s.active, binding.id = item.id ∧ binding.stop = none := by
  constructor
  · intro hstatus
    obtain ⟨duty, hduty, hstop⟩ :=
      h.live item.id item.standing (standing?_of_get? (h.coherent.sound.get?_of_mem hitem)) hstatus
    obtain ⟨binding, hmem, rfl⟩ := List.mem_map.mp (mem_of_duty? hduty)
    exact ⟨binding, hmem, id_of_duty? hduty, hstop⟩
  · rintro ⟨binding, hmem, hid, hstop⟩
    have hfits := h.coherent.fits_of_mem hmem hitem hid.symm
    rw [Duty.Fits, Binding.duty_stop, hstop] at hfits
    exact hfits.1

/-- An item that is downloading has a worker that was not told to stop. -/
theorem Orderly.count_downloading_le_running (h : s.Orderly) :
    (s.table.items.countP fun item => item.status = .downloading) ≤ s.running.length := by
  have hnodup : ((s.table.items.filter fun item => item.status = .downloading).map Item.id).Nodup :=
    h.coherent.sound.nodup.sublist (List.filter_sublist.map _)
  have hsub : ((s.table.items.filter fun item => item.status = .downloading).map Item.id) ⊆
      s.running := by
    intro id hmem
    obtain ⟨item, hitem, rfl⟩ := List.mem_map.mp hmem
    obtain ⟨hitem, hstatus⟩ := List.mem_filter.mp hitem
    obtain ⟨binding, hbinding, hid, hstop⟩ :=
      (h.downloading_iff hitem).mp (of_decide_eq_true hstatus)
    rw [running, ← hid]
    refine List.mem_map_of_mem (List.mem_filter.mpr ⟨hbinding, ?_⟩)
    rw [hstop]
    rfl
  have hle := (hnodup.subperm hsub).length_le
  rwa [List.length_map, ← List.countP_eq_length_filter] at hle

theorem Orderly.count_downloading_le (h : s.Orderly) :
    (s.table.items.countP fun item => item.status = .downloading) ≤ s.maxConcurrent.toNat :=
  Nat.le_trans h.count_downloading_le_running h.room

/-- The invariant on standings and duties, read off the lists that the scheduler keeps. -/
theorem Orderly.balanced (h : s.Orderly) : s.Balanced where
  nodup := ⟨h.coherent.sound.nodup, map_id_duties s ▸ h.coherent.nodup⟩
  known binding hmem := by
    obtain ⟨item, hitem, hid, -⟩ := h.coherent.item_of_binding hmem
    exact ⟨item, hitem, hid⟩
  downloading_iff item hitem := h.downloading_iff hitem
  stopped binding hmem item hitem heq reason hstop := by
    have hfits := h.coherent.fits_of_mem hmem hitem heq
    rw [Duty.Fits, Binding.duty_stop, hstop] at hfits
    exact hfits.1
  cancelled_iff binding hmem := by
    obtain ⟨item, -, -, hfits⟩ := h.coherent.item_of_binding hmem
    rw [Duty.Fits, Binding.duty_stop] at hfits
    cases hstop : binding.stop with
    | none =>
      rw [hstop] at hfits
      simpa using hfits.2
    | some reason =>
      rw [hstop] at hfits
      simpa using hfits.2
  limit := h.count_downloading_le

/-- From every queue file that loads, every sequence of operations leaves workers and statuses
matching and the limit kept. -/
theorem balanced_of_actions (config : Config) {files : FileSystem} {path : Path} {items : List Item}
    (hload : QueueFile.load files path = .ok items) {table : Table}
    (htable : Table.ofItems items = .ok table) (now : Timestamp) (share : Float)
    (actions : List Action) :
    (actions.foldl act (Scheduler.ofTable config table files now share).restore).Balanced := by
  have hsound : table.Sound := (Table.Sound.ofItems (QueueFile.nodup_of_load hload) htable).1
  have hstart : (Scheduler.ofTable config table files now share).restore.Orderly :=
    orderly_restore hsound rfl
  exact (hstart.foldl_act actions).balanced

def cutOff : Item :=
  { Item.new ⟨3⟩ "http://h/a" ⟨"/d/a"⟩ .epoch with status := .downloading, bytesDownloaded := 2 }

def cutOffFiles : FileSystem :=
  ⟨[], [(["q"], .file (Json.encodeUtf8 ("\x7b\"version\":1,\"items\":[\x7b\"id\":3," ++
    "\"source_url\":\"http://h/a\",\"destination\":\"/d/a\",\"status\":\"downloading\"," ++
    "\"bytes_downloaded\":2,\"bytes_total\":null,\"attempt_count\":0," ++
    "\"added_at\":\"1970-01-01T00:00:00Z\"\x7d]\x7d").toList))]⟩

/-- The item gets a worker again, is paused and resumed while the worker stops, and the worker
ends. -/
theorem balanced_of_actions_cutOff :
    QueueFile.load cutOffFiles ⟨"/q"⟩ = .ok [cutOff] ∧
    Table.ofItems [cutOff] = .ok ⟨[cutOff], 4⟩ ∧
    ([.operation .tick, .operation (.dispatch (.pause ⟨3⟩) []),
      .operation (.dispatch (.resume ⟨3⟩) []), .message ⟨⟨3⟩, .ended .cancelled⟩,
      .shutdown].foldl act
        (Scheduler.ofTable {} ⟨[cutOff], 4⟩ cutOffFiles .epoch 0).restore).Balanced := by
  have hload : QueueFile.load cutOffFiles ⟨"/q"⟩ = .ok [cutOff] := by decide +kernel
  have htable : Table.ofItems [cutOff] = .ok ⟨[cutOff], 4⟩ := by rfl
  exact ⟨hload, htable, balanced_of_actions {} hload htable .epoch 0 _⟩

end Scheduler

end DownloadQueue
