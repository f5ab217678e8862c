import DownloadQueue.Proofs.Accounts
import DownloadQueue.Proofs.Exchange
import DownloadQueue.Proofs.Startup

/-!
# What a snapshot shows

A snapshot lists the items of the queue in their order, its numbers are those of the items that it
lists, and no more of them are downloading than there are workers or than the limit allows. A snapshot
comes about exactly if the bytes and the speeds can be added up in 64 bits. The speeds may be too much
where the bytes are not: in little time few bytes make a high speed.
-/

namespace DownloadQueue

structure ItemView.Shows (view : ItemView) (item : Item) : Prop where
  id : view.id = item.id
  sourceUrl : view.sourceUrl = item.sourceUrl
  destination : view.destination = item.destination
  status : view.status = item.status
  bytesDownloaded : view.bytesDownloaded = item.bytesDownloaded
  bytesTotal : view.bytesTotal = item.bytesTotal
  attempts : view.attempts = item.attempts
  lastError : view.lastError = item.lastError

/-- The numbers of a snapshot are those of the items that it lists. -/
structure Snapshot.Tallies (snapshot : Snapshot) : Prop where
  queued : snapshot.stats.queued.toNat = snapshot.count .queued
  downloading : snapshot.stats.downloading.toNat = snapshot.count .downloading
  paused : snapshot.stats.paused.toNat = snapshot.count .paused
  finished : snapshot.stats.finished.toNat =
    snapshot.count .finished + snapshot.count .alreadyDownloaded
  failed : snapshot.stats.failed.toNat = snapshot.count .failed
  sum : snapshot.stats.total.toNat = snapshot.stats.queued.toNat +
    snapshot.stats.downloading.toNat + snapshot.stats.paused.toNat +
    snapshot.stats.finished.toNat + snapshot.stats.failed.toNat
  total : snapshot.stats.total.toNat = snapshot.items.countP fun view => view.status ≠ .deleted
  bytesDownloaded : snapshot.stats.bytesDownloaded.toNat =
    ((snapshot.items.filter fun view => view.status ≠ .deleted).map fun view =>
      view.bytesDownloaded.toNat).sum

structure Snapshot.Shows (snapshot : Snapshot) (s : Scheduler) : Prop where
  listed : List.Forall₂ ItemView.Shows snapshot.items s.table.items
  tallies : snapshot.Tallies
  activeTransfers : snapshot.stats.activeTransfers.toNat = s.active.length
  maxConcurrent : snapshot.stats.maxConcurrent = s.maxConcurrent
  bound : snapshot.stats.downloading ≤ snapshot.stats.activeTransfers
  limit : snapshot.stats.downloading ≤ snapshot.stats.maxConcurrent

namespace Scheduler

variable {s t : Scheduler} {snapshot : Snapshot}

theorem countP_present (items : List Item) :
    (items.countP fun item => item.status ≠ .deleted) =
      (items.countP fun item => item.status = .queued) +
        (items.countP fun item => item.status = .downloading) +
        (items.countP fun item => item.status = .paused) +
        (items.countP fun item => item.status.isComplete) +
        (items.countP fun item => item.status = .failed) := by
  induction items with
  | nil => rfl
  | cons item items ih =>
    simp only [List.countP_cons, ih]
    cases item.status <;> simp [Status.isComplete] <;> omega

theorem countP_isComplete (items : List Item) :
    (items.countP fun item => item.status.isComplete) =
      (items.countP fun item => item.status = .finished) +
        (items.countP fun item => item.status = .alreadyDownloaded) := by
  induction items with
  | nil => rfl
  | cons item items ih =>
    simp only [List.countP_cons, ih]
    cases item.status <;> simp [Status.isComplete] <;> omega

theorem toNat_countStatus (hsound : s.table.Sound) (p : Status → Bool) :
    (countStatus s.table.items p).toNat = s.table.items.countP fun item => p item.status :=
  UInt64.toNat_ofNat_of_lt' (Nat.lt_of_le_of_lt List.countP_le_length hsound.length_lt)

/-- The items of a snapshot have the statuses of those of the table. -/
theorem countP_viewOf (s : Scheduler) (p : Status → Bool) :
    ((s.table.items.map s.viewOf).countP fun view => p view.status) =
      s.table.items.countP fun item => p item.status :=
  List.countP_map

theorem length_present (s : Scheduler) :
    s.present.length = s.table.items.countP fun item => item.status ≠ .deleted :=
  List.countP_eq_length_filter.symm

theorem toNat_of_sum64 {items : List Item} {f : Item → UInt64} {total : UInt64}
    (h : sum64 0 (items.map f) = .ok total) :
    total.toNat = (items.map fun item => (f item).toNat).sum := by
  have hsum := sum64_map items f
  rw [h] at hsum
  split at hsum
  · exact Except.ok.inj hsum
  · cases hsum

/-- Every worker has an item of its own. -/
theorem Coherent.length_active_le (h : s.Coherent) : s.active.length ≤ s.table.items.length := by
  have hnodup : (s.active.map Binding.id).Nodup := map_id_duties s ▸ h.nodup
  have hsub : s.active.map Binding.id ⊆ s.table.items.map Item.id := by
    intro id hmem
    obtain ⟨binding, hbinding, rfl⟩ := List.mem_map.mp hmem
    obtain ⟨item, hitem, hid, -⟩ := h.item_of_binding hbinding
    exact List.mem_map.mpr ⟨item, hitem, hid⟩
  have hle := (hnodup.subperm hsub).length_le
  rwa [List.length_map, List.length_map] at hle

/-- A snapshot can be taken unless one of the two sums overflows. -/
theorem exists_snapshot_iff :
    (∃ snapshot, s.snapshot = .ok snapshot) ↔
      s.byteSum < UInt64.size ∧ s.speedSum < UInt64.size := by
  have houtcome := snapshot_outcome s
  constructor
  · rintro ⟨snapshot, hsnapshot⟩
    by_contra hlarge
    rw [hsnapshot, if_neg hlarge] at houtcome
    cases houtcome
  · intro hsmall
    rw [if_pos hsmall] at houtcome
    cases hsnapshot : s.snapshot with
    | ok snapshot => exact ⟨snapshot, rfl⟩
    | error overflow =>
      rw [hsnapshot] at houtcome
      cases houtcome

/-- The statuses part the items that are listed, so their numbers add up. -/
theorem tallies_of_snapshot (hsound : s.table.Sound) (hsnapshot : s.snapshot = .ok snapshot) :
    snapshot.Tallies := by
  obtain ⟨bytes, speed, hbytes, rfl⟩ := snapshot_eq_ok hsnapshot
  have hcount (p : Status → Bool) : (countStatus s.table.items p).toNat =
      (s.table.items.map s.viewOf).countP fun view => p view.status :=
    (toNat_countStatus hsound p).trans (countP_viewOf s p).symm
  have htotal : (UInt64.ofNat s.present.length).toNat =
      s.table.items.countP fun item => item.status ≠ .deleted := by
    rw [UInt64.toNat_ofNat_of_lt', length_present]
    exact Nat.lt_of_le_of_lt (List.length_filter_le _ _) hsound.length_lt
  refine ⟨hcount _, hcount _, hcount _, ?_, hcount _, ?_, ?_, ?_⟩
  · refine ((toNat_countStatus hsound _).trans (countP_isComplete _)).trans ?_
    exact congrArg₂ _ (countP_viewOf s fun status => status = .finished).symm
      (countP_viewOf s fun status => status = .alreadyDownloaded).symm
  · refine (htotal.trans (countP_present _)).trans ?_
    simp only [statsOf, toNat_countStatus hsound]
  · exact htotal.trans (countP_viewOf s fun status => status ≠ .deleted).symm
  · refine (toNat_of_sum64 hbytes).trans ?_
    rw [present, List.filter_map, List.map_map]
    rfl

/-- A snapshot that comes about shows the scheduler as it is. -/
theorem Orderly.shows (h : s.Orderly) (hsnapshot : s.snapshot = .ok snapshot) :
    snapshot.Shows s := by
  have hsound := h.coherent.sound
  have htallies := tallies_of_snapshot hsound hsnapshot
  obtain ⟨bytes, speed, -, rfl⟩ := snapshot_eq_ok hsnapshot
  have hdownloading : (s.statsOf bytes speed).downloading.toNat =
      s.table.items.countP fun item => item.status = .downloading := toNat_countStatus hsound _
  have hactive : (s.statsOf bytes speed).activeTransfers.toNat = s.active.length :=
    UInt64.toNat_ofNat_of_lt' (Nat.lt_of_le_of_lt h.coherent.length_active_le hsound.length_lt)
  refine ⟨?_, htallies, hactive, rfl, ?_, ?_⟩
  · rw [List.forall₂_map_left_iff]
    exact List.forall₂_same.mpr fun item _ => ⟨rfl, rfl, rfl, rfl, rfl, rfl, rfl, rfl⟩
  · rw [UInt64.le_iff_toNat_le, hdownloading, hactive]
    exact Nat.le_trans h.count_downloading_le_running (length_running_le s)
  · rw [UInt64.le_iff_toNat_le, hdownloading]
    exact h.count_downloading_le

/-- In every run over a queue file that loads, wherever the bytes of the items that are not deleted
and the speeds of all items can be added up, there is a snapshot, and it shows the scheduler as it
is. -/
theorem shown_of_actions (config : Config) {files : FileSystem} {path : Path} {items : List Item}
    (hload : QueueFile.load files path = .ok items) {table : Table}
    (htable : Table.ofItems items = .ok table) (now : Timestamp) (share : Float)
    (actions : List Action)
    (hreached : actions.foldl act (Scheduler.ofTable config table files now share).restore = s)
    (hbytes : s.byteSum < UInt64.size) (hspeeds : s.speedSum < UInt64.size) :
    ∃ snapshot, s.snapshot = .ok snapshot ∧ snapshot.Shows s := by
  have hsound : table.Sound := (Table.Sound.ofItems (QueueFile.nodup_of_load hload) htable).1
  have hstart : (Scheduler.ofTable config table files now share).restore.Orderly :=
    orderly_restore hsound rfl
  have horderly : s.Orderly := hreached ▸ hstart.foldl_act actions
  obtain ⟨snapshot, hsnapshot⟩ := exists_snapshot_iff.mpr ⟨hbytes, hspeeds⟩
  exact ⟨snapshot, hsnapshot, horderly.shows hsnapshot⟩

def reporting (bytes : UInt64) (clock : Nat) : List Action :=
  [.operation .tick, .message ⟨⟨3⟩, .progress (.reached bytes none)⟩,
    .message ⟨⟨4⟩, .progress (.reached bytes none)⟩,
    .outside (twinFiles ⟨"/b"⟩) [] clock .epoch 0]

def underWay (bytes : UInt64) (clock : Nat) : Scheduler :=
  (reporting bytes clock).foldl act
    (Scheduler.ofTable roomyConfig ⟨twins ⟨"/b"⟩, 5⟩ (twinFiles ⟨"/b"⟩) .epoch 0).restore

/-- Five bytes of each item came in a second. -/
theorem shown_of_actions_underWay :
    QueueFile.load (twinFiles ⟨"/b"⟩) ⟨"/q"⟩ = .ok (twins ⟨"/b"⟩) ∧
      Table.ofItems (twins ⟨"/b"⟩) = .ok ⟨twins ⟨"/b"⟩, 5⟩ ∧
      (reporting 5 1000000000).foldl act (Scheduler.ofTable roomyConfig ⟨twins ⟨"/b"⟩, 5⟩
        (twinFiles ⟨"/b"⟩) .epoch 0).restore = underWay 5 1000000000 ∧
      (underWay 5 1000000000).byteSum = 10 ∧ (underWay 5 1000000000).speedSum < UInt64.size ∧
      ∃ snapshot, (underWay 5 1000000000).snapshot = .ok snapshot ∧
        snapshot.Shows (underWay 5 1000000000) := by
  have hload := load_twinFiles ⟨"/b"⟩
  have htable : Table.ofItems (twins ⟨"/b"⟩) = .ok ⟨twins ⟨"/b"⟩, 5⟩ := rfl
  have hbytes : (underWay 5 1000000000).byteSum = 10 := by decide +kernel
  have hspeeds : (underWay 5 1000000000).speedSum < UInt64.size := by decide +kernel
  refine ⟨hload, htable, rfl, hbytes, hspeeds, ?_⟩
  exact shown_of_actions roomyConfig hload htable .epoch 0 _ rfl (hbytes ▸ by decide) hspeeds

/-- It is not enough that the bytes can be added up: of two items with so many bytes after a hundredth
of a second each has the highest speed that there is, and the two speeds are too much. -/
theorem not_always_shown :
    ∃ s, QueueFile.load (twinFiles ⟨"/b"⟩) ⟨"/q"⟩ = .ok (twins ⟨"/b"⟩) ∧
      Table.ofItems (twins ⟨"/b"⟩) = .ok ⟨twins ⟨"/b"⟩, 5⟩ ∧
      (reporting 4611686018427387904 10000000).foldl act (Scheduler.ofTable roomyConfig
        ⟨twins ⟨"/b"⟩, 5⟩ (twinFiles ⟨"/b"⟩) .epoch 0).restore = s ∧
      s.byteSum < UInt64.size ∧ ¬ ∃ snapshot, s.snapshot = .ok snapshot ∧ snapshot.Shows s := by
  have hbytes : (underWay 4611686018427387904 10000000).byteSum < UInt64.size := by decide +kernel
  have hspeeds : ¬ (underWay 4611686018427387904 10000000).speedSum < UInt64.size := by
    decide +kernel
  refine ⟨_, load_twinFiles ⟨"/b"⟩, rfl, rfl, hbytes, ?_⟩
  rintro ⟨snapshot, hsnapshot, -⟩
  exact hspeeds (exists_snapshot_iff.mp ⟨snapshot, hsnapshot⟩).2

theorem last_of_publish (hdone : s.publish = .done t ()) :
    ∃ snapshot, t.snapshots.getLast? = some snapshot ∧ t.snapshot = .ok snapshot := by
  obtain ⟨snapshot, hsnapshot, rfl⟩ := publish_eq_done hdone
  exact ⟨snapshot, List.getLast?_concat, hsnapshot⟩

theorem last_of_concludeShutdown {result : Except QueueError Unit}
    (hdone : s.concludeShutdown = .done t result) :
    ∃ snapshot, t.snapshots.getLast? = some snapshot ∧ t.snapshot = .ok snapshot := by
  rw [concludeShutdown] at hdone
  obtain ⟨u, ⟨⟩, hpublished, hrest⟩ := Step.andThen_eq_done.mp hdone
  obtain ⟨rfl, -⟩ := Step.eq_done_iff.mp hrest
  obtain ⟨snapshot, hlast, hsnapshot⟩ := last_of_publish hpublished
  exact ⟨snapshot, hlast, hsnapshot⟩

/-- A round ends with a snapshot of what it leaves. -/
theorem Turn.last (hturn : Turn s t) :
    ∃ snapshot, t.snapshots.getLast? = some snapshot ∧ t.snapshot = .ok snapshot := by
  rcases hturn.cases with ⟨u, -, hcommit⟩ | ⟨u, ended, result, -, hshutdown⟩
  · exact last_of_publish hcommit
  · obtain ⟨v, -, hconclude⟩ := shutdown_eq_done hshutdown
    exact last_of_concludeShutdown hconclude

/-- From the start of a queue on, whatever goes on outside between its rounds, the snapshot that was
published last shows the queue as it is. -/
theorem shown_of_run {config : Config} {around : Surroundings} {c : Controller}
    {touches : FileSystem → FileSystem → Prop}
    (hstart : Controller.start config around = .started c) (hrun : Run touches c.scheduler t) :
    ∃ snapshot, t.snapshots.getLast? = some snapshot ∧ snapshot.Shows t := by
  have horderly := Controller.orderly_of_start hstart
  induction hrun with
  | refl =>
    obtain ⟨files, table, -, hlaunch, -⟩ := Controller.scheduler_of_start hstart
    obtain ⟨snapshot, hlast, hsnapshot⟩ := last_of_publish hlaunch
    exact ⟨snapshot, hlast, horderly.shows hsnapshot⟩
  | @tail u v hbefore hstep ih =>
    have hbefore : Run touches c.scheduler u := hbefore
    rcases hstep with hturn | houtside
    · obtain ⟨snapshot, hlast, hsnapshot⟩ := hturn.last
      exact ⟨snapshot, hlast, (hturn.orderly (hbefore.orderly horderly)).shows hsnapshot⟩
    · obtain ⟨snapshot, hlast, hshows⟩ := ih
      cases houtside
      exact ⟨snapshot, hlast, hshows.listed, hshows.tallies, hshows.activeTransfers,
        hshows.maxConcurrent, hshows.bound, hshows.limit⟩

end Scheduler

end DownloadQueue
