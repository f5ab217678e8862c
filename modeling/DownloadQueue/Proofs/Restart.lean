import DownloadQueue.Proofs.Closing
import DownloadQueue.Proofs.Startup

/-!
# Shutdown and restart

A shutdown queues what was running, unless a worker tells in time that its file is complete, and
writes the queue down. A queue that starts from what was written has the same items in the same
order. Of a complete item nothing has changed; of the others the file at the destination says how
far they have come.
-/

namespace DownloadQueue

def Message.ending? (id : ItemId) (message : Message) : Option Ending :=
  match message.report with
  | .progress _ => none
  | .ended ending => if message.id = id then some ending else none

def firstEnding? (id : ItemId) (told : List Message) : Option Ending :=
  told.findSome? (Message.ending? id)

theorem firstEnding?_append (id : ItemId) (told : List Message) (message : Message) :
    firstEnding? id (told ++ [message]) = (firstEnding? id told).or (message.ending? id) := by
  rw [firstEnding?, List.findSome?_append, List.findSome?_singleton]
  rfl

namespace Scheduler

variable {s t u v : Scheduler} {id : ItemId}

def Fate (u : Scheduler) (id : ItemId) : Option Ending → Prop
  | none => (∃ duty, u.duty? id = some duty ∧ duty.stop = some .shutdown) ∧
      u.Stands (· = .queued) id
  | some ending => u.duty? id = none ∧
      u.Stands (· = if ending = .completed then .finished else .queued) id

theorem Fate.of_same {told : Option Ending} (h : u.Fate id told) (hduty : v.duty? id = u.duty? id)
    (hstanding : v.standing? id = u.standing? id) : v.Fate id told := by
  cases told with
  | none => exact ⟨hduty ▸ h.1, h.2.of_standing? hstanding⟩
  | some ending => exact ⟨hduty ▸ h.1, h.2.of_standing? hstanding⟩

theorem Fate.stands {told : Option Ending} (h : u.Fate id told) :
    u.Stands (· = if told = some .completed then .finished else .queued) id := by
  cases told with
  | none => exact h.2
  | some ending =>
    have hstands := h.2
    simpa only [Option.some.injEq] using hstands

theorem fate_beginShutdown (h : s.Orderly) (hrunning : s.Stands (· = .downloading) id) :
    s.beginShutdown.Fate id none := by
  obtain ⟨standing, hstanding, hstatus⟩ := hrunning
  obtain ⟨duty, hduty, hstop⟩ := h.live id standing hstanding hstatus
  obtain ⟨hstopped, hqueued⟩ := beginShutdown_of_duty? h.coherent hduty
  rw [if_pos hstop, hstanding] at hqueued
  refine ⟨⟨_, hstopped, ?_⟩, _, hqueued, rfl⟩
  rw [Duty.stopped, hstop]
  rfl

theorem standing?_settled_of_ne (s : Scheduler) (stop : StopReason) (ending : Ending)
    {other : ItemId} (hne : other ≠ id) :
    (s.settled id stop ending).standing? other = s.standing? other := by
  rw [standing?, get?_settled_of_ne s stop ending hne]
  rfl

theorem duty?_settled (s : Scheduler) (stop : StopReason) (ending : Ending) (other : ItemId) :
    ((s.unbind id).settled id stop ending).duty? other =
      if other = id then none else s.duty? other := by
  rw [duty?_eq_find?, (settled_frame _ id stop ending).1, ← duty?_eq_find?, duty?_unbind]

/-- The ending of the item's own worker. -/
theorem Fate.settled (h : u.Fate id none) (ending : Ending) :
    ((u.unbind id).settled id .shutdown ending).Fate id (some ending) := by
  obtain ⟨-, standing, hstanding, hqueued⟩ := h
  refine ⟨by rw [duty?_settled, if_pos rfl], ?_⟩
  obtain ⟨item, hget, rfl⟩ := get?_of_standing? hstanding
  have hsame : (u.unbind id).table.get? id = some item := hget
  rw [Scheduler.settled]
  by_cases hcompleted : ending = .completed
  · rw [if_pos hcompleted, if_neg (show StopReason.shutdown ≠ .delete by decide), if_pos hcompleted]
    have hfinished := get?_finish (u.unbind id) id id
    rw [if_pos rfl, hsame] at hfinished
    exact ⟨_, standing?_of_get? hfinished, status_turned _ _⟩
  · rw [if_neg hcompleted, if_neg hcompleted, applyStop, if_neg (by decide)]
    exact ⟨_, ((alike_reconcile (u.unbind id) id).standing? id).trans hstanding, hqueued⟩

/-- One more message is heard: it settles the fate of its own item, if it is the first ending of its
worker. -/
theorem Fate.hear {told : Option Ending} (h : u.Fate id told) (hstopping : u.Stopping)
    {message : Message} (hdone : u.handleMessage message = .done v ()) :
    v.Fate id (told.or (message.ending? id)) := by
  obtain ⟨other, report⟩ := message
  cases report with
  | progress progress =>
    obtain ⟨rfl, -⟩ := Step.eq_done_iff.mp hdone
    have halike := alike_handleProgress u other progress
    exact Option.or_none.symm ▸ h.of_same (halike.duty? id) (halike.standing? id)
  | ended ending =>
    change u.handleEnding other ending = .done v () at hdone
    change v.Fate id (told.or (if other = id then some ending else none))
    cases hbinding : u.binding? other with
    | none =>
      rw [handleEnding, hbinding] at hdone
      obtain rfl : u = v := congrArg Step.scheduler hdone
      by_cases heq : other = id
      · -- the worker is gone, so its ending has been told before
        cases told with
        | none =>
          obtain ⟨⟨duty, hduty, -⟩, -⟩ := h
          rw [duty?, ← heq, hbinding] at hduty
          cases hduty
        | some first => exact h
      · rw [if_neg heq, Option.or_none]
        exact h
    | some binding =>
      have hduty : u.duty? other = some binding.duty := by rw [duty?, hbinding]; rfl
      obtain ⟨stop, hstop⟩ := Option.ne_none_iff_exists'.mp
        (hstopping.told binding.duty (mem_of_duty? hduty))
      rw [handleEnding_of_stopping hstopping hbinding hstop] at hdone
      obtain rfl : (u.unbind other).settled other stop ending = v := congrArg Step.scheduler hdone
      by_cases heq : other = id
      · subst heq
        rw [if_pos rfl]
        cases told with
        | none =>
          obtain ⟨found, hfound, hshutdown⟩ := h.1
          rw [hduty] at hfound
          cases hfound
          obtain rfl : stop = .shutdown := Option.some.inj (hstop.symm.trans hshutdown)
          exact h.settled ending
        | some first =>
          rw [h.1] at hduty
          cases hduty
      · rw [if_neg heq, Option.or_none]
        refine h.of_same ?_ (standing?_settled_of_ne _ stop ending (Ne.symm heq))
        rw [duty?_settled, if_neg (Ne.symm heq)]

/-- The first ending that is heard of a worker decides what becomes of its item. -/
theorem Waits.fate {told : List Message} (hwaits : Waits s told u) (h : s.Orderly)
    (hrunning : s.Stands (· = .downloading) id) : u.Fate id (firstEnding? id told) := by
  induction hwaits with
  | begin => exact fate_beginShutdown h hrunning
  | outside _ files inbox clock now share ih => exact ih.of_same rfl rfl
  | @expire _ t _ timer ih =>
    have halike : Alike t (t.expire timer) := by constructor <;> rfl
    exact ih.of_same (halike.duty? id) (halike.standing? id)
  | @hear told rest message t u hwaits hinbox hbusy hdone ih =>
    rw [firstEnding?_append]
    have hstopping := (hwaits.waiting h).stopping
    have hready : ({ t with inbox := rest } : Scheduler).Fate id (firstEnding? id told) :=
      ih.of_same rfl rfl
    exact hready.hear ⟨hstopping.closed, hstopping.told⟩ hdone

/-- A shutdown that has come to its end without an error has written the queue down. -/
theorem concludeShutdown_eq_done (h : s.concludeShutdown = .done t (.ok ())) :
    s.persist.2 = .ok () ∧
      ∃ snapshots events, t = { s.persist.1 with snapshots, events } := by
  rw [concludeShutdown] at h
  generalize s.persist = saved at h ⊢
  obtain ⟨written, result⟩ := saved
  cases result with
  | ok =>
    obtain ⟨u, ⟨⟩, hpublished, hrest⟩ := Step.andThen_eq_done.mp h
    obtain ⟨snapshot, -, rfl⟩ := publish_eq_done hpublished
    obtain ⟨rfl, -⟩ := Step.eq_done_iff.mp hrest
    exact ⟨rfl, _, _, rfl⟩
  | error error =>
    obtain ⟨u, ⟨⟩, hpublished, hrest⟩ := Step.andThen_eq_done.mp h
    cases (Step.eq_done_iff.mp hrest).2

/-- What holds after the end of a shutdown that has heard these messages. -/
structure Concluded (s : Scheduler) (told : List Message) (t : Scheduler) : Prop where
  fetches : t.fetches = s.fetches
  timers : t.timers ⊆ s.timers ∧ t.nextSerial = s.nextSerial
  idle : t.active = [] ∧ t.pending = []
  nodup : (t.table.items.map Item.id).Nodup
  still : ∀ item ∈ t.table.items, item.status ≠ .downloading
  settled : ∀ item ∈ s.table.items, item.status = .downloading →
    ∃ found ∈ t.table.items, found.id = item.id ∧
      found.status = if firstEnding? item.id told = some .completed then .finished else .queued
  load : QueueFile.load t.files t.config.queue.queueFile = .ok (QueueFile.kept t.table.items)

theorem standing?_abandonAll (s : Scheduler) (id : ItemId) :
    s.abandonAll.standing? id = s.standing? id := by
  rw [standing?, (abandonAll_eq s).2.2]
  split
  · rw [Option.map_map]
    rfl
  · rfl

theorem Waiting.not_downloading (h : Waiting s u) {standing : Standing}
    (hstanding : u.standing? id = some standing) : standing.status ≠ .downloading := by
  intro hstatus
  obtain ⟨duty, hduty, hstop⟩ := h.orderly.live id standing hstanding hstatus
  exact h.stopping.told duty (mem_of_duty? hduty) hstop

/-- From what was heard during the shutdown to what is left and what is in the queue file. -/
theorem Waits.concluded {told : List Message} (hwaits : Waits s told u) (h : s.Orderly)
    (hsound : u.files.Sound) (hdone : u.abandonAll.concludeShutdown = .done t (.ok ())) :
    Concluded s told t := by
  have hwaiting := hwaits.waiting h
  obtain ⟨hidle, hfiles, -⟩ := abandonAll_eq u
  have habandoned : Chain (fun _ _ => True) u u.abandonAll :=
    chain_abandonAll (fun _ => trivial) hwaiting.orderly.coherent hwaiting.stopping
  have hleft : u.abandonAll.table.Sound := (habandoned.coherent hwaiting.orderly.coherent).sound
  have hstrokes : Strokes Deed.Quiet u u.abandonAll :=
    strokes_abandonAll hwaiting.orderly.coherent hwaiting.stopping
  obtain ⟨htimers, hpending⟩ := hstrokes.timers_subset
  obtain ⟨hsaved, snapshots, events, rfl⟩ := concludeShutdown_eq_done hdone
  constructor
  case fetches => exact (habandoned.of_stopping hwaiting.stopping).2.2.trans hwaiting.fetches
  case timers =>
    exact ⟨List.Subset.trans htimers hwaiting.timers, hstrokes.nextSerial.trans hwaiting.nextSerial⟩
  case idle => exact ⟨hidle, List.subset_nil.mp (hwaiting.pending ▸ hpending)⟩
  case nodup => exact hleft.nodup
  case still =>
    intro item hmem
    have hstanding := standing?_of_get? (s := u.abandonAll) (hleft.get?_of_mem hmem)
    rw [standing?_abandonAll] at hstanding
    exact hwaiting.not_downloading hstanding
  case settled =>
    intro item hmem hstatus
    have hrunning := standing?_of_get? (h.coherent.sound.get?_of_mem hmem)
    obtain ⟨standing, hstanding, hsettled⟩ := (hwaits.fate h ⟨_, hrunning, hstatus⟩).stands
    rw [← standing?_abandonAll] at hstanding
    obtain ⟨found, hget, rfl⟩ := get?_of_standing? hstanding
    exact ⟨found, Table.mem_of_get? hget, Table.id_of_get? hget, hsettled⟩
  case load =>
    have hread := (QueueFile.edits_save (hfiles.symm ▸ hsound) u.abandonAll.config.queue.queueFile
      u.abandonAll.table.items).2 hsaved
    exact QueueFile.load_of_read hleft.nodup hread

def reopened (files : FileSystem) (item : Item) : Item :=
  if item.status.isComplete then item else item.measured files

theorem restored_eq_reopened (files : FileSystem) {item : Item} (hstill : item.status ≠ .downloading)
    (hlive : item.status ≠ .deleted) : restored files item = reopened files item := by
  rw [restored, reopened]
  cases hstatus : item.status with
  | downloading => exact absurd hstatus hstill
  | deleted => exact absurd hstatus hlive
  | _ => rfl

/-- The next session finds the items in the queue file and measures their files. -/
theorem Concluded.restart {told : List Message} (h : Concluded s told t) {config : Config}
    {around : Surroundings} {table : Table} (hvalid : config.validate = .ok ())
    (hpath : config.queue.queueFile = t.config.queue.queueFile) (hfiles : around.files = t.files)
    (htable : Table.ofItems (QueueFile.kept t.table.items) = .ok table)
    (hbytes : ((QueueFile.kept t.table.items).map fun item =>
      (reopened t.files item).bytesDownloaded.toNat).sum < UInt64.size) :
    (opening config around table).restore.table.items =
        (QueueFile.kept t.table.items).map (reopened t.files) ∧
      ∃ c, Controller.start config around = .started c ∧
        (opening config around table).restore.tick.commit = .done c.scheduler () := by
  have hload : QueueFile.load around.files config.queue.queueFile =
      .ok (QueueFile.kept t.table.items) := by
    rw [hpath, hfiles]
    exact h.load
  obtain ⟨hsound, hitems⟩ := Table.Sound.ofItems (QueueFile.nodup_of_load hload) htable
  -- nothing was saved as downloading, so only the files are measured
  have hsame : ∀ item ∈ QueueFile.kept t.table.items,
      restored t.files item = reopened t.files item := by
    intro item hmem
    obtain ⟨hitem, hlive⟩ := List.mem_filter.mp hmem
    exact restored_eq_reopened t.files (h.still item hitem) (of_decide_eq_true hlive)
  have hrestored : (opening config around table).restore.table.items =
      (QueueFile.kept t.table.items).map (reopened t.files) := by
    have hall : (opening config around table).restore.table.items =
        table.items.map (restored around.files) :=
      items_restore (s := opening config around table) hsound rfl
    rw [hall, hitems, hfiles]
    exact List.map_congr_left hsame
  have hcounted : ((QueueFile.kept table.items).map fun item =>
      (restored around.files item).bytesDownloaded.toNat).sum < UInt64.size := by
    rw [hitems, kept_kept, hfiles]
    refine Nat.lt_of_le_of_lt (Nat.le_of_eq (congrArg List.sum ?_)) hbytes
    refine List.map_congr_left fun item hmem => ?_
    rw [hsame item hmem]
  have hlaunched : (opening config around table).launch.result = .ok () :=
    (launch_result (s := opening config around table) hsound rfl).trans (if_pos hcounted)
  have hends : (opening config around table).launch.result.isOk = true := by
    rw [hlaunched]
    rfl
  have hcommit := Step.eq_done_of_isOk hends
  exact ⟨hrestored, _, Controller.start_eq_started hvalid hload htable hcommit, hcommit⟩

/-- **Shutdown and restart.** A shutdown that ends without an error, whatever it has heard of its
workers, has begun nothing, leaves no worker, no timer and no running item, and has written down all
items that are not deleted. A queue that starts from the same files has these items in the same
order, and of each that is not complete the file says how far it has come. -/
theorem restart_of_shutdown (config : Config) {files : FileSystem} {path : Path}
    {items : List Item} (hload : QueueFile.load files path = .ok items) {table : Table}
    (htable : Table.ofItems items = .ok table) (now : Timestamp) (share : Float)
    (actions : List Action) (s : Scheduler)
    (hrun : s = actions.foldl act (Scheduler.ofTable config table files now share).restore) :
    (∀ t result, s.shutdown = .done t result →
      ∃ told u, Waits s told u ∧ u.abandonAll.concludeShutdown = .done t result) ∧
    ∀ told u t, Waits s told u → u.files.Sound →
      u.abandonAll.concludeShutdown = .done t (.ok ()) →
      Concluded s told t ∧
      ∀ (next : Config) (around : Surroundings) (opened : Table), next.validate = .ok () →
        next.queue.queueFile = t.config.queue.queueFile → around.files = t.files →
        Table.ofItems (QueueFile.kept t.table.items) = .ok opened →
        ((QueueFile.kept t.table.items).map fun item =>
          (reopened t.files item).bytesDownloaded.toNat).sum < UInt64.size →
        (opening next around opened).restore.table.items =
            (QueueFile.kept t.table.items).map (reopened t.files) ∧
          ∃ c, Controller.start next around = .started c ∧
            (opening next around opened).restore.tick.commit = .done c.scheduler () := by
  have horderly : s.Orderly := hrun ▸ orderly_of_actions config hload htable now share actions
  refine ⟨fun t result hdone => exists_waits_of_shutdown hdone, ?_⟩
  intro told u t hwaits hsound hdone
  have hconcluded := hwaits.concluded horderly hsound hdone
  refine ⟨hconcluded, fun next around opened hvalid hpath hfiles hopened hbytes => ?_⟩
  exact hconcluded.restart hvalid hpath hfiles hopened hbytes

def nearby : Item :=
  { Item.new ⟨3⟩ "http://h/a" ⟨"/a"⟩ .epoch with status := .downloading, bytesDownloaded := 2 }

def nearbyFiles (content : List UInt8) : FileSystem :=
  ⟨[], [(["q"], .file (QueueFile.render [nearby])), (["a"], .file content)]⟩

def nearbyRun : Scheduler :=
  [.operation .tick].foldl act
    (Scheduler.ofTable roomyConfig ⟨[nearby], 4⟩ (nearbyFiles [1, 2]) .epoch 0).restore

def nearbyWait : Scheduler :=
  { nearbyRun.beginShutdown with files := nearbyFiles [1, 2, 3] }

def nearbyEnd : Step (Except QueueError Unit) :=
  nearbyWait.abandonAll.concludeShutdown

theorem load_nearbyFiles : QueueFile.load (nearbyFiles [1, 2]) ⟨"/q"⟩ = .ok [nearby] := by
  have hread : (nearbyFiles [1, 2]).read ⟨"/q"⟩ = .ok (QueueFile.render [nearby]) := rfl
  have hnodup : ([nearby].map Item.id).Nodup := List.nodup_singleton nearby.id
  exact QueueFile.load_of_read hnodup hread

theorem nearbyEnd_eq : nearbyEnd = .done nearbyEnd.scheduler (.ok ()) := by
  have hresult : nearbyEnd.result = .ok (.ok ()) := by rfl
  exact Step.eq_done_iff.mpr ⟨rfl, hresult⟩

/-- The worker is given up on, and the next session resumes behind its last byte. -/
theorem restart_of_shutdown_nearby :
    nearbyWait.active ≠ [] ∧ Concluded nearbyRun [] nearbyEnd.scheduler ∧
      nearbyEnd.scheduler.table.items = [{ nearby with status := .queued, bytesDownloaded := 3 }] ∧
      (opening roomyConfig ⟨nearbyEnd.scheduler.files, 7, .epoch, "", 0⟩
        ⟨nearbyEnd.scheduler.table.items, 4⟩).restore.table.items = nearbyEnd.scheduler.table.items ∧
      ∃ c, Controller.start roomyConfig ⟨nearbyEnd.scheduler.files, 7, .epoch, "", 0⟩ =
        .started c := by
  have hactive : nearbyWait.active ≠ [] := by decide +kernel
  have hitems : nearbyEnd.scheduler.table.items =
      [{ nearby with status := .queued, bytesDownloaded := 3 }] := by decide +kernel
  have hwaits : Waits nearbyRun [] nearbyWait :=
    .outside .begin (nearbyFiles [1, 2, 3]) nearbyRun.beginShutdown.inbox
      nearbyRun.beginShutdown.clock nearbyRun.beginShutdown.now nearbyRun.beginShutdown.share
  have hsound : nearbyWait.files.Sound := .flat (by simp)
  obtain ⟨hconcluded, hrestart⟩ := (restart_of_shutdown roomyConfig load_nearbyFiles rfl .epoch 0
    [.operation .tick] nearbyRun rfl).2 [] nearbyWait nearbyEnd.scheduler hwaits hsound nearbyEnd_eq
  have hkept : QueueFile.kept nearbyEnd.scheduler.table.items =
        nearbyEnd.scheduler.table.items ∧
      nearbyEnd.scheduler.table.items.map (reopened nearbyEnd.scheduler.files) =
        nearbyEnd.scheduler.table.items := by
    decide +kernel
  have hopened : Table.ofItems (QueueFile.kept nearbyEnd.scheduler.table.items) =
      .ok ⟨nearbyEnd.scheduler.table.items, 4⟩ := by
    rw [hkept.1, hitems]
    rfl
  have hbytes : ((QueueFile.kept nearbyEnd.scheduler.table.items).map fun item =>
      (reopened nearbyEnd.scheduler.files item).bytesDownloaded.toNat).sum < UInt64.size := by
    decide +kernel
  obtain ⟨hrestored, c, hstart, -⟩ := hrestart roomyConfig
    ⟨nearbyEnd.scheduler.files, 7, .epoch, "", 0⟩ _ (by decide +kernel) (by decide +kernel) rfl
    hopened hbytes
  rw [hkept.1, hkept.2] at hrestored
  exact ⟨hactive, hconcluded, hitems, hrestored, c, hstart⟩

end Scheduler

end DownloadQueue
