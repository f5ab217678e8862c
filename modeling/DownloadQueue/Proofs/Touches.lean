import DownloadQueue.Proofs.Change

/-!
# What operations are made of

Every operation of the scheduler touches it a number of times, and each touch writes to one part of
it under a condition that the rules have checked. Some of them need a cause from outside: a message
that was heard, or a request. What holds of every operation is proved once for each touch; changes,
which show only what the rules look at, are a first view of them.
-/

namespace DownloadQueue

def Item.record (item : Item) : Item :=
  { item with bytesDownloaded := 0, bytesTotal := none }

def Event.Passing : Event → Prop
  | .queued _ _ | .statusChanged _ _ _ | .removed _ => False
  | _ => True

def Status.Wanted (status : Status) : Prop :=
  status = .queued ∨ status = .downloading ∨ status = .paused

theorem Status.Wanted.ne_deleted {status : Status} (h : status.Wanted) : status ≠ .deleted := by
  rcases h with rfl | rfl | rfl <;> simp

theorem Status.Wanted.ne_failed {status : Status} (h : status.Wanted) : status ≠ .failed := by
  rcases h with rfl | rfl | rfl <;> simp

theorem Status.Wanted.not_complete {status : Status} (h : status.Wanted) :
    status.isComplete = false := by
  rcases h with rfl | rfl | rfl <;> rfl

/-- What the scheduler does not do of its own. -/
inductive Cause
  | report (id : ItemId)
  | hear (id : ItemId) (ending : Ending)
  | lose (id : ItemId)
  | fail (id : ItemId) (reason : String)
  | again (id : ItemId)
  | discard
  | add
  | save

namespace Scheduler

def dismiss (s : Scheduler) (keep : Item → Bool) : Scheduler :=
  { s with
    table := (s.table.retain keep).2
    events := s.events ++ (s.table.retain keep).1.map fun item => .removed item.id }

def lingers (s : Scheduler) (item : Item) : Bool :=
  item.status ≠ .deleted || s.isBound item.id

theorem foldl_removed (items : List Item) (s : Scheduler) :
    items.foldl (fun s item => s.emit (.removed item.id)) s =
      { s with events := s.events ++ items.map fun item => .removed item.id } := by
  induction items generalizing s with
  | nil => rw [List.foldl_nil, List.map_nil, List.append_nil]
  | cons first rest ih =>
    rw [List.foldl_cons, ih, List.map_cons, List.append_cons]
    rfl

theorem dropDeleted_eq (s : Scheduler) : s.dropDeleted.2 = s.dismiss s.lingers :=
  foldl_removed _ _

/-- One touch of the scheduler; `may` holds of the causes that there are. -/
inductive Touch (may : Cause → Prop) : Scheduler → Scheduler → Prop
  | mark (s : Scheduler) : Touch may s s.markDirty
  | tell (s : Scheduler) (event : Event) (hpassing : event.Passing)
      (hknown : ∀ id, event.id? = some id → s.Stands (fun _ => True) id) :
      Touch may s (s.emit event)
  | measure {s : Scheduler} {id : ItemId} (hown : may (.report id) ∨ s.duty? id = none)
      {change : Item → Item} (h : ∀ item, (change item).record = item.record) :
      Touch may s (s.modifyItem id change)
  | rebind (s : Scheduler) (id : ItemId) {change : Binding → Binding}
      (h : ∀ binding, (change binding).duty = binding.duty) : Touch may s (s.rebind id change)
  | engage {s : Scheduler} {id : ItemId} {item : Item} (hget : s.table.get? id = some item)
      (hqueued : item.status = .queued) (hfree : s.duty? id = none)
      (hroom : s.active.length < s.maxConcurrent.toNat) (hopen : s.shuttingDown = false) :
      Touch may s (s.startTransfer id)
  | stop {s : Scheduler} {id : ItemId} {duty : Duty} {standing : Standing}
      (hduty : s.duty? id = some duty) (hstanding : s.standing? id = some standing)
      (hwanted : standing.status.Wanted) {reason : StopReason} {status : Status}
      (hsuits : reason.Suits status) : Touch may s ((s.stopTransfer id reason).setStatus id status)
  | restop {s : Scheduler} {id : ItemId} {duty : Duty} (hduty : s.duty? id = some duty)
      (hstop : duty.stop ≠ none) {reason : StopReason} (hreason : reason ≠ .delete) :
      Touch may s (s.stopTransfer id reason)
  | turn {s : Scheduler} {id : ItemId} {standing : Standing}
      (hstanding : s.standing? id = some standing) (hwanted : standing.status.Wanted)
      {status : Status} (hstatus : status = .queued ∨ status = .paused)
      (hfree : s.duty? id = none ∨ standing.status ≠ .downloading) :
      Touch may s (s.setStatus id status)
  | delete {s : Scheduler} {id : ItemId} {standing : Standing}
      (hstanding : s.standing? id = some standing) (hlive : standing.status ≠ .deleted)
      (hfree : s.duty? id = none) (hnone : s.pendingSerial? id = none) :
      Touch may s (s.setStatus id .deleted)
  | discard (hmay : may .discard) {s : Scheduler} {id : ItemId} {item : Item}
      (hget : s.table.get? id = some item) (hfree : s.duty? id = none)
      (hlive : item.status ≠ .deleted) (hpartial : item.status.isComplete = false) :
      Touch may s (s.discardPartial id)
  | finish {s : Scheduler} {id : ItemId} {duty : Duty} {standing : Standing}
      (hduty : s.duty? id = some duty) (hheard : may (.hear id .completed))
      (hstop : duty.stop ≠ some .delete) (hstanding : s.standing? id = some standing)
      (hwanted : standing.status.Wanted) : Touch may s ((s.unbind id).finish id)
  /-- A worker has stopped without having been told to, and its item waits for another one. -/
  | yield {s : Scheduler} {id : ItemId} {duty : Duty} {standing : Standing}
      (hduty : s.duty? id = some duty) (hheard : may (.hear id .cancelled))
      (hstop : duty.stop = none) (hstanding : s.standing? id = some standing)
      (hrunning : standing.status = .downloading) :
      Touch may s ((s.unbind id).setStatus id .queued)
  | fail {s : Scheduler} {id : ItemId} {duty : Duty} {item : Item} {reason : String}
      {retryable : Bool} (hduty : s.duty? id = some duty)
      (hheard : may (.hear id (.failed reason retryable))) (hmay : may (.fail id reason))
      (hstop : duty.stop = none) (hget : s.table.get? id = some item)
      (hrunning : item.status = .downloading) :
      Touch may s (((s.unbind id).setStatus id .failed).modifyItem id fun item =>
        { item with lastError := some reason })
  | wait {s : Scheduler} {id : ItemId} {reason : String} (hmay : may (.fail id reason))
      (hfailed : s.Stands (fun status => status = .failed) id)
      (hpolicy : s.config.retry.policy = .automatic) (delay : Duration) :
      Touch may s (s.scheduleRetry id delay)
  /-- A worker that was told to stop is gone; if its item is deleted, the queue file falls behind. -/
  | leave {s : Scheduler} {id : ItemId} {duty : Duty} {ending : Ending}
      (hduty : s.duty? id = some duty) (hheard : may (.hear id ending)) (hstop : duty.stop ≠ none)
      (hmarked : s.dirty = true ∨ may (.lose id) ∨ s.Stands (fun status => status ≠ .deleted) id) :
      Touch may s (s.unbind id)
  /-- A worker that was told to throw its file away is gone, and so is the file. -/
  | clear {s : Scheduler} {id : ItemId} {duty : Duty} {ending : Ending} {standing : Standing}
      (hduty : s.duty? id = some duty) (hheard : may (.hear id ending)) (hmay : may .discard)
      {reason : StopReason} (hstop : duty.stop = some reason)
      (hdiscards : reason.discardsPartial = true) (hstanding : s.standing? id = some standing) :
      Touch may s ((s.unbind id).discardPartial id)
  | halt (s : Scheduler) (id : ItemId) : Touch may s (s.cancelTimer id)
  | haltAll (s : Scheduler) : Touch may s s.cancelAllTimers
  | forget {id : ItemId} (hmay : may (.again id)) (s : Scheduler) : Touch may s (s.forgetTimer id)
  | again {s : Scheduler} {id : ItemId} {item : Item} {attempts : UInt32} (hmay : may (.again id))
      (hget : s.table.get? id = some item) (hstatus : item.status = .failed)
      (hfree : s.duty? id = none) (hnone : s.pendingSerial? id = none)
      (hattempts : Counter.next32 item.attempts = .ok attempts) :
      Touch may s ((s.modifyItem id fun item => { item with attempts }).setStatus id .queued)
  | drop {s : Scheduler} {keep : Item → Bool}
      (h : ∀ item ∈ s.table.items, keep item = false →
        item.status = .deleted ∧ s.duty? item.id = none) : Touch may s (s.dismiss keep)
  | dropComplete {s : Scheduler} {keep : Item → Bool}
      (h : ∀ item ∈ s.table.items, keep item = false →
        item.status.isComplete = true ∧ s.duty? item.id = none) :
      Touch may s (s.dismiss keep).markDirty
  | join (hmay : may .add) {s : Scheduler} {item : Item} {next : UInt64}
      (hnext : Counter.next64 s.table.nextId = .ok next) (hid : item.id = ⟨s.table.nextId⟩)
      (hresolved : ∃ destination, resolveDestination s.files.cwd s.config.queue.downloadDir
        destination = .ok item.destination)
      (htaken : s.destinationTaken item.destination = false)
      (hstatus : item.status = .queued ∧ s.files.fileLength? item.destination = none ∨
        item.status.isComplete = true)
      (hattempts : item.attempts = 0) (herror : item.lastError = none) (url : String) :
      Touch may s (({ s with table := ⟨s.table.items ++ [item], next⟩ } : Scheduler).emit
        (.queued item.id url))
  | relimit {s : Scheduler} {limit : UInt64}
      (hroom : s.running.length ≤ limit.toNat ∨ s.maxConcurrent < limit) (hpositive : limit ≠ 0) :
      Touch may s { s with maxConcurrent := limit }
  | automate (s : Scheduler) (enabled : Bool) : Touch may s { s with autoDownload := enabled }
  | close (s : Scheduler) : Touch may s { s with shuttingDown := true }
  | publish {s : Scheduler} {snapshot : Snapshot} (h : s.snapshot = .ok snapshot) :
      Touch may s { s with snapshots := s.snapshots ++ [snapshot] }
  | persist (hmay : may .save) (s : Scheduler) : Touch may s s.persist.1
  | sweep (hmay : may .save) (s : Scheduler) :
      Touch may s (({ s with dirty := false } : Scheduler).dismiss s.lingers)

abbrev Touches (may : Cause → Prop) : Scheduler → Scheduler → Prop :=
  Relation.ReflTransGen (Touch may)

variable {may : Cause → Prop} {heard : ItemId → Ending → Prop} {s t : Scheduler} {id : ItemId}
variable {item : Item}

theorem touches_refl (s : Scheduler) : Touches may s s :=
  Relation.ReflTransGen.refl

theorem of_lingers_eq_false (h : s.lingers item = false) :
    item.status = .deleted ∧ s.duty? item.id = none := by
  simp only [lingers, Bool.or_eq_false_iff, decide_eq_false_iff_not, ne_eq, Decidable.not_not] at h
  exact ⟨h.1, isBound_eq_false_iff.mp h.2⟩

theorem chain_dismiss {keep : Item → Bool}
    (h : ∀ item ∈ s.table.items, keep item = false → s.duty? item.id = none ∧
      (item.status = .deleted ∨ item.status.isComplete = true)) :
    Chain heard s (s.dismiss keep) := by
  refine (Chain.single (.drop h)).trans (Chain.note ?_)
  constructor <;> rfl

/-- Every touch is a chain of changes. -/
theorem Touch.chain (htouch : Touch may s t)
    (hheard : ∀ id ending, may (.hear id ending) → heard id ending) : Chain heard s t := by
  cases htouch with
  | mark => exact Chain.note (alike_markDirty s)
  | tell => exact Chain.note (alike_emit s _)
  | measure _ hrecord =>
    have hstanding (item : Item) := congrArg Item.standing (hrecord item)
    exact Chain.note (alike_modifyItem s _ _ hstanding)
  | rebind _ _ hduty => exact Chain.note (alike_rebind s _ _ hduty)
  | engage hget hqueued hfree hroom hopen => exact Chain.single (.engage hget hqueued hfree hroom hopen)
  | stop hduty hstanding hwanted hsuits =>
    exact Chain.single (.stop hduty hstanding hwanted.ne_deleted hsuits)
  | restop hduty hstop hreason => exact Chain.single (.restop hduty hstop hreason)
  | turn hstanding hwanted hstatus hfree =>
    refine Chain.single (.shift hstanding hwanted.ne_deleted (hstatus.imp_right .inl) ?_
      (.inr hwanted.not_complete))
    refine hfree.imp_right fun hidle => ⟨?_, ?_⟩
    · exact hwanted.imp_right fun h => h.resolve_left hidle
    · rcases hstatus with rfl | rfl <;> simp
  | delete hstanding hlive hfree =>
    exact Chain.single (.shift hstanding hlive (.inr (.inr rfl)) (.inl hfree) (.inl rfl))
  | discard _ hget hfree hlive hpartial => exact Chain.single (.discard hget hfree hlive hpartial)
  | @finish _ id duty _ hduty hmay hstop =>
    have hmeasured : Alike (s.unbind id) ((s.unbind id).modifyItem id fun item =>
        { item with bytesTotal := knownTotal item.bytesTotal (some item.bytesDownloaded) }) :=
      alike_modifyItem _ id _ fun _ => rfl
    exact Chain.single (.finish hduty (hheard _ _ hmay) hmeasured (.inl ⟨rfl, rfl, hstop⟩))
  | yield hduty hmay hstop =>
    exact Chain.single (.finish hduty (hheard _ _ hmay) (Alike.refl _) (.inr ⟨hstop, .inr rfl⟩))
  | fail hduty hmay _ hstop =>
    refine (Chain.single ?_).trans (Chain.note (alike_modifyItem _ _ _ fun _ => rfl))
    exact .finish hduty (hheard _ _ hmay) (Alike.refl _) (.inr ⟨hstop, .inl rfl⟩)
  | wait => exact Chain.note (alike_scheduleRetry s _ _)
  | leave hduty hmay hstop => exact Chain.single (.leave hduty (hheard _ _ hmay) hstop)
  | clear hduty hmay _ hstop hdiscards =>
    exact Chain.single (.clear hduty (hheard _ _ hmay) hstop hdiscards)
  | halt => exact Chain.note (alike_cancelTimer s _)
  | haltAll => exact Chain.note (alike_cancelAllTimers s)
  | forget => exact Chain.note (alike_forgetTimer s _)
  | @again _ id item attempts _ hget hstatus hfree =>
    have hnote : Alike s (s.modifyItem id fun item => { item with attempts }) :=
      alike_modifyItem s id _ fun _ => rfl
    refine (Chain.note hnote).trans (Chain.single ?_)
    refine .shift ((hnote.standing? id).trans (standing?_of_get? hget)) ?_ (.inl rfl) (.inl ?_)
      (.inr ?_)
    · simp [hstatus]
    · rw [hnote.duty?, hfree]
    · simp [hstatus, Status.isComplete]
  | drop h => exact chain_dismiss fun item hmem hgone => (h item hmem hgone).symm.imp_right .inl
  | dropComplete h =>
    refine Relation.ReflTransGen.trans (chain_dismiss ?_) (Chain.note (alike_markDirty _))
    exact fun item hmem hgone => (h item hmem hgone).symm.imp_right .inr
  | join _ hnext hid hresolved htaken hstatus =>
    exact (Chain.single (.add hnext hid hresolved htaken hstatus)).trans (Chain.note (alike_emit _ _))
  | relimit hroom hpositive => exact Chain.single (.relimit hroom hpositive)
  | automate => exact Chain.note (by constructor <;> rfl)
  | close => exact Chain.single (.close s)
  | publish => exact Chain.note (by constructor <;> rfl)
  | persist => exact Chain.single (.save s)
  | sweep =>
    have hclean : Alike s { s with dirty := false } := by constructor <;> rfl
    refine (Chain.note hclean).trans (chain_dismiss fun item _ hgone => ?_)
    exact (of_lingers_eq_false hgone).symm.imp_right .inl

theorem Touches.coherent (htouches : Touches may s t) (h : s.Coherent) : t.Coherent := by
  induction htouches with
  | refl => exact h
  | @tail u v _ htouch ih =>
    have hchain : Chain (fun _ _ => True) u v := htouch.chain fun _ _ _ => trivial
    exact hchain.coherent ih

theorem Touches.sound (htouches : Touches may s t) (h : s.table.Sound) : t.table.Sound := by
  induction htouches with
  | refl => exact h
  | @tail u v _ htouch ih =>
    have hchain : Chain (fun _ _ => True) u v := htouch.chain fun _ _ _ => trivial
    exact hchain.sound ih

def Heard (heard : ItemId → Ending → Prop) : Cause → Prop
  | .hear id ending => heard id ending
  | _ => True

theorem Touches.chain (htouches : Touches (Heard heard) s t) : Chain heard s t := by
  induction htouches with
  | refl => exact Relation.ReflTransGen.refl
  | tail _ htouch ih => exact ih.trans (htouch.chain fun _ _ hheard => hheard)

theorem pendingSerial?_cancelTimer_self (s : Scheduler) (id : ItemId) :
    (s.cancelTimer id).pendingSerial? id = none := by
  rw [cancelTimer]
  split
  · next hnone => exact hnone
  · simp [pendingSerial?, forgetTimer]

theorem pending_discardPartial (s : Scheduler) (id : ItemId) :
    (s.discardPartial id).pending = s.pending := by
  rw [discardPartial]
  split <;> rfl

theorem touches_reconcile (hfree : s.duty? id = none) : Touches may s (s.reconcile id) := by
  rw [reconcile]
  split
  · exact touches_refl s
  · dsimp only
    split
    · exact touches_refl s
    · refine Relation.ReflTransGen.tail ?_ (.mark _)
      exact .single (.measure (.inr hfree) fun _ => rfl)

/-- An item that is wanted may be stopped, with a worker or without one. -/
theorem touches_stop {standing : Standing} (hstanding : s.standing? id = some standing)
    (hwanted : standing.status.Wanted) {reason : StopReason} {status : Status}
    (hsuits : reason.Suits status) (hkept : status ≠ .deleted) :
    Touches may s ((s.stopTransfer id reason).setStatus id status) := by
  cases hduty : s.duty? id with
  | none =>
    rw [stopTransfer_of_duty?_eq_none hduty]
    have hstatus := hsuits.1.imp_right fun h => h.resolve_right hkept
    exact .single (.turn hstanding hwanted hstatus (.inl hduty))
  | some duty => exact .single (.stop hduty hstanding hwanted hsuits)

end Scheduler

end DownloadQueue
