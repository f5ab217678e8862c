import DownloadQueue.Proofs.Lifecycle

/-!
# Operations stroke by stroke

Changes show what the rules of the queue look at. Who sets the mark that the queue file has fallen
behind, who sets timers and who stops them, they do not show. Strokes do: every touch that neither
adds an item nor saves the queue is made of them, and what every stroke keeps the operations keep.

A failed or deleted item rests. Only a new attempt takes a failed item out of its rest, and only
some operations throw files away, let items fail or try them again; a chain of strokes says which of
these deeds it may hold.
-/

namespace DownloadQueue

def Status.Rests (status : Status) : Prop :=
  status = .failed ∨ status = .deleted

theorem Status.Wanted.not_rests {status : Status} (h : status.Wanted) : ¬ status.Rests := by
  rintro (hfailed | hdeleted)
  · exact h.ne_failed hfailed
  · exact h.ne_deleted hdeleted

inductive Deed
  | discard
  | fail (id : ItemId)
  | again (id : ItemId)

namespace Scheduler

variable {may : Deed → Prop} {s t u : Scheduler} {id : ItemId} {item : Item}

structure Aside (s t : Scheduler) : Prop where
  events : s.events <+: t.events
  table : t.table = s.table
  dirty : t.dirty = s.dirty
  files : t.files = s.files
  config : t.config = s.config
  clock : t.clock = s.clock
  timers : t.timers = s.timers
  pending : t.pending = s.pending
  nextSerial : t.nextSerial = s.nextSerial
  retries : t.retries = s.retries

inductive Stroke (may : Deed → Prop) : Scheduler → Scheduler → Prop
  | aside {s t : Scheduler} (h : Aside s t) : Stroke may s t
  | mark (s : Scheduler) : Stroke may s s.markDirty
  | measure (s : Scheduler) (id : ItemId) {change : Item → Item}
      (h : ∀ item, (change item).record = item.record) : Stroke may s (s.modifyItem id change)
  | shift {s : Scheduler} {id : ItemId} {status : Status}
      (h : s.Stands (fun old => old.Rests → status.Rests) id) :
      Stroke may s (s.setStatus id status)
  | drop {s : Scheduler} {keep : Item → Bool}
      (h : ∀ item ∈ s.table.items, keep item = false → item.status = .deleted) :
      Stroke may s { s with table := (s.table.retain keep).2 }
  | clear (s : Scheduler) (keep : Item → Bool) :
      Stroke may s ({ s with table := (s.table.retain keep).2 } : Scheduler).markDirty
  | halt (s : Scheduler) (id : ItemId) : Stroke may s (s.cancelTimer id)
  | haltAll (s : Scheduler) : Stroke may s s.cancelAllTimers
  | discard (hmay : may .discard) (s : Scheduler) (id : ItemId) : Stroke may s (s.discardPartial id)
  | fail {s : Scheduler} {id : ItemId} (hmay : may (.fail id)) {item : Item}
      (hget : s.table.get? id = some item) (hstatus : item.status ≠ .failed) (reason : String) :
      Stroke may s
        ((s.setStatus id .failed).modifyItem id fun item => { item with lastError := some reason })
  | schedule {id : ItemId} (hmay : may (.fail id)) (s : Scheduler) (delay : Duration) :
      Stroke may s (s.scheduleRetry id delay)
  | forget {id : ItemId} (hmay : may (.again id)) (s : Scheduler) : Stroke may s (s.forgetTimer id)
  | again {s : Scheduler} {id : ItemId} (hmay : may (.again id)) {item : Item}
      (hget : s.table.get? id = some item) (hstatus : item.status = .failed) (attempts : UInt32) :
      Stroke may s ((s.modifyItem id fun item => { item with attempts }).setStatus id .queued)

abbrev Strokes (may : Deed → Prop) : Scheduler → Scheduler → Prop :=
  Relation.ReflTransGen (Stroke may)

theorem strokes_refl (s : Scheduler) : Strokes may s s :=
  Relation.ReflTransGen.refl

theorem strokes_aside (h : Aside s t) : Strokes may s t :=
  Relation.ReflTransGen.single (.aside h)

theorem strokes_emit (s : Scheduler) (event : Event) : Strokes may s (s.emit event) :=
  strokes_aside ⟨List.prefix_append _ _, rfl, rfl, rfl, rfl, rfl, rfl, rfl, rfl, rfl⟩

theorem strokes_unbind (s : Scheduler) (id : ItemId) : Strokes may s (s.unbind id) :=
  strokes_aside ⟨List.prefix_rfl, rfl, rfl, rfl, rfl, rfl, rfl, rfl, rfl, rfl⟩

theorem strokes_rebind (s : Scheduler) (id : ItemId) (change : Binding → Binding) :
    Strokes may s (s.rebind id change) :=
  strokes_aside ⟨List.prefix_rfl, rfl, rfl, rfl, rfl, rfl, rfl, rfl, rfl, rfl⟩

theorem strokes_stopTransfer (s : Scheduler) (id : ItemId) (reason : StopReason) :
    Strokes may s (s.stopTransfer id reason) :=
  strokes_rebind s id _

theorem strokes_setStatus {status : Status} (h : s.Stands (fun old => old.Rests → status.Rests) id) :
    Strokes may s (s.setStatus id status) :=
  Relation.ReflTransGen.single (.shift h)

/-- An item that does not rest gets any status. -/
theorem strokes_setStatus_of_awake (h : s.Stands (fun old => ¬ old.Rests) id) (status : Status) :
    Strokes may s (s.setStatus id status) :=
  strokes_setStatus (h.mono fun _ hawake hrests => absurd hrests hawake)

/-- A worker is told to stop, and its item gets its new status at once. -/
theorem strokes_stop (h : s.Stands (fun old => ¬ old.Rests) id) (reason : StopReason)
    (status : Status) : Strokes may s ((s.stopTransfer id reason).setStatus id status) := by
  have hawake : (s.stopTransfer id reason).Stands (fun old => ¬ old.Rests) id := h.of_standing? rfl
  exact (strokes_stopTransfer s id reason).trans (strokes_setStatus_of_awake hawake status)

/-- No stroke gives a number away again. -/
theorem Stroke.sound (hstroke : Stroke may s t) (h : s.table.Sound) : t.table.Sound := by
  cases hstroke with
  | aside haside => exact haside.table ▸ h
  | mark => exact h
  | measure _ _ hrecord =>
    have hid (item : Item) := congrArg Item.id (hrecord item)
    exact h.of_ids (Table.ids_modify _ _ _ hid) rfl
  | shift => exact sound_setStatus h _ _
  | drop => exact h.filter _
  | clear => exact h.filter _
  | halt => exact table_cancelTimer s _ ▸ h
  | haltAll => exact h
  | discard => exact sound_discardPartial h _
  | fail =>
    refine (sound_setStatus h _ .failed).of_ids ?_ rfl
    exact Table.ids_modify _ _ _ fun _ => rfl
  | @schedule id =>
    have hsound : (s.cancelTimer id).table.Sound := table_cancelTimer s id ▸ h
    exact hsound
  | forget => exact h
  | again =>
    apply sound_setStatus
    refine h.of_ids ?_ rfl
    exact Table.ids_modify _ _ _ fun _ => rfl

theorem Strokes.sound (hstrokes : Strokes may s t) (h : s.table.Sound) : t.table.Sound := by
  induction hstrokes with
  | refl => exact h
  | tail _ hstroke ih => exact hstroke.sound ih

theorem strokes_startTransfer (hget : s.table.get? id = some item) (hqueued : item.status = .queued) :
    Strokes may s (s.startTransfer id) := by
  rw [startTransfer_eq hget]
  refine (strokes_aside ?_).trans (strokes_setStatus_of_awake ?_ _)
  · exact ⟨List.prefix_rfl, rfl, rfl, rfl, rfl, rfl, rfl, rfl, rfl, rfl⟩
  · exact stands_of_get? hget (Status.Wanted.not_rests (.inl hqueued))

theorem strokes_finish (h : s.Stands (fun status => ¬ status.Rests) id) :
    Strokes may s (s.finish id) := by
  rw [finish]
  refine Relation.ReflTransGen.trans ?_ (strokes_setStatus_of_awake ?_ _)
  · exact .single (.measure s id fun _ => rfl)
  · exact h.modifyItem id fun _ => rfl

theorem strokes_dismiss {keep : Item → Bool}
    (h : ∀ item ∈ s.table.items, keep item = false → item.status = .deleted) :
    Strokes may s (s.dismiss keep) := by
  refine Relation.ReflTransGen.head (.drop h) (strokes_aside ?_)
  exact ⟨List.prefix_append _ _, rfl, rfl, rfl, rfl, rfl, rfl, rfl, rfl, rfl⟩

def Allowed (may : Deed → Prop) : Cause → Prop
  | .discard => may .discard
  | .fail id _ => may (.fail id)
  | .again id => may (.again id)
  | .report _ | .hear _ _ | .lose _ => True
  | .add | .save => False

/-- Every touch comes to strokes, which do not say who asked for them. -/
theorem Touch.strokes (htouch : Touch (Allowed may) s t) : Strokes may s t := by
  cases htouch with
  | mark => exact .single (.mark s)
  | tell => exact strokes_emit s _
  | measure _ hrecord => exact .single (.measure s _ hrecord)
  | rebind => exact strokes_rebind s _ _
  | engage hget hqueued => exact strokes_startTransfer hget hqueued
  | stop _ hstanding hwanted => exact strokes_stop ⟨_, hstanding, hwanted.not_rests⟩ _ _
  | restop => exact strokes_rebind s _ _
  | turn hstanding hwanted => exact strokes_setStatus_of_awake ⟨_, hstanding, hwanted.not_rests⟩ _
  | delete hstanding => exact .single (.shift ⟨_, hstanding, fun _ => .inr rfl⟩)
  | discard hmay => exact .single (.discard hmay s _)
  | finish _ _ _ hstanding hwanted =>
    refine (strokes_unbind s _).trans (strokes_finish ?_)
    exact ⟨_, hstanding, hwanted.not_rests⟩
  | yield _ _ _ hstanding hrunning =>
    refine (strokes_unbind s _).trans (strokes_setStatus_of_awake ?_ _)
    exact ⟨_, hstanding, Status.Wanted.not_rests (.inr (.inl hrunning))⟩
  | @fail _ id _ item _ _ _ _ hmay _ hget hrunning =>
    have hfound : (s.unbind id).table.get? id = some item := hget
    exact (strokes_unbind s id).tail (.fail hmay hfound (by simp [hrunning]) _)
  | wait hmay => exact .single (.schedule hmay s _)
  | leave => exact strokes_unbind s _
  | clear _ _ hmay => exact (strokes_unbind s _).tail (.discard hmay _ _)
  | halt => exact .single (.halt s _)
  | haltAll => exact .single (.haltAll s)
  | forget hmay => exact .single (.forget hmay s)
  | again hmay hget hstatus => exact .single (.again hmay hget hstatus _)
  | drop h => exact strokes_dismiss fun item hmem hgone => (h item hmem hgone).1
  | @dropComplete _ keep =>
    refine Relation.ReflTransGen.head (.clear s keep) (strokes_aside ?_)
    exact ⟨List.prefix_append _ _, rfl, rfl, rfl, rfl, rfl, rfl, rfl, rfl, rfl⟩
  | join hmay => exact hmay.elim
  | relimit | automate | close | publish =>
    exact strokes_aside ⟨List.prefix_rfl, rfl, rfl, rfl, rfl, rfl, rfl, rfl, rfl, rfl⟩
  | persist hmay => exact hmay.elim
  | sweep hmay => exact hmay.elim

theorem Touches.strokes (htouches : Touches (Allowed may) s t) : Strokes may s t := by
  induction htouches with
  | refl => exact strokes_refl s
  | tail _ htouch ih => exact ih.trans htouch.strokes

/-- An item with a worker that is not to delete it does not rest. -/
theorem Coherent.awake_of_binding? (h : s.Coherent) {binding : Binding}
    (hbinding : s.binding? id = some binding) (hkept : binding.stop ≠ some .delete) :
    s.Stands (fun status => ¬ status.Rests) id := by
  have hduty : s.duty? id = some binding.duty := by rw [duty?, hbinding]; rfl
  obtain ⟨standing, hstanding, -⟩ := h.fits id _ hduty
  have hlive := h.live_of_duty? hduty hstanding hkept
  exact ⟨standing, hstanding, (h.wanted_of_duty? hduty hstanding hlive).not_rests⟩

theorem strokes_tick (h : s.table.Sound) : Strokes may s s.tick :=
  Touches.strokes (touches_tick h)

theorem Strokes.tick (hstrokes : Strokes may s t) (h : s.table.Sound) : Strokes may s t.tick :=
  hstrokes.trans (strokes_tick (hstrokes.sound h))

theorem strokes_handleMessage (h : s.Coherent) (hdiscard : may .discard) (message : Message)
    (hfail : s.Fails message → may (.fail message.id)) :
    Strokes may s (s.handleMessage message).scheduler := by
  refine Touches.strokes (touches_handleMessage h message fun cause hcause => ?_)
  cases cause with
  | discard => exact hdiscard
  | fail id reason =>
    obtain ⟨hfails, retryable, rfl⟩ := hcause
    exact hfail hfails
  | again | add | save => exact hcause.elim
  | report | hear | lose => trivial

theorem strokes_handleRetry (h : s.Coherent) (hmay : may (.again id)) :
    Strokes may s (s.handleRetry id).scheduler :=
  Touches.strokes (touches_handleRetry h hmay)

theorem strokes_apply (h : s.Coherent) {command : Command}
    (hdiscard : ∀ id, command = .cancel id ∨ command = .delete id → may .discard)
    (hagain : ∀ id, command = .retry id → may (.again id)) :
    Strokes may s (s.apply command).scheduler := by
  refine Touches.strokes (touches_apply h fun cause hcause => ?_)
  cases cause with
  | discard =>
    obtain ⟨id, hcommand⟩ := hcause
    exact hdiscard id hcommand
  | again id => exact hagain id hcause
  | _ => exact hcause.elim

theorem strokes_dropDeleted (s : Scheduler) : Strokes may s s.dropDeleted.2 :=
  Touches.strokes (touches_dropDeleted s)

theorem strokes_restore (hsound : s.table.Sound) (hidle : s.active = []) : Strokes may s s.restore :=
  Touches.strokes (touches_restore hsound hidle)

theorem strokes_beginShutdown (h : s.Coherent) : Strokes may s s.beginShutdown :=
  Touches.strokes (touches_beginShutdown h)

theorem strokes_abandonAll (h : s.Coherent) (hstopping : s.Stopping) : Strokes may s s.abandonAll :=
  Touches.strokes (touches_abandonAll (fun _ => trivial) (fun _ => trivial) h hstopping)

end Scheduler

end DownloadQueue
