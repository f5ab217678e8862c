import DownloadQueue.Proofs.Strokes

/-!
# What the queue tells of its items

Strokes show what is written and changes show what the rules look at; neither shows which events go
with them. Every touch is made of motions, each of which does one thing to the table and tells of
it: an item gets a status that may follow its old one, or leaves the table. What comes into the
table is no motion.
-/

namespace DownloadQueue

def Status.next : Status → List Status
  | .queued => [.downloading, .paused, .deleted, .finished]
  | .downloading => [.queued, .paused, .finished, .failed, .deleted]
  | .paused => [.queued, .deleted, .finished]
  | .failed => [.queued, .deleted]
  | .finished | .alreadyDownloaded => [.deleted]
  | .deleted => []

def Status.Admits (new old : Status) : Prop :=
  old = new ∨ new ∈ old.next

/-- Every item may be deleted. -/
theorem Status.admits_deleted (old : Status) : Status.Admits .deleted old := by
  cases old <;> simp [Admits, next]

/-- A wanted item may be queued, paused, finished or deleted. -/
theorem Status.Wanted.admits {old status : Status} (h : old.Wanted)
    (hstatus : status = .queued ∨ status = .paused ∨ status = .finished ∨ status = .deleted) :
    status.Admits old := by
  rcases h with rfl | rfl | rfl <;> rcases hstatus with rfl | rfl | rfl | rfl <;>
    simp [Status.Admits, Status.next]

namespace Scheduler

/-- One thing that happens to the table, with what is told of it. `completed` holds of the items
whose transfer was heard to be complete, and `lost` of those whose worker may go without a trace. -/
inductive Motion (completed lost : ItemId → Prop) : Scheduler → Scheduler → Prop
  | aside {s t : Scheduler} (htable : t.table = s.table) (hdirty : t.dirty = s.dirty)
      (hevents : t.events = s.events) (hbound : ∀ id, s.duty? id ≠ none → t.duty? id ≠ none) :
      Motion completed lost s t
  | mark (s : Scheduler) : Motion completed lost s s.markDirty
  | note (s : Scheduler) (id : ItemId) {change : Item → Item}
      (h : ∀ item, (change item).standing = item.standing) :
      Motion completed lost s (s.modifyItem id change)
  | tell (s : Scheduler) (event : Event) (hpassing : event.Passing)
      (hknown : ∀ id, event.id? = some id → s.Stands (fun _ => True) id) :
      Motion completed lost s (s.emit event)
  | turn {s : Scheduler} {id : ItemId} {status : Status} (h : s.Stands status.Admits id)
      (hfinished : status = .finished → completed id) :
      Motion completed lost s (s.setStatus id status)
  | leave (s : Scheduler) (keep : Item → Bool) : Motion completed lost s (s.dismiss keep)
  | sweep (s : Scheduler) :
      Motion completed lost s (({ s with dirty := false } : Scheduler).dismiss s.lingers)
  | release {s : Scheduler} {id : ItemId}
      (h : s.dirty = true ∨ lost id ∨ s.Stands (fun status => status ≠ .deleted) id) :
      Motion completed lost s (s.unbind id)

abbrev Motions (completed lost : ItemId → Prop) : Scheduler → Scheduler → Prop :=
  Relation.ReflTransGen (Motion completed lost)

variable {completed lost : ItemId → Prop} {s t u : Scheduler} {id : ItemId} {item : Item}
variable {standing : Standing}

theorem motions_refl (s : Scheduler) : Motions completed lost s s :=
  Relation.ReflTransGen.refl

theorem motions_aside (htable : t.table = s.table) (hdirty : t.dirty = s.dirty)
    (hevents : t.events = s.events) (hduty : ∀ id, t.duty? id = s.duty? id) :
    Motions completed lost s t :=
  .single (.aside htable hdirty hevents fun id hbound => by rwa [hduty])

theorem motions_note (s : Scheduler) (id : ItemId) {change : Item → Item}
    (h : ∀ item, (change item).standing = item.standing) :
    Motions completed lost s (s.modifyItem id change) :=
  .single (.note s id h)

/-- Any other status than that of a finished item needs no worker to have spoken. -/
theorem motions_setStatus {status : Status} (h : s.Stands status.Admits id)
    (hstatus : status ≠ .finished) : Motions completed lost s (s.setStatus id status) :=
  .single (.turn h fun heq => absurd heq hstatus)

theorem motions_stopTransfer (s : Scheduler) (id : ItemId) (reason : StopReason) :
    Motions completed lost s (s.stopTransfer id reason) := by
  refine .single (.aside rfl rfl rfl fun other hbound => ?_)
  rw [duty?_stopTransfer]
  split
  · next heq =>
    subst heq
    rwa [ne_eq, Option.map_eq_none_iff]
  · exact hbound

/-- Of a file that is thrown away nobody is told. -/
theorem motions_discardPartial (s : Scheduler) (id : ItemId) :
    Motions completed lost s (s.discardPartial id) := by
  rw [discardPartial]
  split
  · exact motions_refl s
  · next item hget =>
    have hremoved : Motions completed lost s
        { s with
          files := (s.files.removePartial item.destination).toOption.getD s.files
          removals := s.removals ++ [{ destination := item.destination, held := s.held }] } :=
      motions_aside rfl rfl rfl fun _ => rfl
    refine Relation.ReflTransGen.tail (hremoved.trans ?_) (.mark _)
    exact motions_note _ id fun _ => rfl

theorem motions_cancelTimer (s : Scheduler) (id : ItemId) :
    Motions completed lost s (s.cancelTimer id) := by
  rw [cancelTimer]
  split
  · exact motions_refl s
  · exact motions_aside rfl rfl rfl fun _ => rfl

theorem Motion.sound (hmotion : Motion completed lost s t) (h : s.table.Sound) : t.table.Sound := by
  cases hmotion with
  | aside htable => exact htable ▸ h
  | mark => exact h
  | @note id change hstanding =>
    have halike := alike_modifyItem s id change hstanding
    exact h.of_ids halike.ids halike.nextId
  | tell => exact h
  | turn => exact sound_setStatus h _ _
  | leave keep => exact h.filter keep
  | sweep => exact h.filter s.lingers
  | release => exact h

/-- Only a queued item gets a worker, so it goes from queued to downloading. -/
theorem motions_startTransfer (h : s.Stands (fun status => status = .queued) id) :
    Motions completed lost s (s.startTransfer id) := by
  obtain ⟨standing, hstanding, hqueued⟩ := h
  obtain ⟨item, hget, rfl⟩ := get?_of_standing? hstanding
  rw [startTransfer_eq hget]
  refine Relation.ReflTransGen.trans ?_ (motions_setStatus ?_ (by simp))
  · refine .single (.aside rfl rfl rfl fun other hbound => ?_)
    rw [duty?_eq_find?, duties, List.map_append, List.find?_append]
    rw [duty?_eq_find?] at hbound
    exact fun hnone => hbound (Option.or_eq_none_iff.mp hnone).1
  · refine ⟨item.standing, hstanding, ?_⟩
    rw [hqueued]
    exact .inr (by decide)

/-- The mark is set in time for the worker of a deleted item to go. -/
theorem motions_discardPartial_unbind (hstands : s.Stands (fun _ => True) id) :
    Motions completed lost s ((s.unbind id).discardPartial id) := by
  obtain ⟨standing, hstanding, -⟩ := hstands
  obtain ⟨item, hget, -⟩ := get?_of_standing? hstanding
  have hmark : Motion completed lost s s.markDirty := .mark s
  have hrelease : Motion completed lost s.markDirty (s.markDirty.unbind id) := .release (.inl rfl)
  have hremove : Motions completed lost (s.markDirty.unbind id)
      ((s.markDirty.unbind id).discardPartial id) := motions_discardPartial _ id
  have hsame : (s.markDirty.unbind id).discardPartial id = (s.unbind id).discardPartial id := by
    have hmarked : (s.markDirty.unbind id).table.get? id = some item := hget
    have hunmarked : (s.unbind id).table.get? id = some item := hget
    rw [discardPartial, discardPartial, hmarked, hunmarked]
    rfl
  exact hsame ▸ ((Relation.ReflTransGen.single hmark).tail hrelease).trans hremove

theorem motions_unbind (hstanding : s.standing? id = some standing)
    (hwanted : standing.status.Wanted) : Motions completed lost s (s.unbind id) :=
  .single (.release (.inr (.inr ⟨standing, hstanding, hwanted.ne_deleted⟩)))

def Told (completed lost : ItemId → Prop) : Cause → Prop
  | .hear id ending => ending = .completed → completed id
  | .lose id => lost id
  | .add => False
  | _ => True

/-- Every touch comes to motions; this is where the rules of the statuses are looked up. -/
theorem Touch.motions (htouch : Touch (Told completed lost) s t) : Motions completed lost s t := by
  cases htouch with
  | mark => exact .single (.mark s)
  | tell _ event hpassing hknown => exact .single (.tell s event hpassing hknown)
  | measure _ hrecord =>
    have hstanding (item : Item) := congrArg Item.standing (hrecord item)
    exact .single (.note s _ hstanding)
  | rebind _ _ hduty => exact motions_aside rfl rfl rfl (alike_rebind s _ _ hduty).duty?
  | engage hget hqueued => exact motions_startTransfer (stands_of_get? hget hqueued)
  | stop _ hstanding hwanted hsuits =>
    refine (motions_stopTransfer s _ _).trans (motions_setStatus ⟨_, hstanding, ?_⟩ ?_)
    · exact hwanted.admits (hsuits.1.imp_right (Or.imp_right .inr))
    · rcases hsuits.1 with rfl | rfl | rfl <;> simp
  | restop => exact motions_stopTransfer s _ _
  | turn hstanding hwanted hstatus =>
    refine motions_setStatus ⟨_, hstanding, hwanted.admits (hstatus.imp_right .inl)⟩ ?_
    rcases hstatus with rfl | rfl <;> simp
  | delete hstanding =>
    exact motions_setStatus ⟨_, hstanding, Status.admits_deleted _⟩ (by simp)
  | discard => exact motions_discardPartial s _
  | @finish _ id _ _ _ hheard _ hstanding hwanted =>
    have hfinished : (s.unbind id).Stands (Status.Admits .finished) id :=
      ⟨_, hstanding, hwanted.admits (.inr (.inr (.inl rfl)))⟩
    -- the status is set last, so that is where it counts that the completion was heard
    rw [Scheduler.finish]
    refine Relation.ReflTransGen.tail ((motions_unbind hstanding hwanted).trans ?_)
      (.turn ?_ fun _ => hheard rfl)
    · exact motions_note _ id fun _ => rfl
    · exact hfinished.modifyItem id fun _ => rfl
  | yield _ _ _ hstanding hrunning =>
    have hwanted : Status.Wanted _ := .inr (.inl hrunning)
    refine (motions_unbind hstanding hwanted).trans (motions_setStatus ⟨_, hstanding, ?_⟩ (by simp))
    exact hwanted.admits (.inl rfl)
  | @fail _ id _ item _ _ _ _ _ _ hget hrunning =>
    have hstanding := standing?_of_get? hget
    have hadmits : Status.Admits .failed item.standing.status := by
      rw [Item.standing_status, hrunning]
      exact .inr (by decide)
    refine Relation.ReflTransGen.tail ((motions_unbind hstanding (.inr (.inl hrunning))).trans ?_)
      (.note _ id fun _ => rfl)
    exact motions_setStatus ⟨_, hstanding, hadmits⟩ (by simp)
  | wait => exact (motions_cancelTimer s _).trans (motions_aside rfl rfl rfl fun _ => rfl)
  | leave _ _ _ hmarked => exact .single (.release hmarked)
  | clear _ _ _ _ _ hstanding => exact motions_discardPartial_unbind ⟨_, hstanding, trivial⟩
  | halt => exact motions_cancelTimer s _
  | haltAll => exact motions_aside rfl rfl rfl fun _ => rfl
  | forget => exact motions_aside rfl rfl rfl fun _ => rfl
  | @again _ id item _ _ hget hstatus =>
    have hqueued : s.Stands (Status.Admits .queued) id :=
      stands_of_get? hget (hstatus ▸ .inr (by decide))
    refine Relation.ReflTransGen.trans ?_ (motions_setStatus ?_ (by simp))
    · exact motions_note s id fun _ => rfl
    · exact hqueued.modifyItem id fun _ => rfl
  | drop => exact .single (.leave s _)
  | dropComplete => exact Relation.ReflTransGen.head (.leave s _) (.single (.mark _))
  | join hmay => exact hmay.elim
  | relimit | automate | close | publish | persist => exact motions_aside rfl rfl rfl fun _ => rfl
  | sweep => exact .single (.sweep s)

theorem Touches.motions (htouches : Touches (Told completed lost) s t) :
    Motions completed lost s t := by
  induction htouches with
  | refl => exact motions_refl s
  | tail _ htouch ih => exact ih.trans htouch.motions

theorem motions_tick (h : s.table.Sound) : Motions completed lost s s.tick :=
  Touches.motions (touches_tick h)

/-- A message completes its own item only. -/
theorem motions_handleMessage (h : s.Coherent) (message : Message)
    (hcompleted : message.report = .ended .completed → completed message.id)
    (hlost : s.outruns message = true → lost message.id) :
    Motions completed lost s (s.handleMessage message).scheduler := by
  refine Touches.motions (touches_handleMessage h message fun cause hcause => ?_)
  cases cause with
  | hear id ending =>
    obtain rfl : message = ⟨id, .ended ending⟩ := hcause
    rintro rfl
    exact hcompleted rfl
  | lose id =>
    obtain ⟨houtruns, rfl⟩ := hcause
    exact hlost houtruns
  | add => exact hcause.elim
  | _ => trivial

theorem motions_handleRetry (h : s.Coherent) (id : ItemId) :
    Motions completed lost s (s.handleRetry id).scheduler :=
  Touches.motions (touches_handleRetry h trivial)

theorem motions_dispatch (h : s.Coherent) (command : Command) (ended : List ItemId) :
    Motions completed lost s (s.dispatch command ended).scheduler := by
  rw [scheduler_dispatch]
  refine Touches.motions (touches_apply h fun cause hcause => ?_)
  cases cause with
  | discard | again => trivial
  | _ => exact hcause.elim

theorem motions_commit (s : Scheduler) : Motions completed lost s s.commit.scheduler :=
  Touches.motions (touches_commit trivial s)

theorem motions_restore (hsound : s.table.Sound) (hidle : s.active = []) :
    Motions completed lost s s.restore :=
  Touches.motions (touches_restore hsound hidle)

def awaited (s : Scheduler) : List Message → List Message
  | [] => []
  | message :: messages =>
    if s.active.isEmpty then []
    else
      let step := { s with inbox := messages }.handleMessage message
      message :: if step.result.isOk then step.scheduler.awaited messages else []

/-- While the shutdown waits, only what is heard is complete. -/
theorem motions_awaitWorkers (h : s.Coherent) (messages : List Message)
    (hcompleted : ∀ id, ⟨id, .ended .completed⟩ ∈ s.awaited messages → completed id)
    (hlost : ∀ id, lost id) : Motions completed lost s (s.awaitWorkers messages).scheduler := by
  induction messages generalizing s with
  | nil => exact motions_aside rfl rfl rfl fun _ => rfl
  | cons message messages ih =>
    rw [awaited] at hcompleted
    rw [awaitWorkers]
    split
    · exact motions_aside rfl rfl rfl fun _ => rfl
    · next hbusy =>
      rw [if_neg hbusy] at hcompleted
      have htaken : Motions completed lost s { s with inbox := messages } :=
        motions_aside rfl rfl rfl fun _ => rfl
      have hcoherent : ({ s with inbox := messages } : Scheduler).Coherent :=
        ⟨h.sound, h.nodup, h.fits⟩
      have hhandled : Motions completed lost s
          ({ s with inbox := messages }.handleMessage message).scheduler := by
        refine htaken.trans (motions_handleMessage hcoherent message ?_ fun _ => hlost _)
        intro hreport
        refine hcompleted message.id (List.mem_cons.mpr (.inl ?_))
        rw [← hreport]
      have hchain : Chain (fun _ _ => True) { s with inbox := messages } _ :=
        chain_handleMessage hcoherent message fun _ _ => trivial
      refine reach_andThen hhandled fun value hvalue =>
        ih (hchain.coherent hcoherent) fun id hmem => ?_
      refine hcompleted id (List.mem_cons_of_mem _ ?_)
      rwa [hvalue]

/-- A whole shutdown; workers that are given up on may go without a trace. -/
theorem motions_shutdown (h : s.Coherent)
    (hcompleted : ∀ id, ⟨id, .ended .completed⟩ ∈ s.beginShutdown.awaited s.beginShutdown.inbox →
      completed id)
    (hlost : ∀ id, lost id) : Motions completed lost s s.shutdown.scheduler := by
  have hbegin : Touches (Told completed lost) s s.beginShutdown := touches_beginShutdown h
  have hbegun := hbegin.coherent h
  have hawait : Motions completed lost s.beginShutdown s.beginShutdown.takeFinalMessages.scheduler :=
    motions_awaitWorkers hbegun _ hcompleted hlost
  have htrail : Trail (fun _ _ => True) s.beginShutdown
      s.beginShutdown.takeFinalMessages.scheduler := trail_awaitWorkers (fun _ _ => trivial) hbegun _
  have hstopping := htrail.stopping (stopping_beginShutdown s)
  have habandon : Touches (Told completed lost) s.beginShutdown.takeFinalMessages.scheduler
      s.beginShutdown.takeFinalMessages.scheduler.abandonAll :=
    touches_abandonAll (by rintro _ ⟨⟩) hlost (htrail.coherent hbegun) hstopping
  rw [shutdown, endShutdown]
  refine hbegin.motions.trans (reach_andThen hawait fun _ _ => Touches.motions ?_)
  exact habandon.trans (touches_concludeShutdown trivial _)

end Scheduler

end DownloadQueue
