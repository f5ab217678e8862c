import DownloadQueue.Proofs.Chronicle
import DownloadQueue.Proofs.Closing
import DownloadQueue.Proofs.Retries

/-!
# What goes into the books

The books of the queue say of every item why it failed, how often it was tried again, how far its
transfer has come and whether a timer is set for it. Every touch is made of postings, each of which
makes one entry and names its grounds: progress is written for an item whose worker is heard or that
has none, an error is written for a failure that a worker told of, and a timer is set for a failed
item.
-/

namespace DownloadQueue

namespace Scheduler

variable {own : ItemId → Prop} {tells : ItemId → String → Prop} {s t : Scheduler} {id : ItemId}
variable {item : Item} {status : Status}

def holder? (s : Scheduler) (id : ItemId) : Option Nat :=
  (s.duty? id).map Duty.seq

theorem holder?_stopTransfer (s : Scheduler) (id : ItemId) (reason : StopReason) (other : ItemId) :
    (s.stopTransfer id reason).holder? other = s.holder? other := by
  rw [holder?, holder?, duty?_stopTransfer]
  split
  · next heq =>
    rw [heq, Option.map_map]
    rfl
  · rfl

/-- One entry in the books. `own` holds of the items whose workers are heard, and `tells` of the
failures that they tell of. -/
inductive Posting (own : ItemId → Prop) (tells : ItemId → String → Prop) :
    Scheduler → Scheduler → Prop
  | aside {s t : Scheduler} (htable : t.table = s.table) (hconfig : t.config = s.config)
      (hpending : t.pending.Sublist s.pending)
      (hturns : ∀ id, turns id t.events = turns id s.events)
      (hsnapshots : ∀ snapshot ∈ t.snapshots, snapshot ∈ s.snapshots ∨ s.snapshot = .ok snapshot)
      (hheld : ∀ id, s.duty? id ≠ none → t.holder? id = s.holder? id) : Posting own tells s t
  | release {id : ItemId} (hown : own id) (s : Scheduler) : Posting own tells s (s.unbind id)
  | measure {s : Scheduler} {id : ItemId} (hown : own id ∨ s.duty? id = none)
      {change : Item → Item} (h : ∀ item, (change item).record = item.record) :
      Posting own tells s (s.modifyItem id change)
  | turn {s : Scheduler} {id : ItemId} {status : Status}
      (h : s.Stands (fun old => old ≠ .failed ∨ status = .deleted ∧ s.pendingSerial? id = none) id)
      (hstatus : status ≠ .failed) : Posting own tells s (s.setStatus id status)
  | leave {s : Scheduler} {keep : Item → Bool}
      (h : ∀ item ∈ s.table.items, keep item = false →
        item.status ≠ .failed ∧ s.duty? item.id = none) :
      Posting own tells s { s with table := (s.table.retain keep).2 }
  | join {s : Scheduler} {item : Item} {next : UInt64}
      (hnext : Counter.next64 s.table.nextId = .ok next) (hid : item.id = ⟨s.table.nextId⟩)
      (hstatus : item.status ≠ .failed) (hattempts : item.attempts = 0)
      (herror : item.lastError = none) :
      Posting own tells s { s with table := ⟨s.table.items ++ [item], next⟩ }
  | fail {s : Scheduler} {id : ItemId} {reason : String} (htells : tells id reason) {item : Item}
      (hget : s.table.get? id = some item) (hstatus : item.status ≠ .failed) :
      Posting own tells s
        ((s.setStatus id .failed).modifyItem id fun item => { item with lastError := some reason })
  | wait {s : Scheduler} {timer : Timer} (hfailed : s.Stands (fun status => status = .failed) timer.id)
      (hnone : s.pendingSerial? timer.id = none) (hpolicy : s.config.retry.policy = .automatic) :
      Posting own tells s (s.setTimer timer)
  | again {s : Scheduler} {id : ItemId} {item : Item} {attempts : UInt32}
      (hget : s.table.get? id = some item) (hstatus : item.status = .failed)
      (hnone : s.pendingSerial? id = none) (hattempts : Counter.next32 item.attempts = .ok attempts) :
      Posting own tells s
        ((s.modifyItem id fun item => { item with attempts }).setStatus id .queued)

abbrev Postings (own : ItemId → Prop) (tells : ItemId → String → Prop) :
    Scheduler → Scheduler → Prop :=
  Relation.ReflTransGen (Posting own tells)

theorem postings_refl (s : Scheduler) : Postings own tells s s :=
  Relation.ReflTransGen.refl

theorem postings_aside (htable : t.table = s.table) (hconfig : t.config = s.config)
    (hpending : t.pending.Sublist s.pending) (hevents : t.events = s.events)
    (hsnapshots : t.snapshots = s.snapshots) (hduty : ∀ id, t.duty? id = s.duty? id) :
    Postings own tells s t := by
  refine .single (.aside htable hconfig hpending (fun id => by rw [hevents]) ?_ ?_)
  · exact fun snapshot hmem => .inl (hsnapshots ▸ hmem)
  · intro id _
    rw [holder?, hduty]
    rfl

theorem postings_tell (s : Scheduler) {event : Event} (h : ∀ id, event.turn? id = none) :
    Postings own tells s (s.emit event) := by
  refine .single (.aside rfl rfl (List.Sublist.refl _) (fun id => ?_) (fun _ => .inl) fun _ _ => rfl)
  refine turns_append_of_none s.events fun told hmem => ?_
  rw [List.mem_singleton.mp hmem]
  exact h id

theorem postings_markDirty (s : Scheduler) : Postings own tells s s.markDirty :=
  postings_aside rfl rfl (List.Sublist.refl _) rfl rfl fun _ => rfl

theorem postings_stopTransfer (s : Scheduler) (id : ItemId) (reason : StopReason) :
    Postings own tells s (s.stopTransfer id reason) :=
  .single (.aside rfl rfl (List.Sublist.refl _) (fun _ => rfl) (fun _ => .inl)
    fun other _ => holder?_stopTransfer s id reason other)

theorem postings_cancelTimer (s : Scheduler) (id : ItemId) :
    Postings own tells s (s.cancelTimer id) := by
  rw [cancelTimer]
  split
  · exact postings_refl s
  · exact postings_aside rfl rfl List.filter_sublist rfl rfl fun _ => rfl

/-- An item that did not fail gets another status than that of a failed one. -/
theorem postings_setStatus (h : s.Stands (fun old => old ≠ .failed) id) (hstatus : status ≠ .failed) :
    Postings own tells s (s.setStatus id status) :=
  .single (.turn (h.mono fun _ => .inl) hstatus)

theorem postings_discardPartial (hown : own id ∨ s.duty? id = none) :
    Postings own tells s (s.discardPartial id) := by
  rw [discardPartial]
  split
  · exact postings_refl s
  · next item _ =>
    have hremoved : Postings own tells s
        { s with
          files := (s.files.removePartial item.destination).toOption.getD s.files
          removals := s.removals ++ [{ destination := item.destination, held := s.held }] } :=
      postings_aside rfl rfl (List.Sublist.refl _) rfl rfl fun _ => rfl
    refine Relation.ReflTransGen.trans (hremoved.tail ?_) (postings_markDirty _)
    exact .measure (by exact hown) fun _ => rfl

/-- No posting gives a number away again. -/
theorem Posting.sound (hposting : Posting own tells s t) (h : s.table.Sound) : t.table.Sound := by
  cases hposting with
  | aside htable => exact htable ▸ h
  | release => exact h
  | measure _ hrecord =>
    have hid (item : Item) := congrArg Item.id (hrecord item)
    exact h.of_ids (Table.ids_modify _ _ _ hid) rfl
  | turn => exact sound_setStatus h _ _
  | leave => exact h.filter _
  | join hnext hid => exact h.append hnext hid
  | fail =>
    refine (sound_setStatus h _ .failed).of_ids ?_ rfl
    exact Table.ids_modify _ _ _ fun _ => rfl
  | wait => exact h
  | again =>
    apply sound_setStatus
    refine h.of_ids ?_ rfl
    exact Table.ids_modify _ _ _ fun _ => rfl

theorem Postings.sound (hpostings : Postings own tells s t) (h : s.table.Sound) : t.table.Sound := by
  induction hpostings with
  | refl => exact h
  | tail _ hposting ih => exact hposting.sound ih

theorem postings_startTransfer (hget : s.table.get? id = some item)
    (hqueued : item.status = .queued) : Postings own tells s (s.startTransfer id) := by
  rw [startTransfer_eq hget]
  refine Relation.ReflTransGen.head ?_ (postings_setStatus ?_ (by simp))
  · refine .aside rfl rfl (List.Sublist.refl _) (fun _ => rfl) (fun _ => .inl) fun other hbound => ?_
    rw [holder?, duty?_eq_find?, duties, List.map_append, List.find?_append]
    obtain ⟨duty, hduty⟩ := Option.ne_none_iff_exists'.mp hbound
    rw [holder?, hduty]
    rw [duty?_eq_find?, duties] at hduty
    rw [hduty]
    rfl
  · exact stands_of_get? hget (by simp [hqueued])

theorem postings_scheduleRetry (hfailed : s.Stands (fun status => status = .failed) id)
    (hpolicy : s.config.retry.policy = .automatic) (delay : Duration) :
    Postings own tells s (s.scheduleRetry id delay) := by
  rw [scheduleRetry_eq]
  refine (postings_cancelTimer s id).tail (.wait ?_ (pendingSerial?_cancelTimer_self s id) ?_)
  · exact hfailed.of_standing? ((alike_cancelTimer s id).standing? id)
  · rwa [(kept_cancelTimer s id).1]

/-- Items that did not fail and have no worker leave the table. -/
theorem postings_dismiss {keep : Item → Bool}
    (h : ∀ item ∈ s.table.items, keep item = false → item.status ≠ .failed ∧ s.duty? item.id = none) :
    Postings own tells s (s.dismiss keep) := by
  refine Relation.ReflTransGen.head (.leave h) (.single ?_)
  refine .aside rfl rfl (List.Sublist.refl _) (fun id => ?_) (fun _ => .inl) fun _ _ => rfl
  refine turns_append_of_none s.events fun event hmem => ?_
  obtain ⟨item, -, rfl⟩ := List.mem_map.mp hmem
  rfl

theorem postings_drop {keep : Item → Bool}
    (h : ∀ item ∈ s.table.items, keep item = false →
      item.status = .deleted ∧ s.duty? item.id = none) : Postings own tells s (s.dismiss keep) :=
  postings_dismiss fun item hmem hgone =>
    (h item hmem hgone).imp_left fun hdeleted => by simp [hdeleted]

def Vouched (own : ItemId → Prop) (tells : ItemId → String → Prop) : Cause → Prop
  | .report id | .hear id _ => own id
  | .fail id reason => tells id reason
  | _ => True

/-- Every touch comes to postings, each of them for a worker of its own. -/
theorem Touch.postings (htouch : Touch (Vouched own tells) s t) : Postings own tells s t := by
  -- most touches change nothing that is in the books
  have hquiet {u : Scheduler} (htable : u.table = s.table) (hconfig : u.config = s.config)
      (hpending : u.pending.Sublist s.pending) (hevents : u.events = s.events)
      (hsnapshots : u.snapshots = s.snapshots) (hactive : u.active = s.active) :
      Postings own tells s u :=
    postings_aside htable hconfig hpending hevents hsnapshots fun id => by
      rw [duty?, binding?, hactive]
      rfl
  cases htouch with
  | mark => exact postings_markDirty s
  | tell _ event hpassing => exact postings_tell s hpassing.turn?
  | measure hown hrecord => exact .single (.measure hown hrecord)
  | rebind _ _ hduty =>
    exact postings_aside rfl rfl (List.Sublist.refl _) rfl rfl (alike_rebind s _ _ hduty).duty?
  | engage hget hqueued => exact postings_startTransfer hget hqueued
  | stop _ hstanding hwanted hsuits =>
    refine (postings_stopTransfer s _ _).trans (postings_setStatus ⟨_, hstanding, hwanted.ne_failed⟩ ?_)
    rcases hsuits.1 with rfl | rfl | rfl <;> simp
  | restop => exact postings_stopTransfer s _ _
  | turn hstanding hwanted hstatus =>
    refine postings_setStatus ⟨_, hstanding, hwanted.ne_failed⟩ ?_
    rcases hstatus with rfl | rfl <;> simp
  | delete hstanding _ _ hnone =>
    exact .single (.turn ⟨_, hstanding, .inr ⟨rfl, hnone⟩⟩ (by simp))
  | discard _ _ hfree => exact postings_discardPartial (.inr hfree)
  | @finish _ id _ standing _ hown _ hstanding hwanted =>
    have hawake : (s.unbind id).Stands (fun old => old ≠ .failed) id :=
      ⟨standing, hstanding, hwanted.ne_failed⟩
    -- the worker leaves first, so nobody is bound while the size and the status are set
    rw [Scheduler.finish]
    refine Relation.ReflTransGen.head (.release hown s)
      (Relation.ReflTransGen.trans ?_ (postings_setStatus ?_ (by simp)))
    · exact .single (.measure (.inl hown) fun _ => rfl)
    · exact hawake.modifyItem id fun _ => rfl
  | yield _ hown _ hstanding hrunning =>
    refine Relation.ReflTransGen.head (.release hown s) (postings_setStatus ?_ (by simp))
    exact ⟨_, hstanding, by simp [hrunning]⟩
  | @fail _ id _ item _ _ _ hown htells _ hget hrunning =>
    have hfound : (s.unbind id).table.get? id = some item := hget
    exact Relation.ReflTransGen.head (.release hown s)
      (.single (.fail htells hfound (by simp [hrunning])))
  | wait _ hfailed hpolicy delay => exact postings_scheduleRetry hfailed hpolicy delay
  | leave _ hown => exact .single (.release hown s)
  | clear _ hown =>
    exact Relation.ReflTransGen.head (.release hown s) (postings_discardPartial (.inl hown))
  | halt => exact postings_cancelTimer s _
  | haltAll => exact hquiet rfl rfl (List.nil_sublist _) rfl rfl rfl
  | forget => exact hquiet rfl rfl List.filter_sublist rfl rfl rfl
  | again _ hget hstatus _ hnone hattempts =>
    exact .single (.again hget hstatus hnone hattempts)
  | drop h => exact postings_drop h
  | dropComplete h =>
    refine (postings_dismiss fun item hmem hgone => ?_).trans (postings_markDirty _)
    refine (h item hmem hgone).imp_left fun hcomplete hfailed => ?_
    rw [hfailed] at hcomplete
    cases hcomplete
  | join _ hnext hid _ _ hstatus hattempts herror =>
    refine Relation.ReflTransGen.head (.join hnext hid ?_ hattempts herror) (postings_tell _ fun _ => rfl)
    intro hfailed
    rw [hfailed] at hstatus
    rcases hstatus with ⟨hqueued, -⟩ | hcomplete
    · cases hqueued
    · cases hcomplete
  | relimit | automate | close | persist => exact hquiet rfl rfl (List.Sublist.refl _) rfl rfl rfl
  | publish hsnapshot =>
    refine .single (.aside rfl rfl (List.Sublist.refl _) (fun _ => rfl) ?_ fun _ _ => rfl)
    intro published hmem
    rcases List.mem_append.mp hmem with hold | hnew
    · exact .inl hold
    · exact .inr (List.mem_singleton.mp hnew ▸ hsnapshot)
  | sweep =>
    have hclean : Postings own tells s { s with dirty := false } :=
      hquiet rfl rfl (List.Sublist.refl _) rfl rfl rfl
    exact hclean.trans (postings_drop fun _ _ hgone => of_lingers_eq_false hgone)

theorem Touches.postings (htouches : Touches (Vouched own tells) s t) : Postings own tells s t := by
  induction htouches with
  | refl => exact postings_refl s
  | tail _ htouch ih => exact ih.trans htouch.postings

/-- A message posts to the account of its own item. -/
theorem postings_handleMessage (h : s.Coherent) {message : Message} (hown : own message.id)
    (htells : ∀ reason retryable, s.Fails message →
      message.report = .ended (.failed reason retryable) → tells message.id reason) :
    Postings own tells s (s.handleMessage message).scheduler := by
  refine Touches.postings (touches_handleMessage h message fun cause hcause => ?_)
  cases cause with
  | report id =>
    obtain ⟨progress, rfl⟩ := hcause
    exact hown
  | hear id ending =>
    obtain rfl : message = ⟨id, .ended ending⟩ := hcause
    exact hown
  | fail id reason =>
    obtain ⟨hfails, retryable, rfl⟩ := hcause
    exact htells reason retryable hfails rfl
  | _ => trivial

theorem postings_operate (h : s.Coherent) (operation : Operation) :
    Postings own tells s (s.operate operation) := by
  refine Touches.postings (touches_operate h fun cause hcause => ?_)
  cases cause with
  | report | hear | fail => cases operation <;> cases hcause
  | _ => trivial

theorem postings_restore (hsound : s.table.Sound) (hidle : s.active = []) :
    Postings own tells s s.restore :=
  Touches.postings (touches_restore hsound hidle)

theorem postings_beginShutdown (h : s.Coherent) : Postings own tells s s.beginShutdown :=
  Touches.postings (touches_beginShutdown h)

/-- Messages that are handled while every worker knows of the shutdown tell of no failure. -/
theorem postings_awaitWorkers (hown : ∀ id, own id) (h : s.Coherent) (hstopping : s.Stopping)
    (messages : List Message) : Postings own tells s (s.awaitWorkers messages).scheduler := by
  have hinbox (s : Scheduler) (inbox : List Message) : Postings own tells s { s with inbox } :=
    postings_aside rfl rfl (List.Sublist.refl _) rfl rfl fun _ => rfl
  induction messages generalizing s with
  | nil => exact hinbox s []
  | cons message messages ih =>
    rw [awaitWorkers]
    split
    · exact hinbox s _
    · have hcoherent : ({ s with inbox := messages } : Scheduler).Coherent :=
        ⟨h.sound, h.nodup, h.fits⟩
      have htold : ({ s with inbox := messages } : Scheduler).Stopping :=
        ⟨hstopping.closed, hstopping.told⟩
      have hhandled := (hinbox s messages).trans (postings_handleMessage hcoherent (hown message.id)
        fun reason retryable hfails _ => absurd hfails (htold.not_fails message))
      have hchain : Chain (fun _ _ => True) { s with inbox := messages } _ :=
        chain_handleMessage hcoherent message fun _ _ => trivial
      exact reach_andThen hhandled fun _ _ =>
        ih (hchain.coherent hcoherent) (hchain.trail.stopping htold)

theorem postings_abandon (hown : own id) (s : Scheduler) : Postings own tells s (s.abandon id) := by
  refine Relation.ReflTransGen.head (.release hown s) (Touches.postings (touches_reconcile ?_))
  rw [duty?_unbind, if_pos rfl]

/-- A shutdown counts no failure and tries nothing again. -/
theorem postings_shutdown (hown : ∀ id, own id) (h : s.Coherent) :
    Postings own tells s s.shutdown.scheduler := by
  have hbegin : Touches (Vouched own tells) s s.beginShutdown := touches_beginShutdown h
  have hbegun := hbegin.coherent h
  have htold := stopping_beginShutdown s
  have hawait : Postings own tells s.beginShutdown s.beginShutdown.takeFinalMessages.scheduler :=
    postings_awaitWorkers hown hbegun htold _
  have htrail : Trail (fun _ _ => True) s.beginShutdown
      s.beginShutdown.takeFinalMessages.scheduler := trail_awaitWorkers (fun _ _ => trivial) hbegun _
  have habandon : Touches (Vouched own tells) s.beginShutdown.takeFinalMessages.scheduler
      s.beginShutdown.takeFinalMessages.scheduler.abandonAll :=
    touches_abandonAll hown (fun _ => trivial) (htrail.coherent hbegun) (htrail.stopping htold)
  rw [shutdown, endShutdown]
  refine hbegin.postings.trans (reach_andThen hawait fun _ _ => Touches.postings ?_)
  exact habandon.trans (touches_concludeShutdown trivial _)

end Scheduler

end DownloadQueue
