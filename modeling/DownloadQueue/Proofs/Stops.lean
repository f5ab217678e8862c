import DownloadQueue.Proofs.Closing

/-!
# The strongest stop wins

A worker that is stopping may be told so again, for another reason, and the status of its item moves
on its own. Stops have a strength. Of all that were asked for while the worker was bound the
strongest decides what its ending leaves, in whatever order they came and whatever the status of the
item is by then.
-/

namespace DownloadQueue

/-- How much a stop takes away: nothing, the bytes that have come in, or the item as well. -/
def StopReason.strength : StopReason → Nat
  | pause | requeue | shutdown => 1
  | cancel => 2
  | delete => 3

theorem StopReason.strength_pos (reason : StopReason) : 0 < reason.strength := by
  cases reason <;> decide

theorem StopReason.discardsPartial_iff {reason : StopReason} :
    reason.discardsPartial = true ↔ 2 ≤ reason.strength := by
  cases reason <;> decide

theorem StopReason.eq_delete_iff {reason : StopReason} :
    reason = .delete ↔ 3 ≤ reason.strength := by
  cases reason <;> decide

def Discarding (stops : List StopReason) : Prop :=
  .cancel ∈ stops ∨ .delete ∈ stops

theorem discarding_iff {stops : List StopReason} :
    Discarding stops ↔ ∃ stop ∈ stops, stop.discardsPartial = true := by
  have hdiscards (stop : StopReason) :
      stop.discardsPartial = true ↔ stop = .cancel ∨ stop = .delete := by
    cases stop <;> decide
  simp only [hdiscards, and_or_left, exists_or, exists_eq_right, Discarding]

theorem not_discarding_iff {stops : List StopReason} :
    ¬ Discarding stops ↔ ∀ stop ∈ stops, stop.discardsPartial = false := by
  rw [discarding_iff]
  simp

def strongest (stops : List StopReason) : Nat :=
  (stops.map StopReason.strength).foldr max 0

theorem strongest_cons (stop : StopReason) (stops : List StopReason) :
    strongest (stop :: stops) = max stop.strength (strongest stops) :=
  rfl

theorem strongest_append (stops others : List StopReason) :
    strongest (stops ++ others) = max (strongest stops) (strongest others) := by
  induction stops with
  | nil => exact (Nat.zero_max _).symm
  | cons stop stops ih => rw [List.cons_append, strongest_cons, strongest_cons, ih, Nat.max_assoc]

theorem le_strongest_iff {n : Nat} (hpos : 0 < n) (stops : List StopReason) :
    n ≤ strongest stops ↔ ∃ stop ∈ stops, n ≤ stop.strength := by
  induction stops with
  | nil => simpa [strongest] using Nat.ne_of_gt hpos
  | cons stop stops ih =>
    rw [strongest_cons, List.exists_mem_cons_iff, ← ih]
    omega

/-- A stop on top of another one is as strong as the stronger of the two. -/
theorem strength_merge (pending : Option StopReason) (reason : StopReason) :
    (StopReason.merge pending reason).strength =
      max (strongest pending.toList) (strongest [reason]) := by
  cases pending with
  | none => cases reason <;> rfl
  | some first => cases first <;> cases reason <;> rfl

def Duty.pending (duty : Duty) : Nat :=
  strongest duty.stop.toList

theorem Duty.pending_stopped (reason : StopReason) (duty : Duty) :
    (duty.stopped reason).pending = max duty.pending (strongest [reason]) := by
  rw [pending, stopped, Option.toList_some]
  change max _ 0 = _
  rw [Nat.max_zero, strength_merge]
  rfl

/-- Nothing was asked for in addition. -/
theorem Duty.pending_max_nil (duty : Duty) : duty.pending = max duty.pending (strongest []) :=
  (Nat.max_zero _).symm

namespace Scheduler

variable {s t u : Scheduler} {id other : ItemId} {duty : Duty}

def Keeps (id : ItemId) (s t : Scheduler) : Prop :=
  ∀ duty, s.duty? id = some duty → t.duty? id = some duty

theorem Keeps.refl (id : ItemId) (s : Scheduler) : Keeps id s s :=
  fun _ hduty => hduty

theorem Keeps.trans (h : Keeps id s t) (h' : Keeps id t u) : Keeps id s u :=
  fun duty hduty => h' duty (h duty hduty)

theorem Keeps.of_duty? (h : t.duty? id = s.duty? id) : Keeps id s t :=
  fun _ hduty => h.trans hduty

theorem Keeps.of_duties (h : t.duties = s.duties) : Keeps id s t :=
  .of_duty? (by rw [duty?_eq_find?, duty?_eq_find?, h])

theorem Alike.keeps (h : Alike s t) : Keeps id s t :=
  .of_duties h.duties

theorem Keeps.andThen {α β : Type} {step : Step α} {next : Scheduler → α → Step β}
    (h : Keeps id s step.scheduler)
    (hnext : ∀ value, Keeps id step.scheduler (next step.scheduler value).scheduler) :
    Keeps id s (step.andThen next).scheduler := by
  rw [Step.andThen]
  split
  · exact h.trans (hnext _)
  · exact h

theorem keeps_setStatus (s : Scheduler) (other : ItemId) (status : Status) :
    Keeps id s (s.setStatus other status) :=
  .of_duties (duties_setStatus s other status)

theorem keeps_stopTransfer (hne : id ≠ other) (s : Scheduler) (reason : StopReason) :
    Keeps id s (s.stopTransfer other reason) :=
  .of_duty? (by rw [duty?_stopTransfer, if_neg hne])

theorem keeps_stop (hne : id ≠ other) (s : Scheduler) (reason : StopReason) (status : Status) :
    Keeps id s ((s.stopTransfer other reason).setStatus other status) :=
  (keeps_stopTransfer hne s reason).trans (keeps_setStatus _ _ _)

theorem keeps_discardPartial (s : Scheduler) (other : ItemId) :
    Keeps id s (s.discardPartial other) :=
  .of_duties (duties_discardPartial s other)

theorem keeps_startTransfer (s : Scheduler) (other : ItemId) :
    Keeps id s (s.startTransfer other) := by
  cases hget : s.table.get? other with
  | none =>
    rw [startTransfer, hget]
    exact .refl id s
  | some item =>
    intro duty hduty
    rw [duty?_eq_find?, duties_startTransfer hget, List.find?_append, ← duty?_eq_find?, hduty]
    rfl

theorem keeps_fillSlots (ids : List ItemId) (s : Scheduler) : Keeps id s (s.fillSlots ids) := by
  induction ids generalizing s with
  | nil => exact .refl id s
  | cons first rest ih =>
    rw [fillSlots]
    split
    · exact .refl id s
    · exact (keeps_startTransfer s first).trans (ih _)

theorem keeps_tick (s : Scheduler) : Keeps id s s.tick := by
  rw [tick]
  split
  · exact .refl id s
  · exact keeps_fillSlots _ s

theorem keeps_markDirty_tick (s : Scheduler) : Keeps id s s.markDirty.tick :=
  Keeps.trans (t := s.markDirty) (.of_duties rfl) (keeps_tick _)

theorem keeps_addItem (s : Scheduler) (url : String) (destination : Path) (status : Option Status) :
    Keeps id s (s.addItem url destination status).scheduler := by
  rw [addItem]
  split
  · exact .refl id s
  · dsimp only
    split <;> exact .of_duties rfl

theorem keeps_enqueue (s : Scheduler) (url : String) (destination : Path) :
    Keeps id s (s.enqueue url destination).scheduler := by
  rw [enqueue]
  split
  · exact .refl id s
  · exact (keeps_addItem s url _ none).andThen fun _ => keeps_markDirty_tick _

theorem keeps_addEntries (count : Nat) (entries : List TextQueue.Entry) (s : Scheduler) :
    Keeps id s (s.addEntries count entries).scheduler := by
  induction entries generalizing s count with
  | nil => exact .refl id s
  | cons entry entries ih =>
    rw [addEntries]
    split
    · exact ih count s
    · exact (keeps_addItem s entry.url _ entry.status).andThen fun _ => ih _ _

theorem keeps_addAll (s : Scheduler) (entries : List TextQueue.Entry) :
    Keeps id s (s.addAll entries).scheduler := by
  refine (keeps_addEntries 0 entries s).andThen fun count => ?_
  change Keeps id _ (ite _ _ _)
  split
  · exact keeps_markDirty_tick _
  · exact .refl id _

/-- Settling an ending leaves all workers alone. -/
theorem duties_settle (s : Scheduler) (id : ItemId) (stop : Option StopReason) (ending : Ending) :
    (s.settle id stop ending).scheduler.duties = s.duties := by
  cases stop with
  | none =>
    cases ending with
    | completed =>
      change (s.finish id).duties = s.duties
      rw [finish, setStatus_eq]
      rfl
    | failed reason retryable =>
      exact (alike_fail s id reason retryable).duties.trans (duties_setStatus s id .failed)
    | cancelled => exact (alike_reconcile _ id).duties.trans (duties_setStatus s id .queued)
  | some reason =>
    rw [settle_of_stop]
    exact (settled_frame s id reason ending).1

theorem keeps_handleEnding (hne : id ≠ other) (s : Scheduler) (ending : Ending) :
    Keeps id s (s.handleEnding other ending).scheduler := by
  rw [handleEnding]
  split
  · exact .refl id s
  · have hunbind : Keeps id s (s.unbind other) := .of_duty? (by rw [duty?_unbind, if_neg hne])
    exact (hunbind.trans (.of_duties (duties_settle _ _ _ _))).andThen fun _ => keeps_tick _

theorem keeps_tryAgain (s : Scheduler) (other : ItemId) (item : Item) :
    Keeps id s (s.tryAgain other item).scheduler := by
  rw [tryAgain]
  split
  · exact .refl id s
  · next attempts _ =>
    have hnoted : Keeps id s (s.modifyItem other fun item => { item with attempts }) :=
      .of_duties rfl
    exact (hnoted.trans (keeps_setStatus _ _ _)).trans (keeps_tick _)

theorem keeps_handleRetry (s : Scheduler) (other : ItemId) :
    Keeps id s (s.handleRetry other).scheduler := by
  have hforget : Keeps id s (s.forgetTimer other) := .of_duties rfl
  rw [handleRetry]
  split
  · exact hforget
  · split
    · exact hforget.trans (keeps_tryAgain _ _ _)
    · exact hforget

/-- Items leave the table, and listeners are told. -/
theorem keeps_retain (s : Scheduler) (keep : Item → Bool) :
    Keeps id s ((s.table.retain keep).1.foldl (fun s item => s.emit (.removed item.id))
      { s with table := (s.table.retain keep).2 }) := by
  have hretained : Keeps id s { s with table := (s.table.retain keep).2 } := .of_duties rfl
  exact hretained.trans (alike_foldl_emit (fun item : Item => .removed item.id) _ _).keeps

theorem keeps_dropDeleted (s : Scheduler) : Keeps id s s.dropDeleted.2 :=
  keeps_retain s _

theorem keeps_deleteFinished (s : Scheduler) : Keeps id s s.deleteFinished.1 := by
  have hremoved : Keeps id s _ := keeps_retain s fun item => !item.status.isComplete
  rw [deleteFinished]
  dsimp only
  split
  · exact hremoved
  · exact hremoved.trans (.of_duties rfl)

/-- A commit unbinds nobody. -/
theorem keeps_commit (s : Scheduler) : Keeps id s s.commit.scheduler := by
  refine Keeps.trans ?_ (alike_publish s.saveChanges).keeps
  have hpersist : Keeps id s s.persist.1 := .of_duties rfl
  rw [saveChanges]
  split
  · split
    · next saved hsaved =>
      rw [hsaved] at hpersist
      have hclean : Keeps id s { saved with dirty := false } := hpersist.trans (.of_duties rfl)
      exact hclean.trans (keeps_dropDeleted _)
    · next saved error hsaved =>
      rw [hsaved] at hpersist
      exact hpersist.trans (.of_duties rfl)
  · exact .refl id s

theorem keeps_pause {item : Item} (hne : id ≠ item.id) (s : Scheduler) :
    Keeps id s (s.pause item).1 := by
  rw [pause]
  split
  · exact keeps_stop hne s _ _
  · exact keeps_setStatus s _ _
  · exact .refl id s
  · exact .refl id s

theorem keeps_cancel {item : Item} (hne : id ≠ item.id) (s : Scheduler) :
    Keeps id s (s.cancel item).1 := by
  have hwaiting : Keeps id s (((if s.isBound item.id then s.stopTransfer item.id .cancel
      else s.discardPartial item.id).setStatus item.id .queued).tick) := by
    refine Keeps.trans ?_ (keeps_tick _)
    split
    · exact keeps_stop hne s _ _
    · exact (keeps_discardPartial s _).trans (keeps_setStatus _ _ _)
  rw [cancel]
  split
  · exact keeps_stop hne s _ _
  · exact hwaiting
  · exact hwaiting
  · exact .refl id s

theorem keeps_delete {item : Item} (hne : id ≠ item.id) (s : Scheduler) :
    Keeps id s (s.delete item).1 := by
  rw [delete]
  split
  · exact .refl id s
  · refine (alike_cancelTimer s item.id).keeps.trans (Keeps.trans ?_ (keeps_setStatus _ _ _))
    split
    · exact keeps_stopTransfer hne _ _
    · split
      · exact .refl id _
      · exact keeps_discardPartial _ _

theorem keeps_resume (s : Scheduler) (item : Item) : Keeps id s (s.resume item).1 := by
  rw [resume]
  split
  · exact (keeps_setStatus s _ _).trans (keeps_tick _)
  · exact .refl id s
  · exact .refl id s
  · exact .refl id s

theorem keeps_retry (s : Scheduler) (item : Item) : Keeps id s (s.retry item).scheduler := by
  rw [retry]
  split
  · have hcancelled : Keeps id s (s.cancelTimer item.id) := (alike_cancelTimer s item.id).keeps
    exact (hcancelled.trans (keeps_tryAgain _ _ _)).andThen fun _ => .refl id _
  · exact .refl id s

theorem keeps_resumeAll (s : Scheduler) : Keeps id s s.resumeAll.1 := by
  have hqueued (ids : List ItemId) (s : Scheduler) :
      Keeps id s (ids.foldl (fun s id => s.setStatus id .queued) s) := by
    induction ids generalizing s with
    | nil => exact .refl id s
    | cons other ids ih => exact (keeps_setStatus s other .queued).trans (ih _)
  rw [resumeAll]
  split
  · exact .refl id s
  · exact (hqueued _ s).trans (keeps_tick _)

theorem keeps_setAutoDownload (s : Scheduler) (enabled : Bool) :
    Keeps id s (s.setAutoDownload enabled).1 := by
  have hauto : Keeps id s { s with autoDownload := enabled } := .of_duties rfl
  rw [setAutoDownload]
  split
  · exact .refl id s
  · dsimp only
    split
    · exact hauto.trans (keeps_tick _)
    · exact hauto

/-! ## What may happen while a worker is bound -/

inductive Happening
  | operation (operation : Operation)
  | message (message : Message)
  | beginShutdown
  | outside (files : FileSystem) (inbox : List Message) (clock : Nat) (now : Timestamp)
      (share : Float)

def undergo (s : Scheduler) : Happening → Scheduler
  | .operation operation => s.operate operation
  | .message message => (s.handleMessage message).scheduler
  | .beginShutdown => s.beginShutdown
  | .outside files inbox clock now share => { s with files, inbox, clock, now, share }

def granted (s : Scheduler) (command : Command) : Bool :=
  match (s.apply command).result with
  | .ok (.ok .applied) => true
  | _ => false

def told (s : Scheduler) (id : ItemId) : Command → Option StopReason
  | .pause other => if other = id ∧ s.granted (.pause other) then some .pause else none
  | .cancel other => if other = id ∧ s.granted (.cancel other) then some .cancel else none
  | .delete other => if other = id ∧ s.granted (.delete other) then some .delete else none
  | .pauseAll =>
    if (s.table.get? id).any fun item => item.status = .queued || item.status = .downloading then
      some .pause
    else none
  | .setMaxConcurrent limit =>
    if limit ≠ 0 ∧ limit < s.maxConcurrent ∧ id ∈ s.excess limit then some .requeue else none
  | _ => none

def asked (s : Scheduler) (id : ItemId) : Happening → Option StopReason
  | .operation (.dispatch command _) => s.told id command
  | .beginShutdown => some .shutdown
  | _ => none

def stopsOf (id : ItemId) : Scheduler → List Happening → List StopReason
  | _, [] => []
  | s, happening :: rest => (s.asked id happening).toList ++ stopsOf id (s.undergo happening) rest

/-- What happens is a chain of changes, unless it happens outside. -/
theorem undergo_cases (h : s.Coherent) (happening : Happening) :
    Chain (fun _ _ => True) s (s.undergo happening) ∨
      ∃ files inbox clock now share, happening = .outside files inbox clock now share := by
  cases happening with
  | operation operation => exact .inl (chain_operate h operation)
  | message message => exact .inl (chain_handleMessage h message fun _ _ => trivial)
  | beginShutdown => exact .inl (chain_beginShutdown h)
  | outside files inbox clock now share => exact .inr ⟨files, inbox, clock, now, share, rfl⟩

theorem orderly_undergo (h : s.Orderly) (happening : Happening) :
    (s.undergo happening).Orderly := by
  rcases undergo_cases h.coherent happening with hchain | ⟨files, inbox, clock, now, share, rfl⟩
  · exact .of_chain hchain h
  · exact h.outside files inbox clock now share

theorem orderly_foldl_undergo (h : s.Orderly) (happenings : List Happening) :
    (happenings.foldl undergo s).Orderly := by
  induction happenings generalizing s with
  | nil => exact h
  | cons happening rest ih => exact ih (orderly_undergo h happening)

/-! ## What a worker is told -/

/-- The worker of the item is bound still, and of these stops and the one it knew of before it knows
the strongest. -/
def Heeds (id : ItemId) (duty : Duty) (stops : List StopReason) (t : Scheduler) : Prop :=
  ∃ next, t.duty? id = some next ∧ next.pending = max duty.pending (strongest stops)

theorem Keeps.heeds (h : Keeps id s t) (hduty : s.duty? id = some duty) : Heeds id duty [] t :=
  ⟨duty, h duty hduty, duty.pending_max_nil⟩

theorem Heeds.keeps {stops : List StopReason} (h : Heeds id duty stops t) (hkeeps : Keeps id t u) :
    Heeds id duty stops u := by
  obtain ⟨next, hnext, hpending⟩ := h
  exact ⟨next, hkeeps next hnext, hpending⟩

theorem heeds_stopTransfer (hduty : s.duty? id = some duty) (reason : StopReason) :
    Heeds id duty [reason] (s.stopTransfer id reason) := by
  refine ⟨duty.stopped reason, ?_, duty.pending_stopped reason⟩
  rw [duty?_stopTransfer, if_pos rfl, hduty, Option.map_some]

theorem heeds_stop (hduty : s.duty? id = some duty) (reason : StopReason) (status : Status) :
    Heeds id duty [reason] ((s.stopTransfer id reason).setStatus id status) :=
  (heeds_stopTransfer hduty reason).keeps (keeps_setStatus _ _ _)

/-- A worker whose item waits has been told to stop already. -/
theorem Coherent.pending_pos (h : s.Coherent) (hduty : s.duty? id = some duty) {standing : Standing}
    (hstanding : s.standing? id = some standing) (hstatus : standing.status ≠ .downloading) :
    0 < duty.pending := by
  cases hstop : duty.stop with
  | none => exact absurd (h.status_of_stop_eq_none hduty hstanding hstop) hstatus
  | some reason =>
    rw [Duty.pending, hstop, Option.toList_some, strongest_cons]
    exact Nat.lt_of_lt_of_le reason.strength_pos (Nat.le_max_left _ _)

/-- A worker that has been told to stop need not be told of a pause. -/
theorem heeds_pause_of_pending (hduty : s.duty? id = some duty) (hpending : 0 < duty.pending)
    (hkeeps : Keeps id s t) : Heeds id duty [.pause] t := by
  refine ⟨duty, hkeeps duty hduty, ?_⟩
  change duty.pending = max duty.pending 1
  omega

variable {item : Item}

theorem apply_of_get? (hget : s.table.get? id = some item) (operation : Item → Step Verdict) :
    s.onItem id operation = operation item := by
  rw [onItem, hget]

theorem keeps_onItem (other : ItemId) {operation : Item → Step Verdict}
    (hoperation : ∀ item, item.id = other → Keeps id s (operation item).scheduler) :
    Keeps id s (s.onItem other operation).scheduler := by
  rw [onItem]
  split
  · exact .refl id s
  · next item hget => exact hoperation item (Table.id_of_get? hget)

theorem granted_iff {command : Command} :
    s.granted command = true ↔ (s.apply command).result = .ok (.ok .applied) := by
  rw [granted]
  split
  · next hresult => simp [hresult]
  · next hresult => simpa using hresult

/-- A pause does not weaken a stop: an item that is to lose its file is no longer downloading. -/
theorem heeds_pause (h : s.Coherent) (hduty : s.duty? id = some duty)
    (hget : s.table.get? id = some item) :
    Heeds id duty (s.told id (.pause id)).toList (s.apply (.pause id)).scheduler := by
  have hid : item.id = id := Table.id_of_get? hget
  have hstanding := standing?_of_get? hget
  have happly : s.apply (.pause id) = plain (s.pause item) := apply_of_get? hget _
  rw [told, granted, happly, pause, hid]
  cases hstatus : item.status with
  | downloading => simpa [plain, Step.done] using heeds_stop hduty .pause .paused
  | queued =>
    -- the item waits, so its worker has been told of a stop before
    have hpending := h.pending_pos hduty hstanding (by simp [hstatus])
    have hheeds := heeds_pause_of_pending hduty hpending (keeps_setStatus s id .paused)
    simpa [plain, Step.done] using hheeds
  | _ => simpa [plain, Step.done] using (Keeps.refl id s).heeds hduty

/-- A cancellation prevails over everything but a deletion, for a deleted item cannot be
cancelled. -/
theorem heeds_cancel (hduty : s.duty? id = some duty) (hget : s.table.get? id = some item) :
    Heeds id duty (s.told id (.cancel id)).toList (s.apply (.cancel id)).scheduler := by
  have hid : item.id = id := Table.id_of_get? hget
  have happly : s.apply (.cancel id) = plain (s.cancel item) := apply_of_get? hget _
  have hbound : s.isBound id = true := isBound_iff.mpr ⟨duty, hduty⟩
  have hstopped := heeds_stop hduty .cancel .queued
  rw [told, granted, happly, cancel, hid]
  cases hstatus : item.status with
  | downloading => simpa [plain, Step.done] using hstopped
  | queued => simpa [plain, Step.done, hbound] using hstopped.keeps (keeps_tick _)
  | paused => simpa [plain, Step.done, hbound] using hstopped.keeps (keeps_tick _)
  | _ => simpa [plain, Step.done] using (Keeps.refl id s).heeds hduty

/-- Nothing is stronger than a deletion. -/
theorem heeds_delete (hduty : s.duty? id = some duty) (hget : s.table.get? id = some item) :
    Heeds id duty (s.told id (.delete id)).toList (s.apply (.delete id)).scheduler := by
  have hid : item.id = id := Table.id_of_get? hget
  have happly : s.apply (.delete id) = plain (s.delete item) := apply_of_get? hget _
  have hcancelled : (s.cancelTimer id).duty? id = some duty :=
    ((alike_cancelTimer s id).duty? id).trans hduty
  have hbound : (s.cancelTimer id).isBound id = true := isBound_iff.mpr ⟨duty, hcancelled⟩
  have hstopped := heeds_stop hcancelled .delete .deleted
  rw [told, granted, happly, delete, hid]
  by_cases hstatus : item.status = .deleted
  · simpa [plain, Step.done, hstatus] using (Keeps.refl id s).heeds hduty
  · simpa [plain, Step.done, hstatus, hbound] using hstopped

theorem untouched_pauseOne (s : Scheduler) (other : ItemId) (hne : id ≠ other) :
    Untouched id s (s.pauseOne other) := by
  refine ⟨?_, standing?_pauseOne_of_ne s hne⟩
  rw [pauseOne, duty?_setStatus]
  split
  · rw [duty?_stopTransfer, if_neg hne]
  · rfl

theorem heeds_pauseOne (hduty : s.duty? id = some duty) {standing : Standing}
    (hstanding : s.standing? id = some standing)
    (hpending : standing.status ≠ .downloading → 0 < duty.pending) :
    Heeds id duty [.pause] (s.pauseOne id) := by
  obtain ⟨item, hget, rfl⟩ := get?_of_standing? hstanding
  rw [pauseOne, hget]
  by_cases hstatus : item.status = .downloading
  · simpa [hstatus] using heeds_stop hduty .pause .paused
  · have hheeds := heeds_pause_of_pending hduty (hpending hstatus) (keeps_setStatus s id .paused)
    simpa [hstatus] using hheeds

/-- To pause all items passes over those whose workers were told something stronger. -/
theorem heeds_pauseAll (h : s.Coherent) (hduty : s.duty? id = some duty) :
    Heeds id duty (s.told id .pauseAll).toList (s.apply .pauseAll).scheduler := by
  obtain ⟨standing, hstanding, -⟩ := h.fits id duty hduty
  obtain ⟨item, hget, rfl⟩ := get?_of_standing? hstanding
  have hid : item.id = id := Table.id_of_get? hget
  change Heeds id duty _ (((s.table.items.filter fun item =>
    item.status = .queued || item.status = .downloading).map Item.id).foldl pauseOne s)
  rw [told, hget, Option.any_some]
  split
  · next hwaits =>
    have hmem : id ∈ (s.table.items.filter fun item =>
        item.status = .queued || item.status = .downloading).map Item.id :=
      hid ▸ List.mem_map_of_mem (List.mem_filter.mpr ⟨Table.mem_of_get? hget, hwaits⟩)
    obtain ⟨u, ⟨hdutyBefore, hstandingBefore⟩, hafter⟩ :=
      foldl_meets (fun s other hne => untouched_pauseOne s other hne) (h.nodup_filter _) hmem s
    have hheeds := heeds_pauseOne (hdutyBefore.trans hduty) (hstandingBefore.trans hstanding)
      (h.pending_pos hduty hstanding)
    exact hheeds.keeps (.of_duty? hafter.1)
  · next hrests =>
    have hnot : id ∉ ((s.table.items.filter fun item =>
        item.status = .queued || item.status = .downloading).map Item.id).map fun id => id := by
      rw [List.map_id']
      intro hmem
      obtain ⟨found, hfound, hwaits⟩ := h.stands_of_mem_filter
        (p := fun status => status = .queued ∨ status = .downloading)
        (fun item hkept => by simpa using hkept) hmem
      rw [hstanding] at hfound
      cases hfound
      exact hrests (by simpa using hwaits)
    have hsame := foldl_untouched (fun s other hne => untouched_pauseOne s other hne) _ s hnot
    exact Keeps.heeds (.of_duty? hsame.1) hduty

theorem untouched_requeue (s : Scheduler) (other : ItemId) (hne : id ≠ other) :
    Untouched id s (s.requeue other) := by
  refine ⟨?_, standing?_stop_of_ne s _ _ hne⟩
  rw [requeue, duty?_setStatus, duty?_stopTransfer, if_neg hne]

/-- A lower limit is told to the youngest workers. -/
theorem heeds_foldl_requeue (h : s.Coherent) (hduty : s.duty? id = some duty) (limit : UInt64) :
    Heeds id duty (if id ∈ s.excess limit then [.requeue] else [])
      ((s.excess limit).foldl requeue s) := by
  have hnodup : ((s.excess limit).map fun id => id).Nodup := by
    rw [List.map_id']
    exact h.nodup_excess limit
  split
  · next hmem =>
    obtain ⟨u, ⟨hdutyBefore, -⟩, hafter⟩ :=
      foldl_meets (fun s other hne => untouched_requeue s other hne) hnodup hmem s
    exact (heeds_stop (hdutyBefore.trans hduty) .requeue .queued).keeps (.of_duty? hafter.1)
  · next hnot =>
    rw [← List.map_id' (s.excess limit)] at hnot
    have hsame := foldl_untouched (fun s other hne => untouched_requeue s other hne) _ s hnot
    exact Keeps.heeds (.of_duty? hsame.1) hduty

/-- A lower limit stops running workers only, so it overrides no stop. -/
theorem heeds_setMaxConcurrent (h : s.Coherent) (hduty : s.duty? id = some duty) (limit : UInt64) :
    Heeds id duty (s.told id (.setMaxConcurrent limit)).toList
      (s.apply (.setMaxConcurrent limit)).scheduler := by
  have hkept := (Keeps.refl id s).heeds hduty
  change Heeds id duty _ (s.setMaxConcurrent limit).1
  rw [told, setMaxConcurrent]
  by_cases hzero : limit = 0
  · rw [if_neg fun hlower => hlower.1 hzero, if_pos hzero]
    exact hkept
  rw [if_neg hzero]
  by_cases hsame : limit = s.maxConcurrent
  · rw [if_neg fun hlower => UInt64.ne_of_lt hlower.2.1 hsame, if_pos hsame]
    exact hkept
  rw [if_neg hsame]
  dsimp only
  by_cases hraised : s.maxConcurrent < limit
  · rw [if_neg fun hlower => UInt64.lt_asymm hraised hlower.2.1, if_pos hraised]
    have hlimit : Keeps id s { s with maxConcurrent := limit } := .of_duties rfl
    exact (hlimit.trans (keeps_tick _)).heeds hduty
  · have hlower : limit < s.maxConcurrent := by
      rw [UInt64.lt_iff_toNat_lt, ← UInt64.toNat_inj] at *
      omega
    rw [if_neg hraised]
    change Heeds id duty _ ((s.excess limit).foldl requeue { s with maxConcurrent := limit })
    rw [foldl_requeue_withLimit]
    obtain ⟨next, hnext, hpending⟩ := heeds_foldl_requeue h hduty limit
    refine ⟨next, hnext, hpending.trans ?_⟩
    simp only [hzero, hlower, ne_eq, not_false_eq_true, true_and]
    split <;> rfl

/-- The step lemma for commands. -/
theorem heeds_apply (h : s.Coherent) (hduty : s.duty? id = some duty) (command : Command) :
    Heeds id duty (s.told id command).toList (s.apply command).scheduler := by
  obtain ⟨standing, hstanding, -⟩ := h.fits id duty hduty
  obtain ⟨item, hget, -⟩ := get?_of_standing? hstanding
  have hspared {command : Command} (htold : s.told id command = none)
      (hkeeps : Keeps id s (s.apply command).scheduler) :
      Heeds id duty (s.told id command).toList (s.apply command).scheduler := by
    rw [htold]
    exact hkeeps.heeds hduty
  cases command with
  | pause other =>
    by_cases heq : other = id
    · subst heq
      exact heeds_pause h hduty hget
    · refine hspared (if_neg fun hself => heq hself.1) (keeps_onItem other fun item hid => ?_)
      exact keeps_pause (fun hsame => heq (hid.symm.trans hsame.symm)) s
  | cancel other =>
    by_cases heq : other = id
    · subst heq
      exact heeds_cancel hduty hget
    · refine hspared (if_neg fun hself => heq hself.1) (keeps_onItem other fun item hid => ?_)
      exact keeps_cancel (fun hsame => heq (hid.symm.trans hsame.symm)) s
  | delete other =>
    by_cases heq : other = id
    · subst heq
      exact heeds_delete hduty hget
    · refine hspared (if_neg fun hself => heq hself.1) (keeps_onItem other fun item hid => ?_)
      exact keeps_delete (fun hsame => heq (hid.symm.trans hsame.symm)) s
  | resume other => exact hspared rfl (keeps_onItem other fun item _ => keeps_resume s item)
  | retry other => exact hspared rfl (keeps_onItem other fun item _ => keeps_retry s item)
  | deleteFinished => exact hspared rfl (keeps_deleteFinished s)
  | purge => exact hspared rfl (keeps_dropDeleted s)
  | pauseAll => exact heeds_pauseAll h hduty
  | resumeAll => exact hspared rfl (keeps_resumeAll s)
  | setMaxConcurrent limit => exact heeds_setMaxConcurrent h hduty limit
  | setAutoDownload enabled => exact hspared rfl (keeps_setAutoDownload s enabled)

/-! ## Runs while a worker is bound -/

/-- Whatever happens to a worker, short of its ending, it knows the strongest of its stops. -/
theorem heeds_undergo (h : s.Coherent) (hduty : s.duty? id = some duty) {happening : Happening}
    (hunheard : ∀ ending, happening ≠ .message ⟨id, .ended ending⟩) :
    Heeds id duty (s.asked id happening).toList (s.undergo happening) := by
  cases happening with
  | operation operation =>
    cases operation with
    | enqueue url destination => exact (keeps_enqueue s url destination).heeds hduty
    | addText text => exact (keeps_addAll s _).heeds hduty
    | dispatch command ended =>
      change Heeds id duty (s.told id command).toList (s.dispatch command ended).scheduler
      rw [scheduler_dispatch]
      exact heeds_apply h hduty command
    | retry other => exact (keeps_handleRetry s other).heeds hduty
    | tick => exact (keeps_tick s).heeds hduty
    | commit => exact (keeps_commit s).heeds hduty
  | message message =>
    obtain ⟨other, report⟩ := message
    cases report with
    | progress progress => exact (alike_handleProgress s other progress).keeps.heeds hduty
    | ended ending =>
      have hne : id ≠ other := by
        rintro rfl
        exact hunheard ending rfl
      exact (keeps_handleEnding hne s ending).heeds hduty
  | beginShutdown =>
    exact ⟨_, (beginShutdown_of_duty? h hduty).1, duty.pending_stopped .shutdown⟩
  | outside files inbox clock now share => exact ⟨duty, hduty, duty.pending_max_nil⟩

/-- A worker whose ending was not heard knows the strongest of its stops, in whatever order they
came. -/
theorem heeds_foldl_undergo (h : s.Orderly) (hduty : s.duty? id = some duty)
    (happenings : List Happening)
    (hunheard : ∀ ending, .message ⟨id, .ended ending⟩ ∉ happenings) :
    Heeds id duty (stopsOf id s happenings) (happenings.foldl undergo s) := by
  induction happenings generalizing s duty with
  | nil => exact (Keeps.refl id s).heeds hduty
  | cons happening rest ih =>
    obtain ⟨next, hnext, hpending⟩ := heeds_undergo h.coherent hduty
      fun ending heq => hunheard ending (heq ▸ List.mem_cons_self)
    obtain ⟨last, hlast, hstrongest⟩ := ih (orderly_undergo h happening) hnext
      fun ending hmem => hunheard ending (List.mem_cons_of_mem _ hmem)
    refine ⟨last, hlast, ?_⟩
    rw [hstrongest, hpending, stopsOf, strongest_append, Nat.max_assoc]

/-! ## What an ending leaves -/

structure Stopped (id : ItemId) (s : Scheduler) (happenings : List Happening)
    (stops : List StopReason) : Prop where
  bound : ∃ binding, s.binding? id = some binding ∧
    stops = binding.stop.toList ++ stopsOf id s happenings
  unheard : ∀ ending, .message ⟨id, .ended ending⟩ ∉ happenings
  nonempty : stops ≠ []

/-- What an ending leaves of an item and its file, by the stops that its worker was asked for. -/
structure Aftermath (item : Item) (stops : List StopReason) (ending : Ending) (t v : Scheduler) :
    Prop where
  completed : ending = .completed → v.files = t.files ∧
    v.Stands (· = if .delete ∈ stops then .deleted else .finished) item.id
  discarded : ending ≠ .completed → Discarding stops →
    ∀ files, t.files.removePartial item.destination = .ok files →
      v.files = files ∧ v.files.content? item.destination = none ∧
      ∃ later, v.table.get? item.id = some later ∧ later.bytesDownloaded = 0 ∧
        later.bytesTotal = none
  kept : ending ≠ .completed → ¬ Discarding stops →
    v.files = t.files ∧
      ∃ later, v.table.get? item.id = some later ∧
        later.bytesDownloaded = t.files.fileLength item.destination ∧
        later.bytesTotal = item.bytesTotal

/-- A worker knows a stop if it was asked for some, and it knows what the strongest one is. -/
theorem Duty.exists_stop {stops : List StopReason} (hne : stops ≠ [])
    (hpending : duty.pending = strongest stops) :
    ∃ stop, duty.stop = some stop ∧
      (stop.discardsPartial = true ↔ Discarding stops) ∧ (stop = .delete ↔ .delete ∈ stops) := by
  obtain ⟨first, hmem⟩ := List.exists_mem_of_ne_nil stops hne
  have hpos : 1 ≤ strongest stops :=
    (le_strongest_iff Nat.one_pos stops).mpr ⟨first, hmem, first.strength_pos⟩
  cases hstop : duty.stop with
  | none =>
    rw [Duty.pending, hstop] at hpending
    exact absurd (hpending ▸ hpos) (by decide)
  | some stop =>
    have hstrength : stop.strength = strongest stops := by
      rw [← hpending, Duty.pending, hstop, Option.toList_some, strongest_cons]
      exact (Nat.max_zero _).symm
    refine ⟨stop, rfl, ?_, ?_⟩
    · rw [StopReason.discardsPartial_iff, hstrength, le_strongest_iff (by decide), discarding_iff]
      simp only [StopReason.discardsPartial_iff]
    · rw [StopReason.eq_delete_iff, hstrength, le_strongest_iff (by decide)]
      simp only [← StopReason.eq_delete_iff, exists_eq_right]

theorem Duty.exists_stop_of_le_pending (h : 2 ≤ duty.pending) :
    ∃ stop, duty.stop = some stop ∧ stop.discardsPartial = true := by
  rw [Duty.pending, le_strongest_iff (by decide)] at h
  obtain ⟨stop, hmem, hstrong⟩ := h
  exact ⟨stop, Option.mem_toList.mp hmem, StopReason.discardsPartial_iff.mpr hstrong⟩

theorem coherent_settled (h : t.Coherent) (hduty : t.duty? id = some duty) {stop : StopReason}
    (hstop : duty.stop = some stop) (ending : Ending) :
    ((t.unbind id).settled id stop ending).Coherent := by
  have hchain : Chain (fun _ _ => True) t
      ((t.unbind id).settle id duty.stop ending).scheduler := chain_settle hduty ending trivial
  rw [hstop, settle_of_stop] at hchain
  exact hchain.coherent h

/-- The strongest of the stops decides what an ending leaves. -/
theorem Coherent.aftermath (h : t.Coherent) {binding : Binding}
    (hbinding : t.binding? id = some binding) {stops : List StopReason} (hne : stops ≠ [])
    (hpending : binding.duty.pending = strongest stops) (ending : Ending) :
    ∃ item v, t.table.get? id = some item ∧ t.handleEnding id ending = .done v () ∧
      Aftermath item stops ending t v := by
  have hduty : t.duty? id = some binding.duty := by rw [duty?, hbinding]; rfl
  -- what the worker was told is as strong as the strongest stop, but need not be that very one
  obtain ⟨stop, hstop, hdiscards, hdelete⟩ := Duty.exists_stop hne hpending
  obtain ⟨standing, hstanding, -⟩ := h.fits id _ hduty
  obtain ⟨item, hget, rfl⟩ := get?_of_standing? hstanding
  obtain rfl : item.id = id := Table.id_of_get? hget
  have hfound : (t.unbind item.id).table.get? item.id = some item := hget
  have hsound := (coherent_settled h hduty hstop ending).sound
  refine ⟨item, _, hget, handleEnding_of_stop hbinding hstop ending, ?_, ?_, ?_⟩
  · rintro rfl
    obtain ⟨hfiles, hrecord⟩ := settled_completed hfound stop
    obtain ⟨later, hlater, hadmitted⟩ := get?_tick hsound hrecord
    refine ⟨(files_tick _).trans hfiles, later.standing, standing?_of_get? hlater, ?_⟩
    rw [Item.standing_status]
    -- a deleted or finished item is not queued, so the admissions pass it over
    by_cases hgone : stop = .delete
    · have hdeleted : item.status = .deleted :=
        (h.suits_of_stop_eq_some hduty hstanding hstop).2.mp hgone
      rw [if_pos hgone] at hadmitted
      rw [if_pos (hdelete.mp hgone)]
      rcases hadmitted with rfl | ⟨hqueued, -⟩
      · exact hdeleted
      · rw [hdeleted] at hqueued
        cases hqueued
    · rw [if_neg hgone] at hadmitted
      rw [if_neg fun hmem => hgone (hdelete.mpr hmem)]
      rcases hadmitted with rfl | ⟨hqueued, -⟩
      · exact status_turned _ _
      · rw [status_turned] at hqueued
        cases hqueued
  · intro hfailed hthrown files hremove
    obtain ⟨hfiles, hrecord⟩ := settled_of_ne_completed hfound stop hfailed
    rw [if_pos (hdiscards.mpr hthrown)] at hfiles hrecord
    have hremoved : ((t.unbind item.id).settled item.id stop ending).tick.files = files := by
      rw [files_tick, hfiles]
      change (t.files.removePartial item.destination).toOption.getD t.files = files
      rw [hremove]
      rfl
    rw [hremoved]
    exact ⟨rfl, FileSystem.content?_of_removePartial_eq_ok hremove, bytes_tick hsound hrecord⟩
  · intro hfailed hkept
    obtain ⟨hfiles, hrecord⟩ := settled_of_ne_completed hfound stop hfailed
    rw [if_neg fun hthrown => hkept (hdiscards.mp hthrown)] at hfiles hrecord
    exact ⟨(files_tick _).trans hfiles, bytes_tick hsound hrecord⟩

/-- When an ending is heard its worker is bound, and knows the strongest of its stops. -/
theorem Stopped.binding? {happenings : List Happening} {stops : List StopReason}
    (hstopped : Stopped id s happenings stops) (h : s.Orderly) :
    ∃ binding, (happenings.foldl undergo s).binding? id = some binding ∧
      binding.duty.pending = strongest stops := by
  obtain ⟨⟨binding, hbinding, rfl⟩, hunheard, -⟩ := hstopped
  have hduty : s.duty? id = some binding.duty := by rw [duty?, hbinding]; rfl
  obtain ⟨next, hnext, hpending⟩ := heeds_foldl_undergo h hduty happenings hunheard
  obtain ⟨last, hlast, rfl⟩ := Option.map_eq_some_iff.mp hnext
  refine ⟨last, hlast, hpending.trans ?_⟩
  rw [strongest_append]
  rfl

/-- Whatever happens while a worker is bound, the strongest of the stops that it was asked for
decides what its ending leaves. -/
theorem Stopped.aftermath {happenings : List Happening} {stops : List StopReason}
    (hstopped : Stopped id s happenings stops) (h : s.Orderly) (ending : Ending) :
    ∃ item v, (happenings.foldl undergo s).table.get? id = some item ∧
      (happenings.foldl undergo s).handleEnding id ending = .done v () ∧
      Aftermath item stops ending (happenings.foldl undergo s) v := by
  obtain ⟨last, hlast, hpending⟩ := hstopped.binding? h
  have hcoherent := (orderly_foldl_undergo h happenings).coherent
  exact hcoherent.aftermath hlast hstopped.nonempty hpending ending

end Scheduler

end DownloadQueue
