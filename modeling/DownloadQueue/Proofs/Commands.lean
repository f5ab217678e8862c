import DownloadQueue.Proofs.Operation
import Mathlib.Data.List.Nodup

namespace DownloadQueue

def Command.Warrants (command : Command) : Cause → Prop
  | .discard => ∃ id, command = .cancel id ∨ command = .delete id
  | .again id => command = .retry id
  | _ => False

namespace Scheduler

variable {may : Cause → Prop} {heard : ItemId → Ending → Prop} {s t : Scheduler} {id : ItemId}
variable {standing : Standing} {item : Item}

/-- The file of an unfinished item without a worker is removed and the item gets a new status. -/
theorem chain_discard (hget : s.table.get? id = some item) (hfree : s.duty? id = none)
    (hlive : item.status ≠ .deleted) (hpartial : item.status.isComplete = false) {status : Status}
    (hstatus : status = .queued ∨ status = .paused ∨ status = .deleted) :
    Chain heard s ((s.discardPartial id).setStatus id status) := by
  refine (Chain.single (.discard hget hfree hlive hpartial)).trans (Chain.single ?_)
  have hstanding : (s.discardPartial id).standing? id = some item.standing := by
    rw [standing?_discardPartial, standing?_of_get? hget]
  refine .shift hstanding hlive hstatus (.inl ?_) (.inr hpartial)
  rw [duty?_discardPartial, hfree]

theorem touches_pause (hget : s.table.get? item.id = some item) : Touches may s (s.pause item).1 := by
  have hstanding := standing?_of_get? hget
  rw [pause]
  split
  · next hstatus =>
    exact touches_stop hstanding (.inr (.inl hstatus)) ⟨by simp, by simp⟩ (by simp)
  · next hstatus =>
    exact .single (.turn hstanding (.inl hstatus) (by simp) (.inr (by simp [hstatus])))
  · exact touches_refl s
  · exact touches_refl s

theorem touches_resume (h : s.table.Sound) (hget : s.table.get? item.id = some item) :
    Touches may s (s.resume item).1 := by
  rw [resume]
  split
  · next hstatus =>
    have hqueued : Touches may s (s.setStatus item.id .queued) :=
      .single (.turn (standing?_of_get? hget) (.inr (.inr hstatus)) (by simp)
        (.inr (by simp [hstatus])))
    exact hqueued.tick h
  · exact touches_refl s
  · exact touches_refl s
  · exact touches_refl s

theorem touches_retry (h : s.Coherent) (hmay : may (.again item.id))
    (hget : s.table.get? item.id = some item) : Touches may s (s.retry item).scheduler := by
  rw [retry]
  split
  · next hstatus =>
    have hhalt : Touches may s (s.cancelTimer item.id) := .single (.halt s item.id)
    have hagain : Touches may (s.cancelTimer item.id)
        ((s.cancelTimer item.id).tryAgain item.id item).scheduler :=
      touches_tryAgain (hhalt.coherent h) hmay ((table_cancelTimer s item.id).symm ▸ hget) hstatus
        (pendingSerial?_cancelTimer_self s item.id)
    exact reach_andThen (hhalt.trans hagain) fun _ _ => touches_refl _
  · exact touches_refl s

/-- To cancel an item that waits: its worker is told, or its file is removed at once. -/
theorem touches_cancel_waiting (h : s.table.Sound) (hdiscard : may .discard)
    (hget : s.table.get? item.id = some item)
    (hwaiting : item.status = .queued ∨ item.status = .paused) :
    Touches may s (((if s.isBound item.id then s.stopTransfer item.id .cancel
      else s.discardPartial item.id).setStatus item.id .queued).tick) := by
  have hwanted : item.status.Wanted := hwaiting.imp_right .inr
  refine Touches.tick ?_ h
  split
  · exact touches_stop (standing?_of_get? hget) hwanted ⟨by simp, by simp⟩ (by simp)
  · next hfree =>
    rw [Bool.not_eq_true, isBound_eq_false_iff] at hfree
    have hstanding : (s.discardPartial item.id).standing? item.id = some item.standing := by
      rw [standing?_discardPartial, standing?_of_get? hget]
    refine Relation.ReflTransGen.head
      (.discard hdiscard hget hfree hwanted.ne_deleted hwanted.not_complete) (.single ?_)
    refine .turn hstanding hwanted (.inl rfl) (.inl ?_)
    rw [duty?_discardPartial, hfree]

theorem touches_cancel (h : s.table.Sound) (hdiscard : may .discard)
    (hget : s.table.get? item.id = some item) : Touches may s (s.cancel item).1 := by
  rw [cancel]
  split
  · next hstatus =>
    exact touches_stop (standing?_of_get? hget) (.inr (.inl hstatus)) ⟨by simp, by simp⟩ (by simp)
  · next hstatus => exact touches_cancel_waiting h hdiscard hget (.inl hstatus)
  · next hstatus => exact touches_cancel_waiting h hdiscard hget (.inr hstatus)
  · exact touches_refl s

/-- To delete an item: its worker is told, or its file and its timer go at once. -/
theorem touches_delete (h : s.Coherent) (hdiscard : may .discard)
    (hget : s.table.get? item.id = some item) : Touches may s (s.delete item).1 := by
  rw [delete]
  split
  · exact touches_refl s
  · next hlive =>
    have hhalt : Touches may s (s.cancelTimer item.id) := .single (.halt s item.id)
    refine hhalt.trans ?_
    have hcoherent := hhalt.coherent h
    have hnone := pendingSerial?_cancelTimer_self s item.id
    rw [← table_cancelTimer s item.id] at hget
    dsimp only
    generalize s.cancelTimer item.id = s at hget hcoherent hnone ⊢
    have hstanding := standing?_of_get? hget
    split
    · next hbound =>
      obtain ⟨duty, hduty⟩ := isBound_iff.mp hbound
      refine .single (.stop hduty hstanding ?_ ⟨by simp, by simp⟩)
      exact hcoherent.wanted_of_duty? hduty hstanding hlive
    · next hbound =>
      have hfree : s.duty? item.id = none := by
        rwa [Bool.not_eq_true, isBound_eq_false_iff] at hbound
      split
      · exact .single (.delete hstanding hlive hfree hnone)
      · next hpartial =>
        rw [← standing?_discardPartial s item.id] at hstanding
        refine Relation.ReflTransGen.head
          (.discard hdiscard hget hfree hlive (by simpa using hpartial)) (.single ?_)
        refine .delete hstanding hlive ?_ ?_
        · rw [duty?_discardPartial, hfree]
        · rwa [pendingSerial?, pending_discardPartial]

theorem touches_deleteFinished (h : s.Coherent) : Touches may s s.deleteFinished.1 := by
  rw [deleteFinished]
  dsimp only
  rw [foldl_removed]
  split
  · next hnone =>
    -- nothing is complete, so nothing has left the table
    refine .single (.drop fun item hmem hgone => ?_)
    have hremoved : item ∈ (s.table.retain fun item => !item.status.isComplete).1 :=
      (Table.mem_removed _ _ _).mpr ⟨hmem, hgone⟩
    rw [List.isEmpty_iff.mp hnone] at hremoved
    cases hremoved
  · refine .single (.dropComplete fun item hmem hgone => ?_)
    have hcomplete : item.status.isComplete = true := by simpa using hgone
    exact ⟨hcomplete,
      h.duty?_eq_none (standing?_of_get? (h.sound.get?_of_mem hmem)) (.inr hcomplete)⟩

theorem touches_dropDeleted (s : Scheduler) : Touches may s s.dropDeleted.2 := by
  rw [dropDeleted_eq]
  exact .single (.drop fun _ _ hgone => of_lingers_eq_false hgone)

/-- Entries are dealt with one after another, each in a way that leaves the others alone. -/
theorem reach_foldl {move : Scheduler → Scheduler → Prop} {α : Type} {p : Scheduler → α → Prop}
    (key : α → ItemId) (step : Scheduler → α → Scheduler)
    (hstep : ∀ s a, p s a → Relation.ReflTransGen move s (step s a) ∧
      ∀ b, key b ≠ key a → p s b → p (step s a) b)
    (entries : List α) (hnodup : (entries.map key).Nodup) (hentries : ∀ a ∈ entries, p s a) :
    Relation.ReflTransGen move s (entries.foldl step s) := by
  induction entries generalizing s with
  | nil => exact Relation.ReflTransGen.refl
  | cons a rest ih =>
    rw [List.map_cons, List.nodup_cons] at hnodup
    obtain ⟨hreach, hothers⟩ := hstep s a (hentries a List.mem_cons_self)
    rw [List.foldl_cons]
    refine hreach.trans (ih hnodup.2 fun b hmem => ?_)
    have hne : key b ≠ key a := fun heq => hnodup.1 (heq ▸ List.mem_map_of_mem hmem)
    exact hothers b hne (hentries b (List.mem_cons_of_mem _ hmem))

/-- Every number in a part of the table is that of an item in the table. -/
theorem Coherent.stands_of_mem_filter (h : s.Coherent) {keep : Item → Bool} {p : Status → Prop}
    (hp : ∀ item, keep item = true → p item.status) {id : ItemId}
    (hmem : id ∈ (s.table.items.filter keep).map Item.id) : s.Stands p id := by
  obtain ⟨item, hitem, rfl⟩ := List.mem_map.mp hmem
  obtain ⟨hitem, hkept⟩ := List.mem_filter.mp hitem
  exact ⟨item.standing, standing?_of_get? (h.sound.get?_of_mem hitem), hp item hkept⟩

theorem Coherent.nodup_filter (h : s.Coherent) (keep : Item → Bool) :
    (((s.table.items.filter keep).map Item.id).map fun id => id).Nodup := by
  rw [List.map_id']
  exact h.sound.nodup.sublist (List.filter_sublist.map _)

theorem standing?_stop_of_ne (s : Scheduler) (reason : StopReason) (status : Status) {other : ItemId}
    (hne : other ≠ id) :
    ((s.stopTransfer id reason).setStatus id status).standing? other = s.standing? other := by
  rw [standing?_setStatus, if_neg hne]
  rfl

theorem standing?_setStatus_of_ne (s : Scheduler) (status : Status) {other : ItemId}
    (hne : other ≠ id) : (s.setStatus id status).standing? other = s.standing? other := by
  rw [standing?_setStatus, if_neg hne]

theorem touches_pauseOne (h : s.Stands (fun status => status = .queued ∨ status = .downloading) id) :
    Touches may s (s.pauseOne id) := by
  obtain ⟨standing, hstanding, hstatus⟩ := h
  have hwanted : standing.status.Wanted := hstatus.imp_right .inl
  rw [pauseOne]
  split
  · exact touches_stop hstanding hwanted ⟨by simp, by simp⟩ (by simp)
  · next hidle =>
    refine .single (.turn hstanding hwanted (.inr rfl) (.inr fun hrunning => hidle ?_))
    obtain ⟨item, hget, rfl⟩ := get?_of_standing? hstanding
    rw [hget]
    simpa using hrunning

theorem standing?_pauseOne_of_ne (s : Scheduler) {id other : ItemId} (hne : other ≠ id) :
    (s.pauseOne id).standing? other = s.standing? other := by
  rw [pauseOne]
  split
  · exact standing?_stop_of_ne s _ _ hne
  · exact standing?_setStatus_of_ne s _ hne

theorem touches_pauseAll (h : s.Coherent) : Touches may s s.pauseAll.1 := by
  refine reach_foldl (fun id => id) pauseOne ?_ _ (h.nodup_filter _)
    fun id hmem => h.stands_of_mem_filter
      (p := fun status => status = .queued ∨ status = .downloading)
      (fun item hkept => by simpa using hkept) hmem
  intro s id hstands
  exact ⟨touches_pauseOne hstands, fun other hne =>
    Stands.of_standing? (standing?_pauseOne_of_ne s hne)⟩

theorem touches_foldl_queue {ids : List ItemId} (hnodup : ids.Nodup)
    (hpaused : ∀ id ∈ ids, s.Stands (fun status => status = .paused) id) :
    Touches may s (ids.foldl (fun s id => s.setStatus id .queued) s) := by
  refine reach_foldl (fun id => id) _ ?_ _ ((List.map_id' ids).symm ▸ hnodup) hpaused
  rintro s id ⟨standing, hstanding, hpaused⟩
  refine ⟨.single ?_, fun other hne => Stands.of_standing? (standing?_setStatus_of_ne s _ hne)⟩
  exact .turn hstanding (.inr (.inr hpaused)) (.inl rfl) (.inr (by simp [hpaused]))

theorem touches_resumeAll (h : s.Coherent) : Touches may s s.resumeAll.1 := by
  rw [resumeAll]
  split
  · exact touches_refl s
  · refine Touches.tick (touches_foldl_queue ?_ ?_) h.sound
    · exact h.sound.nodup.sublist (List.filter_sublist.map _)
    · exact fun id hmem => h.stands_of_mem_filter (p := fun status => status = .paused)
        (fun item hkept => by simpa using hkept) hmem

theorem running_eq (s : Scheduler) :
    s.running = (s.duties.filter fun duty => duty.stop.isNone).map Duty.id := by
  rw [running, duties, List.filter_map, List.map_map]
  rfl

theorem running_requeue (s : Scheduler) (id : ItemId) :
    (s.requeue id).running = s.running.filter fun other => other ≠ id := by
  have hduties : (s.requeue id).duties = (s.stopTransfer id .requeue).duties := by
    rw [requeue, setStatus_eq]
    rfl
  rw [running_eq, running_eq, hduties, duties_stopTransfer]
  induction s.duties with
  | nil => rfl
  | cons duty rest ih =>
    by_cases heq : duty.id = id
    · cases hstop : duty.stop <;> simp_all [Duty.stopped]
    · cases hstop : duty.stop <;> simp_all

theorem running_foldl_requeue (ids : List ItemId) (s : Scheduler) :
    (ids.foldl requeue s).running = s.running.filter fun other => other ∉ ids := by
  induction ids generalizing s with
  | nil => exact (List.filter_eq_self.mpr (by simp)).symm
  | cons id ids ih =>
    rw [List.foldl_cons, ih, running_requeue, List.filter_filter]
    refine List.filter_congr fun other _ => ?_
    simp [Bool.and_comm]

/-- Without its first entries, a list without repetition is the rest. -/
theorem filter_not_mem_take {α : Type} [DecidableEq α] (entries : List α) (hnodup : entries.Nodup)
    (n : Nat) : (entries.filter fun a => a ∉ entries.take n) = entries.drop n := by
  have hsplit := List.take_append_drop n entries
  have happ : ((entries.take n ++ entries.drop n).filter fun a => a ∉ entries.take n) =
      entries.drop n := by
    rw [← hsplit, List.nodup_append] at hnodup
    rw [List.filter_append, List.filter_eq_nil_iff.mpr (by simp), List.nil_append,
      List.filter_eq_self]
    intro a hmem
    rw [decide_eq_true_eq]
    exact fun htaken => hnodup.2.2 a htaken a hmem rfl
  rwa [hsplit] at happ

theorem Coherent.nodup_reverse_running (h : s.Coherent) : s.running.reverse.Nodup := by
  rw [List.nodup_reverse, running_eq]
  exact h.nodup.sublist (List.filter_sublist.map _)

theorem Coherent.nodup_excess (h : s.Coherent) (limit : UInt64) : (s.excess limit).Nodup :=
  h.nodup_reverse_running.sublist (List.take_sublist _ _)

theorem length_running_excess (h : s.Coherent) (limit : UInt64) :
    ((s.excess limit).foldl requeue s).running.length ≤ limit.toNat := by
  rw [running_foldl_requeue, ← List.length_reverse, ← List.filter_reverse, excess,
    filter_not_mem_take _ h.nodup_reverse_running, List.length_drop, List.length_reverse]
  omega

theorem requeue_withLimit (s : Scheduler) (limit : UInt64) (id : ItemId) :
    ({ s with maxConcurrent := limit } : Scheduler).requeue id =
      { s.requeue id with maxConcurrent := limit } := by
  have hget : ({ s with maxConcurrent := limit }.stopTransfer id .requeue).table.get? id =
      (s.stopTransfer id .requeue).table.get? id := rfl
  rw [requeue, requeue, setStatus, setStatus, hget]
  split
  · rfl
  · split <;> rfl

theorem foldl_requeue_withLimit (ids : List ItemId) (s : Scheduler) (limit : UInt64) :
    ids.foldl requeue { s with maxConcurrent := limit } =
      { ids.foldl requeue s with maxConcurrent := limit } := by
  induction ids generalizing s with
  | nil => rfl
  | cons id ids ih => rw [List.foldl_cons, List.foldl_cons, requeue_withLimit, ih]

theorem Coherent.stands_of_mem_running (h : s.Coherent) {id : ItemId} (hmem : id ∈ s.running) :
    s.Stands (fun status => status = .downloading) id := by
  rw [running_eq] at hmem
  obtain ⟨duty, hduty, rfl⟩ := List.mem_map.mp hmem
  obtain ⟨hduty, hrunning⟩ := List.mem_filter.mp hduty
  have hfound := h.duty?_of_mem hduty
  obtain ⟨standing, hstanding, -⟩ := h.fits _ _ hfound
  exact ⟨standing, hstanding,
    h.status_of_stop_eq_none hfound hstanding (Option.isNone_iff_eq_none.mp hrunning)⟩

theorem touches_foldl_requeue (h : s.Coherent) (limit : UInt64) :
    Touches may s ((s.excess limit).foldl requeue s) := by
  have hsub : s.excess limit ⊆ s.running := fun id hmem =>
    List.mem_reverse.mp (List.mem_of_mem_take hmem)
  refine reach_foldl (fun id => id) requeue ?_ _ ?_ fun id hmem => h.stands_of_mem_running (hsub hmem)
  · rintro s id ⟨standing, hstanding, hrunning⟩
    exact ⟨touches_stop hstanding (.inr (.inl hrunning)) ⟨by simp, by simp⟩ (by simp),
      fun other hne => Stands.of_standing? (standing?_stop_of_ne s _ _ hne)⟩
  · rw [List.map_id']
    exact h.nodup_excess limit

theorem touches_setMaxConcurrent (h : s.Coherent) (limit : UInt64) :
    Touches may s (s.setMaxConcurrent limit).1 := by
  rw [setMaxConcurrent]
  split
  · exact touches_refl s
  · next hpositive =>
    split
    · exact touches_refl s
    · dsimp only
      split
      · next hraised =>
        have hlimit : Touches may s { s with maxConcurrent := limit } :=
          .single (.relimit (.inr hraised) hpositive)
        exact hlimit.tick h.sound
      · change Touches may s ((s.excess limit).foldl requeue { s with maxConcurrent := limit })
        rw [foldl_requeue_withLimit]
        refine (touches_foldl_requeue h limit).tail (.relimit (.inl ?_) hpositive)
        exact length_running_excess h limit

theorem touches_setAutoDownload (h : s.table.Sound) (enabled : Bool) :
    Touches may s (s.setAutoDownload enabled).1 := by
  have hauto : Touches may s { s with autoDownload := enabled } := .single (.automate s enabled)
  rw [setAutoDownload]
  split
  · exact touches_refl s
  · dsimp only
    split
    · exact hauto.tick h
    · exact hauto

theorem touches_onItem (id : ItemId) {operation : Item → Step Verdict}
    (hoperation : ∀ item, item.id = id → s.table.get? item.id = some item →
      Touches may s (operation item).scheduler) :
    Touches may s (s.onItem id operation).scheduler := by
  rw [onItem]
  split
  · exact touches_refl s
  · next item hget =>
    have hid := Table.id_of_get? hget
    exact hoperation item hid (hid.symm ▸ hget)

/-- Every command comes to touches that it warrants. -/
theorem touches_apply (h : s.Coherent) {command : Command}
    (hmay : ∀ cause, command.Warrants cause → may cause) :
    Touches may s (s.apply command).scheduler := by
  cases command with
  | pause id => exact touches_onItem id fun item _ hget => touches_pause hget
  | resume id => exact touches_onItem id fun item _ hget => touches_resume h.sound hget
  | retry id =>
    refine touches_onItem id fun item hid hget => touches_retry h (hmay (.again item.id) ?_) hget
    exact congrArg Command.retry hid.symm
  | cancel id =>
    have hdiscard := hmay .discard ⟨id, .inl rfl⟩
    exact touches_onItem id fun item _ hget => touches_cancel h.sound hdiscard hget
  | delete id =>
    have hdiscard := hmay .discard ⟨id, .inr rfl⟩
    exact touches_onItem id fun item _ hget => touches_delete h hdiscard hget
  | deleteFinished => exact touches_deleteFinished h
  | purge => exact touches_dropDeleted s
  | pauseAll => exact touches_pauseAll h
  | resumeAll => exact touches_resumeAll h
  | setMaxConcurrent limit => exact touches_setMaxConcurrent h limit
  | setAutoDownload enabled => exact touches_setAutoDownload h.sound enabled

theorem scheduler_dispatch (s : Scheduler) (command : Command) (ended : List ItemId) :
    (s.dispatch command ended).scheduler = (s.apply command).scheduler := by
  rw [dispatch, Step.andThen]
  split <;> rfl

theorem alike_publish (s : Scheduler) : Alike s s.publish.scheduler := by
  rw [publish]
  split <;> constructor <;> rfl

theorem touches_publish (s : Scheduler) : Touches may s s.publish.scheduler := by
  rw [publish]
  split
  · exact touches_refl s
  · next snapshot hsnapshot => exact .single (.publish hsnapshot)

theorem touches_tellFailure (s : Scheduler) (error : PersistenceError) :
    Touches may s (s.tellFailure error) := by
  refine .single (.tell s _ trivial ?_)
  rintro _ ⟨⟩

/-- To write the queue file is all that a commit does to the table, but for the deleted items that
leave. -/
theorem touches_commit (hmay : may .save) (s : Scheduler) : Touches may s s.commit.scheduler := by
  have hsave : Touches may s s.saveChanges := by
    have hpersist : Touches may s s.persist.1 := .single (.persist hmay s)
    rw [saveChanges]
    split
    · split
      · next saved hsaved =>
        rw [hsaved] at hpersist
        exact dropDeleted_eq _ ▸ hpersist.tail (.sweep hmay saved)
      · next saved error hsaved =>
        rw [hsaved] at hpersist
        exact hpersist.trans (touches_tellFailure saved error)
    · exact touches_refl s
  exact hsave.trans (touches_publish _)

inductive Operation
  | enqueue (url : String) (destination : Path)
  | addText (text : String)
  | dispatch (command : Command) (ended : List ItemId)
  | retry (id : ItemId)
  | tick
  | commit

def operate (s : Scheduler) : Operation → Scheduler
  | .enqueue url destination => (s.enqueue url destination).scheduler
  | .addText text => (s.addAll (TextQueue.parse text).entries).scheduler
  | .dispatch command ended => (s.dispatch command ended).scheduler
  | .retry id => (s.handleRetry id).scheduler
  | .tick => s.tick
  | .commit => s.commit.scheduler

/-- What an operation may bring about. -/
def Operation.Warrants : Operation → Cause → Prop
  | .enqueue _ _, cause | .addText _, cause => cause = .add
  | .dispatch command _, cause => command.Warrants cause
  | .retry id, cause => cause = .again id
  | .tick, _ => False
  | .commit, cause => cause = .save

/-- An operation is a sequence of touches, whatever was heard of workers. -/
theorem touches_operate (h : s.Coherent) {operation : Operation}
    (hmay : ∀ cause, operation.Warrants cause → may cause) :
    Touches may s (s.operate operation) := by
  cases operation with
  | enqueue url destination => exact touches_enqueue h.sound (hmay .add rfl) url destination
  | addText text =>
    exact touches_addAll h.sound (hmay .add rfl) _ fun entry hmem => TextQueue.plain_of_mem_parse hmem
  | dispatch command ended =>
    change Touches may s (s.dispatch command ended).scheduler
    rw [scheduler_dispatch]
    exact touches_apply h hmay
  | retry id => exact touches_handleRetry h (hmay (.again id) rfl)
  | tick => exact touches_tick h.sound
  | commit => exact touches_commit (hmay .save rfl) s

theorem chain_foldl_queue {ids : List ItemId} (hnodup : ids.Nodup)
    (hpaused : ∀ id ∈ ids, s.Stands (fun status => status = .paused) id) :
    Chain heard s (ids.foldl (fun s id => s.setStatus id .queued) s) :=
  Touches.chain (touches_foldl_queue hnodup hpaused)

theorem chain_foldl_requeue (h : s.Coherent) (limit : UInt64) :
    Chain heard s ((s.excess limit).foldl requeue s) :=
  Touches.chain (touches_foldl_requeue h limit)

theorem chain_operate (h : s.Coherent) (operation : Operation) :
    Chain heard s (s.operate operation) := by
  refine Touches.chain (touches_operate h fun cause hcause => ?_)
  cases cause with
  | hear => cases operation <;> cases hcause
  | _ => trivial

theorem chain_dispatch (h : s.Coherent) (command : Command) (ended : List ItemId) :
    Chain heard s (s.dispatch command ended).scheduler :=
  chain_operate h (.dispatch command ended)

theorem chain_apply (h : s.Coherent) (command : Command) :
    Chain heard s (s.apply command).scheduler :=
  scheduler_dispatch s command [] ▸ chain_dispatch h command []

theorem chain_commit (s : Scheduler) : Chain heard s s.commit.scheduler :=
  Touches.chain (touches_commit trivial s)

end Scheduler

end DownloadQueue
