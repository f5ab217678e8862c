import DownloadQueue.Proofs.QueueFile
import DownloadQueue.Proofs.Rounds
import DownloadQueue.Proofs.Strokes

/-!
# Free slots are used

After every round of the control loop a free slot means that no queued item waits for a worker. An
admission leaves it so. Other changes are calm: they neither free a slot nor make an item ready, and
wherever one of them is not, an admission follows.
-/

namespace DownloadQueue

namespace Scheduler

variable {s t u : Scheduler} {id other : ItemId}

/-- If a worker may be admitted, no item is ready for one. -/
def Saturated (s : Scheduler) : Prop :=
  s.autoDownload = true → s.shuttingDown = false →
    s.active.length < s.maxConcurrent.toNat → ∀ id, ¬ s.Ready id

theorem saturated_of_shuttingDown (h : s.shuttingDown = true) : s.Saturated := by
  intro _ hopen
  rw [h] at hopen
  cases hopen

theorem ready_startTransfer_iff (h : s.Ready id) :
    (s.startTransfer id).Ready other ↔ other ≠ id ∧ s.Ready other := by
  obtain ⟨⟨standing, hstanding, -⟩, hfree⟩ := h
  obtain ⟨item, hget, rfl⟩ := get?_of_standing? hstanding
  rw [Ready, standing?_startTransfer hget, duty?_startTransfer hget hfree]
  by_cases heq : other = id
  · simp [heq]
  · simp [heq, Ready]

theorem maxConcurrent_startTransfer (s : Scheduler) (id : ItemId) :
    (s.startTransfer id).maxConcurrent = s.maxConcurrent := by
  rw [startTransfer]
  split
  · rfl
  · rw [maxConcurrent_setStatus]

theorem maxConcurrent_fillSlots (ids : List ItemId) (s : Scheduler) :
    (s.fillSlots ids).maxConcurrent = s.maxConcurrent := by
  induction ids generalizing s with
  | nil => rfl
  | cons id ids ih =>
    rw [fillSlots]
    split
    · rfl
    · rw [ih, maxConcurrent_startTransfer]

/-- Where slots are left over, all that were to be admitted were. -/
theorem ready_fillSlots (ids : List ItemId) (hnodup : ids.Nodup) (hids : ∀ id ∈ ids, s.Ready id)
    (hroom : (s.fillSlots ids).active.length < s.maxConcurrent.toNat)
    (hready : (s.fillSlots ids).Ready other) : s.Ready other ∧ other ∉ ids := by
  induction ids generalizing s with
  | nil => exact ⟨hready, List.not_mem_nil⟩
  | cons id ids ih =>
    rw [fillSlots] at hroom hready
    split at hroom
    · next hfull => omega
    · next hslot =>
      rw [if_neg hslot] at hready
      rw [List.nodup_cons] at hnodup
      have hid := hids id List.mem_cons_self
      have hrest : ∀ other ∈ ids, (s.startTransfer id).Ready other := by
        intro other hmem
        rw [ready_startTransfer_iff hid]
        exact ⟨fun heq => hnodup.1 (heq ▸ hmem), hids other (List.mem_cons_of_mem id hmem)⟩
      rw [← maxConcurrent_startTransfer s id] at hroom
      obtain ⟨hstarted, hnew⟩ := ih hnodup.2 hrest hroom hready
      obtain ⟨hne, hbefore⟩ := (ready_startTransfer_iff hid).mp hstarted
      exact ⟨hbefore, List.not_mem_cons_of_ne_of_not_mem hne hnew⟩

theorem mem_candidates_of_ready (h : s.Ready id) : id ∈ s.candidates := by
  obtain ⟨⟨standing, hstanding, hqueued⟩, hfree⟩ := h
  obtain ⟨item, hget, rfl⟩ := get?_of_standing? hstanding
  obtain rfl := Table.id_of_get? hget
  refine List.mem_map_of_mem (List.mem_filter.mpr ⟨Table.mem_of_get? hget, ?_⟩)
  rw [isBound_eq_false_iff.mpr hfree]
  simpa using hqueued

/-- An admission leaves no ready item beside a free slot. -/
theorem saturated_tick (h : s.table.Sound) : s.tick.Saturated := by
  intro hauto hopen hroom other hready
  rw [tick] at hauto hopen hroom hready
  split at hready
  · next hclosed =>
    rw [if_pos hclosed] at hauto hopen
    simp [hauto, hopen] at hclosed
  · next hadmits =>
    rw [if_neg hadmits, maxConcurrent_fillSlots] at hroom
    obtain ⟨hbefore, hnew⟩ := ready_fillSlots s.candidates (nodup_candidates h.nodup)
      (fun id hmem => ready_of_mem_candidates h.nodup hmem) hroom hready
    exact hnew (mem_candidates_of_ready hbefore)

theorem saturated_chain_tick (h : s.Coherent) (hchain : Chain (fun _ _ => True) s t) :
    t.tick.Saturated :=
  saturated_tick (hchain.coherent h).sound

structure Calm (s t : Scheduler) : Prop where
  autoDownload : t.autoDownload = true → s.autoDownload = true
  shuttingDown : t.shuttingDown = false → s.shuttingDown = false
  full : s.maxConcurrent.toNat ≤ s.active.length → t.maxConcurrent.toNat ≤ t.active.length
  ready : ∀ id, t.Ready id → s.Ready id

theorem Calm.refl (s : Scheduler) : Calm s s :=
  ⟨fun h => h, fun h => h, fun h => h, fun _ h => h⟩

theorem Calm.trans (h : Calm s t) (h' : Calm t u) : Calm s u where
  autoDownload hauto := h.autoDownload (h'.autoDownload hauto)
  shuttingDown hopen := h.shuttingDown (h'.shuttingDown hopen)
  full hfull := h'.full (h.full hfull)
  ready id hready := h.ready id (h'.ready id hready)

theorem Calm.saturated (hcalm : Calm s t) (h : s.Saturated) : t.Saturated := by
  intro hauto hopen hroom id hready
  have hroomBefore : s.active.length < s.maxConcurrent.toNat := by
    by_contra hfull
    have := hcalm.full (Nat.le_of_not_lt hfull)
    omega
  exact h (hcalm.autoDownload hauto) (hcalm.shuttingDown hopen) hroomBefore id
    (hcalm.ready id hready)

theorem length_duties (s : Scheduler) : s.duties.length = s.active.length :=
  List.length_map Binding.duty

theorem calm_of_alike (h : Alike s t) (hauto : t.autoDownload = s.autoDownload) : Calm s t where
  autoDownload hon := hauto ▸ hon
  shuttingDown hopen := h.shuttingDown ▸ hopen
  full hfull := by rwa [h.maxConcurrent, ← length_duties, h.duties, length_duties]
  ready id hready := by rwa [Ready, h.standing?, h.duty?] at hready

theorem calm_stopTransfer (s : Scheduler) (id : ItemId) (reason : StopReason) :
    Calm s (s.stopTransfer id reason) where
  autoDownload hauto := hauto
  shuttingDown hopen := hopen
  full hfull := by rwa [← length_duties, duties_stopTransfer, List.length_map, length_duties]
  ready other hready := by
    rw [Ready, duty?_stopTransfer] at hready
    refine ⟨hready.1, ?_⟩
    by_cases heq : other = id
    · rw [if_pos heq, Option.map_eq_none_iff] at hready
      exact heq ▸ hready.2
    · rw [if_neg heq] at hready
      exact hready.2

theorem autoDownload_setStatus (s : Scheduler) (id : ItemId) (status : Status) :
    (s.setStatus id status).autoDownload = s.autoDownload := by
  rw [setStatus_eq]

/-- An item that gets another status than queued is not ready, nor is one that has a worker. -/
theorem calm_setStatus {status : Status} (h : status ≠ .queued ∨ s.duty? id ≠ none) :
    Calm s (s.setStatus id status) where
  autoDownload hauto := autoDownload_setStatus s id status ▸ hauto
  shuttingDown hopen := shuttingDown_setStatus s id status ▸ hopen
  full hfull := by
    rwa [maxConcurrent_setStatus, ← length_duties, duties_setStatus, length_duties]
  ready other hready := by
    obtain ⟨⟨standing, hstanding, hqueued⟩, hfree⟩ := hready
    rw [duty?_setStatus] at hfree
    by_cases heq : other = id
    · subst heq
      rw [status_of_standing?_setStatus hstanding] at hqueued
      exact absurd hfree (h.resolve_left fun hother => hother hqueued)
    · rw [standing?_setStatus_of_ne s status heq] at hstanding
      exact ⟨⟨standing, hstanding, hqueued⟩, hfree⟩

theorem calm_discardPartial (s : Scheduler) (id : ItemId) : Calm s (s.discardPartial id) where
  autoDownload hauto := by
    rw [discardPartial] at hauto
    split at hauto <;> exact hauto
  shuttingDown hopen := shuttingDown_discardPartial s id ▸ hopen
  full hfull := by
    rwa [maxConcurrent_discardPartial, ← length_duties, duties_discardPartial, length_duties]
  ready other hready := by
    rwa [Ready, standing?_discardPartial, duty?_discardPartial] at hready

theorem calm_cancelTimer (s : Scheduler) (id : ItemId) : Calm s (s.cancelTimer id) := by
  refine calm_of_alike (alike_cancelTimer s id) ?_
  rw [cancelTimer]
  split <;> rfl

theorem calm_foldl_emit {α : Type} (event : α → Event) (entries : List α) (s : Scheduler) :
    Calm s (entries.foldl (fun s a => s.emit (event a)) s) := by
  refine calm_of_alike (alike_foldl_emit event entries s) ?_
  induction entries generalizing s with
  | nil => rfl
  | cons first rest ih => exact ih (s.emit (event first))

theorem calm_retain (h : s.Coherent) (keep : Item → Bool) (event : Item → Event) :
    Calm s ((s.table.retain keep).1.foldl (fun s item => s.emit (event item))
      { s with table := (s.table.retain keep).2 }) := by
  have hdrop : Calm s { s with table := (s.table.retain keep).2 } := by
    refine ⟨fun hauto => hauto, fun hopen => hopen, fun hfull => hfull, ?_⟩
    rintro id ⟨⟨standing, hstanding, hqueued⟩, hfree⟩
    refine ⟨⟨standing, ?_, hqueued⟩, hfree⟩
    rw [Table.retain, h.standing?_filter keep id] at hstanding
    obtain ⟨item, hitem, rfl⟩ := Option.map_eq_some_iff.mp hstanding
    exact standing?_of_get? (Option.filter_eq_some_iff.mp hitem).1
  exact hdrop.trans (calm_foldl_emit event _ _)

/-- Deleted items that leave have no worker, so nobody is waited for in their place. -/
theorem calm_commit (h : s.Coherent) : Calm s s.commit.scheduler := by
  have hpublish (t : Scheduler) : Calm t t.publish.scheduler := by
    refine calm_of_alike (alike_publish t) ?_
    rw [publish]
    split <;> rfl
  refine Calm.trans ?_ (hpublish s.saveChanges)
  rw [saveChanges]
  split
  · next hdirty =>
    have hpersist : Calm s s.persist.1 := ⟨fun h => h, fun h => h, fun h => h, fun _ h => h⟩
    have hsave : Chain (fun _ _ => True) s s.persist.1 := .single (.save s)
    have hcoherent := hsave.coherent h
    split
    · next saved hsaved =>
      rw [hsaved] at hpersist hcoherent
      have hclean : Calm saved { saved with dirty := false } :=
        ⟨fun h => h, fun h => h, fun h => h, fun _ h => h⟩
      refine (hpersist.trans hclean).trans (calm_retain ?_ _ fun item => .removed item.id)
      exact ⟨hcoherent.sound, hcoherent.nodup, hcoherent.fits⟩
    · next saved error hsaved =>
      rw [hsaved] at hpersist
      exact hpersist.trans (calm_of_alike (alike_emit _ _) rfl)
  · exact Calm.refl s

theorem calm_handleProgress (s : Scheduler) (id : ItemId) (progress : Progress) :
    Calm s (s.handleProgress id progress) := by
  refine calm_of_alike (alike_handleProgress s id progress) ?_
  rw [handleProgress]
  split
  · rfl
  · split
    · rfl
    · split
      · rfl
      · split <;> rfl

/-- An ending frees a slot, and the admissions that follow fill it. -/
theorem saturated_handleEnding (h : s.Orderly) (hsaturated : s.Saturated) {id : ItemId}
    {ending : Ending} (hdone : s.handleEnding id ending = .done u ()) : u.Saturated := by
  rw [handleEnding] at hdone
  split at hdone
  · obtain ⟨rfl, -⟩ := Step.eq_done_iff.mp hdone
    exact hsaturated
  · next binding hbinding =>
    have hduty : s.duty? id = some binding.duty := by rw [duty?, hbinding]; rfl
    have hchain : Chain (fun _ _ => True) s _ := chain_settle hduty ending trivial
    obtain ⟨v, ⟨⟩, hsettled, hticked⟩ := Step.andThen_eq_done.mp hdone
    rw [Binding.duty_stop, hsettled] at hchain
    obtain ⟨rfl, -⟩ := Step.eq_done_iff.mp hticked
    exact saturated_chain_tick h.coherent hchain

theorem saturated_handleMessage (h : s.Orderly) (hsaturated : s.Saturated) {message : Message}
    (hdone : s.handleMessage message = .done u ()) : u.Saturated := by
  rw [handleMessage] at hdone
  split at hdone
  · obtain ⟨rfl, -⟩ := Step.eq_done_iff.mp hdone
    exact (calm_handleProgress s _ _).saturated hsaturated
  · exact saturated_handleEnding h hsaturated hdone

theorem saturated_drain (h : s.Orderly) (hsaturated : s.Saturated) {ended : List ItemId}
    (hdrain : s.drain = .done u ended) : u.Saturated := by
  have hboth : u.Orderly ∧ u.Saturated := by
    refine drain_induction (p := fun s => s.Orderly ∧ s.Saturated) ?_ ?_ hdrain ⟨h, hsaturated⟩
    · exact fun s inbox hs => ⟨orderly_inbox hs.1 inbox, hs.2⟩
    · exact fun s u message hs hdone =>
        ⟨orderly_handleMessage hs.1 hdone, saturated_handleMessage hs.1 hs.2 hdone⟩
  exact hboth.2

/-- An item that is tried again is queued, and then workers are admitted. -/
theorem saturated_tryAgain (h : s.table.Sound) {item : Item}
    (hdone : s.tryAgain id item = .done u ()) : u.Saturated := by
  rw [tryAgain] at hdone
  split at hdone
  · cases congrArg Step.result hdone
  · next attempts _ =>
    obtain ⟨rfl, -⟩ := Step.eq_done_iff.mp hdone
    have hnote : Alike s (s.modifyItem id fun item => { item with attempts }) :=
      alike_modifyItem s id _ fun _ => rfl
    exact saturated_tick (sound_setStatus (h.of_ids hnote.ids hnote.nextId) id .queued)

/-- An item that is tried again is ready, and the admissions that follow look for a slot. -/
theorem saturated_handleRetry (h : s.table.Sound) (hsaturated : s.Saturated)
    (hdone : s.handleRetry id = .done u ()) : u.Saturated := by
  have hcalm : Calm s (s.forgetTimer id) := calm_of_alike (alike_forgetTimer s id) rfl
  rw [handleRetry] at hdone
  split at hdone
  · obtain ⟨rfl, -⟩ := Step.eq_done_iff.mp hdone
    exact hcalm.saturated hsaturated
  · next item hget =>
    split at hdone
    · exact saturated_tryAgain (s := s.forgetTimer id) h hdone
    · obtain ⟨rfl, -⟩ := Step.eq_done_iff.mp hdone
      exact hcalm.saturated hsaturated

/-- So is one that is added. -/
theorem saturated_enqueue (h : s.Orderly) (hsaturated : s.Saturated) {url : String}
    {destination : Path} {result : Except QueueError ItemId}
    (hdone : s.enqueue url destination = .done u result) : u.Saturated := by
  rw [enqueue] at hdone
  split at hdone
  · obtain ⟨rfl, -⟩ := Step.eq_done_iff.mp hdone
    exact hsaturated
  · next resolved hnew =>
    have hchain : Chain (fun _ _ => True) s (s.addItem url resolved none).scheduler :=
      chain_addItem h.coherent url hnew (.inl rfl)
    obtain ⟨v, id, hadded, hticked⟩ := Step.andThen_eq_done.mp hdone
    rw [hadded] at hchain
    obtain ⟨rfl, -⟩ := Step.eq_done_iff.mp hticked
    exact saturated_chain_tick h.coherent (hchain.trans (Chain.note (alike_markDirty v)))

/-- If none of the entries was added, nothing has happened. -/
theorem addEntries_eq_done {entries : List TextQueue.Entry} {count added : Nat}
    (h : s.addEntries count entries = .done u added) : count ≤ added ∧ (added = count → u = s) := by
  induction entries generalizing s count with
  | nil =>
    obtain ⟨rfl, hcount⟩ := Step.eq_done_iff.mp h
    cases hcount
    exact ⟨Nat.le_refl _, fun _ => rfl⟩
  | cons entry entries ih =>
    rw [addEntries] at h
    split at h
    · exact ih h
    · obtain ⟨v, id, -, hrest⟩ := Step.andThen_eq_done.mp h
      have hle := (ih hrest).1
      exact ⟨by omega, fun heq => by omega⟩

theorem saturated_addAll (h : s.Orderly) (hsaturated : s.Saturated)
    {entries : List TextQueue.Entry} (hplain : ∀ entry ∈ entries, entry.Plain) {count : Nat}
    (hdone : s.addAll entries = .done u count) : u.Saturated := by
  have hchain : Chain (fun _ _ => True) s (s.addEntries 0 entries).scheduler :=
    chain_addEntries h.coherent 0 entries hplain
  obtain ⟨v, added, hadded, hrest⟩ := Step.andThen_eq_done.mp hdone
  rw [hadded] at hchain
  obtain ⟨rfl, -⟩ := Step.eq_done_iff.mp hrest
  change (if 0 < added then v.markDirty.tick else v).Saturated
  by_cases hsome : 0 < added
  · rw [if_pos hsome]
    exact saturated_chain_tick h.coherent (hchain.trans (Chain.note (alike_markDirty v)))
  · rw [if_neg hsome, (addEntries_eq_done hadded).2 (by omega)]
    exact hsaturated

variable {item : Item}

theorem saturated_pause (hsaturated : s.Saturated) : (s.pause item).1.Saturated := by
  rw [pause]
  split
  · exact ((calm_stopTransfer s item.id .pause).trans (calm_setStatus (.inl (by simp)))).saturated
      hsaturated
  · exact (calm_setStatus (.inl (by simp))).saturated hsaturated
  · exact hsaturated
  · exact hsaturated

theorem saturated_resume (h : s.table.Sound) (hsaturated : s.Saturated) :
    (s.resume item).1.Saturated := by
  rw [resume]
  split
  · exact saturated_tick (sound_setStatus h item.id .queued)
  · exact hsaturated
  · exact hsaturated
  · exact hsaturated

theorem saturated_retry (h : s.table.Sound) (hsaturated : s.Saturated) {verdict : Verdict}
    (hdone : s.retry item = .done u verdict) : u.Saturated := by
  rw [retry] at hdone
  split at hdone
  · obtain ⟨v, ⟨⟩, hagain, hsame⟩ := Step.andThen_eq_done.mp hdone
    obtain ⟨rfl, -⟩ := Step.eq_done_iff.mp hsame
    rw [← table_cancelTimer s item.id] at h
    exact saturated_tryAgain h hagain
  · obtain ⟨rfl, -⟩ := Step.eq_done_iff.mp hdone
    exact hsaturated

theorem Orderly.duty?_ne_none (h : s.Orderly) (hget : s.table.get? id = some item)
    (hdownloading : item.status = .downloading) : s.duty? id ≠ none := by
  obtain ⟨duty, hduty, -⟩ := h.live id item.standing (standing?_of_get? hget) hdownloading
  simp [hduty]

theorem saturated_cancel_waiting (h : s.table.Sound) (id : ItemId) :
    ((if s.isBound id then s.stopTransfer id .cancel else s.discardPartial id).setStatus id
      .queued).tick.Saturated := by
  refine saturated_tick (sound_setStatus ?_ id .queued)
  split
  · exact h
  · exact sound_discardPartial h id

/-- A running transfer that is cancelled keeps its slot until its worker has ended. -/
theorem saturated_cancel (h : s.Orderly) (hsaturated : s.Saturated)
    (hget : s.table.get? item.id = some item) : (s.cancel item).1.Saturated := by
  rw [cancel]
  split
  · next hdownloading =>
    refine ((calm_stopTransfer s item.id .cancel).trans (calm_setStatus (.inr ?_))).saturated
      hsaturated
    rw [duty?_stopTransfer, if_pos rfl, ne_eq, Option.map_eq_none_iff]
    exact h.duty?_ne_none hget hdownloading
  · exact saturated_cancel_waiting h.coherent.sound item.id
  · exact saturated_cancel_waiting h.coherent.sound item.id
  · exact hsaturated

/-- To delete an item makes nobody ready; a slot becomes free only when its worker has ended. -/
theorem saturated_delete (hsaturated : s.Saturated) : (s.delete item).1.Saturated := by
  rw [delete]
  split
  · exact hsaturated
  · refine Calm.saturated ((calm_cancelTimer s item.id).trans ?_) hsaturated
    dsimp only
    generalize s.cancelTimer item.id = s
    refine Calm.trans ?_ (calm_setStatus (.inl (by simp)))
    split
    · exact calm_stopTransfer s item.id .delete
    · split
      · exact Calm.refl s
      · exact calm_discardPartial s item.id

theorem saturated_deleteFinished (h : s.Coherent) (hsaturated : s.Saturated) :
    s.deleteFinished.1.Saturated := by
  have hcalm := calm_retain h (fun item => !item.status.isComplete) fun item => .removed item.id
  rw [deleteFinished]
  dsimp only
  split
  · exact hcalm.saturated hsaturated
  · exact (hcalm.trans (calm_of_alike (alike_markDirty _) rfl)).saturated hsaturated

theorem calm_foldl (step : Scheduler → ItemId → Scheduler) (hstep : ∀ s id, Calm s (step s id))
    (ids : List ItemId) (s : Scheduler) : Calm s (ids.foldl step s) := by
  induction ids generalizing s with
  | nil => exact Calm.refl s
  | cons id ids ih => exact (hstep s id).trans (ih (step s id))

theorem saturated_pauseAll (hsaturated : s.Saturated) : s.pauseAll.1.Saturated := by
  refine (calm_foldl pauseOne (fun s id => ?_) _ s).saturated hsaturated
  rw [pauseOne]
  refine Calm.trans ?_ (calm_setStatus (.inl (by simp)))
  split
  · exact calm_stopTransfer s id .pause
  · exact Calm.refl s

theorem saturated_resumeAll (h : s.table.Sound) (hsaturated : s.Saturated) :
    s.resumeAll.1.Saturated := by
  have hfold (ids : List ItemId) (t : Scheduler) (ht : t.table.Sound) :
      (ids.foldl (fun s id => s.setStatus id .queued) t).table.Sound := by
    induction ids generalizing t with
    | nil => exact ht
    | cons id ids ih => exact ih _ (sound_setStatus ht id .queued)
  rw [resumeAll]
  split
  · exact hsaturated
  · exact saturated_tick (hfold _ s h)

theorem duty?_requeue_ne_none (h : s.duty? other ≠ none) : (s.requeue id).duty? other ≠ none := by
  rw [requeue, duty?_setStatus, duty?_stopTransfer]
  by_cases heq : other = id
  · rw [if_pos heq, ne_eq, Option.map_eq_none_iff]
    exact heq ▸ h
  · rwa [if_neg heq]

/-- Transfers that are pushed back keep their slots until their workers have ended. -/
theorem calm_foldl_requeue (ids : List ItemId) (hbound : ∀ id ∈ ids, s.duty? id ≠ none) :
    Calm s (ids.foldl requeue s) := by
  induction ids generalizing s with
  | nil => exact Calm.refl s
  | cons id ids ih =>
    have hrequeue : Calm s (s.requeue id) := by
      refine (calm_stopTransfer s id .requeue).trans (calm_setStatus (.inr ?_))
      rw [duty?_stopTransfer, if_pos rfl, ne_eq, Option.map_eq_none_iff]
      exact hbound id List.mem_cons_self
    refine hrequeue.trans (ih fun other hmem => ?_)
    exact duty?_requeue_ne_none (hbound other (List.mem_cons_of_mem id hmem))

theorem duty?_ne_none_of_mem_excess {limit : UInt64} (hmem : id ∈ s.excess limit) :
    s.duty? id ≠ none := by
  have hrunning : id ∈ s.running := List.mem_reverse.mp (List.mem_of_mem_take hmem)
  rw [running_eq] at hrunning
  obtain ⟨duty, hduty, rfl⟩ := List.mem_map.mp hrunning
  intro hnone
  exact duty?_eq_none_iff.mp hnone (List.mem_map_of_mem (List.mem_of_mem_filter hduty))

/-- A higher limit is filled at once, and a lower one has no slot to fill. -/
theorem saturated_setMaxConcurrent (h : s.table.Sound) (hsaturated : s.Saturated) (limit : UInt64) :
    (s.setMaxConcurrent limit).1.Saturated := by
  rw [setMaxConcurrent]
  split
  · exact hsaturated
  · split
    · exact hsaturated
    · dsimp only
      split
      · exact saturated_tick h
      · next hlowered =>
        have hlimit : Calm s { s with maxConcurrent := limit } := by
          refine ⟨fun h => h, fun h => h, fun hfull => ?_, fun _ h => h⟩
          rw [UInt64.lt_iff_toNat_lt] at hlowered
          change limit.toNat ≤ s.active.length
          omega
        refine (hlimit.trans (calm_foldl_requeue _ fun id hmem => ?_)).saturated hsaturated
        exact duty?_ne_none_of_mem_excess hmem

theorem saturated_setAutoDownload (h : s.table.Sound) (hsaturated : s.Saturated) (enabled : Bool) :
    (s.setAutoDownload enabled).1.Saturated := by
  rw [setAutoDownload]
  split
  · exact hsaturated
  · dsimp only
    split
    · exact saturated_tick h
    · next hoff =>
      intro hon
      exact absurd hon hoff

/-- Every command that frees a slot or makes an item ready admits workers before it is answered. -/
theorem saturated_apply (h : s.Orderly) (hsaturated : s.Saturated) {command : Command}
    {verdict : Verdict} (hdone : s.apply command = .done u verdict) : u.Saturated := by
  have hsound := h.coherent.sound
  -- a command for an unknown item does nothing
  have honItem (id : ItemId) (operation : Item → Step Verdict)
      (hoperation : ∀ item, s.table.get? item.id = some item → ∀ u verdict,
        operation item = .done u verdict → u.Saturated)
      (hdone : s.onItem id operation = .done u verdict) : u.Saturated := by
    rw [onItem] at hdone
    split at hdone
    · obtain ⟨rfl, -⟩ := Step.eq_done_iff.mp hdone
      exact hsaturated
    · next item hget =>
      refine hoperation item ?_ u verdict hdone
      rwa [Table.id_of_get? hget]
  have hplain {ran : Scheduler × Verdict} {v : Scheduler} {answer : Verdict}
      (hran : ran.1.Saturated) (hdone : plain ran = .done v answer) : v.Saturated := by
    obtain ⟨rfl, -⟩ := Step.eq_done_iff.mp hdone
    exact hran
  cases command with
  | pause id =>
    exact honItem id _ (fun _ _ _ _ => hplain (saturated_pause hsaturated)) hdone
  | resume id =>
    exact honItem id _ (fun _ _ _ _ => hplain (saturated_resume hsound hsaturated)) hdone
  | retry id => exact honItem id _ (fun _ _ _ _ => saturated_retry hsound hsaturated) hdone
  | cancel id =>
    exact honItem id _ (fun _ hget _ _ => hplain (saturated_cancel h hsaturated hget)) hdone
  | delete id =>
    exact honItem id _ (fun _ _ _ _ => hplain (saturated_delete hsaturated)) hdone
  | deleteFinished => exact hplain (saturated_deleteFinished h.coherent hsaturated) hdone
  | purge =>
    refine hplain ?_ hdone
    exact (calm_retain h.coherent _ fun item => .removed item.id).saturated hsaturated
  | pauseAll => exact hplain (saturated_pauseAll hsaturated) hdone
  | resumeAll => exact hplain (saturated_resumeAll hsound hsaturated) hdone
  | setMaxConcurrent limit => exact hplain (saturated_setMaxConcurrent hsound hsaturated limit) hdone
  | setAutoDownload enabled =>
    exact hplain (saturated_setAutoDownload hsound hsaturated enabled) hdone

/-- The step lemma for what a round does. -/
theorem Effort.saturated (heffort : Effort s u) (h : s.Orderly) (hsaturated : s.Saturated) :
    u.Saturated := by
  cases heffort with
  | @message message messages u hinbox hdone =>
    exact saturated_handleMessage (orderly_inbox h messages) hsaturated hdone
  | @retry id ids u hretries hdone =>
    exact saturated_handleRetry (s := { s with retries := ids }) h.coherent.sound hsaturated hdone
  | enqueue hdrain hdone =>
    exact saturated_enqueue (orderly_drain h hdrain) (saturated_drain h hsaturated hdrain) hdone
  | addAll hdrain hplain hdone =>
    exact saturated_addAll (orderly_drain h hdrain) (saturated_drain h hsaturated hdrain) hplain hdone
  | dispatch hdrain hdone =>
    obtain ⟨v, verdict, happlied, hjudged⟩ := Step.andThen_eq_done.mp hdone
    obtain ⟨rfl, -⟩ := Step.eq_done_iff.mp hjudged
    exact saturated_apply (orderly_drain h hdrain) (saturated_drain h hsaturated hdrain) happlied

theorem saturated_commit (h : s.Orderly) (hsaturated : s.Saturated)
    (hdone : s.commit = .done t ()) : t.Saturated := by
  have hcalm := calm_commit h.coherent
  rw [hdone] at hcalm
  exact hcalm.saturated hsaturated

theorem Turn.saturated (hturn : Turn s t) (h : s.Orderly) (hsaturated : s.Saturated) :
    t.Saturated := by
  rcases hturn.cases with ⟨u, heffort, hcommit⟩ | ⟨u, ended, result, hdrain, hshutdown⟩
  · exact saturated_commit (heffort.orderly h) (heffort.saturated h hsaturated) hcommit
  · have hstopping := stopping_shutdown (orderly_drain h hdrain).coherent hshutdown
    exact saturated_of_shuttingDown hstopping.closed

theorem saturated_of_start {config : Config} {around : Surroundings} {c : Controller}
    (hstart : Controller.start config around = .started c) : c.scheduler.Saturated := by
  obtain ⟨files, table, hsound, hlaunch, -⟩ := Controller.scheduler_of_start hstart
  have hrestored := (orderly_restore (s := { Scheduler.ofTable config table files around.now
    around.share with clock := around.clock }) hsound rfl)
  have hticked := Orderly.of_chain (chain_tick hrestored.coherent) hrestored
  exact saturated_commit hticked (saturated_tick hrestored.coherent.sound) hlaunch

theorem Run.saturated {touches : FileSystem → FileSystem → Prop} (hrun : Run touches s t)
    (h : s.Orderly) (hsaturated : s.Saturated) : t.Saturated := by
  induction hrun with
  | refl => exact hsaturated
  | tail hbefore hstep ih =>
    rcases hstep with hturn | houtside
    · exact hturn.saturated (Run.orderly hbefore h) ih
    · cases houtside
      exact ih

/-- From its start on, and after every round of the control loop, a queue that admits workers and
has a free slot holds no queued item without a worker. -/
theorem bound_of_run {config : Config} {around : Surroundings} {c : Controller}
    (hstart : Controller.start config around = .started c)
    (hrun : Run (fun _ _ => True) c.scheduler s) (hauto : s.autoDownload = true)
    (hopen : s.shuttingDown = false) (hroom : s.active.length < s.maxConcurrent.toNat)
    {item : Item} (hmem : item ∈ s.table.items) (hqueued : item.status = .queued) :
    ∃ binding ∈ s.active, binding.id = item.id := by
  have horderly := Controller.orderly_of_start hstart
  have hget := (Run.orderly hrun horderly).coherent.sound.get?_of_mem hmem
  have hsaturated := Run.saturated hrun horderly (saturated_of_start hstart)
  have hbound : s.duty? item.id ≠ none := by
    intro hfree
    exact hsaturated hauto hopen hroom item.id
      ⟨⟨item.standing, standing?_of_get? hget, hqueued⟩, hfree⟩
  obtain ⟨duty, hduty⟩ := Option.ne_none_iff_exists'.mp hbound
  obtain ⟨binding, hbinding, rfl⟩ := List.mem_map.mp (mem_of_duty? hduty)
  exact ⟨binding, hbinding, id_of_duty? hduty⟩

def roomyConfig : Config :=
  { queue := { queueFile := ⟨"/q"⟩, maxConcurrent := 2 } }

def roomyFiles : FileSystem :=
  ⟨[], [(["q"], .file (QueueFile.render [cutOff]))]⟩

def roomyLaunch : Step Unit :=
  (Scheduler.ofTable roomyConfig ⟨[cutOff], 4⟩ roomyFiles .epoch 0).launch

def roomyCancel : Step (Except QueueError Reply) :=
  roomyLaunch.scheduler.request (.dispatch (.cancel ⟨3⟩))

theorem load_roomyFiles : QueueFile.load roomyFiles ⟨"/q"⟩ = .ok [cutOff] := by
  have hread : roomyFiles.read ⟨"/q"⟩ = .ok (QueueFile.render [cutOff]) := rfl
  have hnodup : ([cutOff].map Item.id).Nodup := List.nodup_singleton cutOff.id
  exact QueueFile.load_of_read hnodup hread

theorem roomyCancel_turn :
    Controller.start roomyConfig ⟨roomyFiles, 0, .epoch, "", 0⟩ =
        .started ⟨roomyLaunch.scheduler, true, none⟩ ∧
      Turn roomyLaunch.scheduler roomyCancel.scheduler := by
  have hlaunch : roomyLaunch.result.isOk = true := by decide +kernel
  have hcancel : roomyCancel.result.isOk = true := by decide +kernel
  obtain ⟨reply, hreply⟩ := Step.exists_eq_done_of_isOk hcancel
  constructor
  · exact Controller.start_eq_started (by decide +kernel) load_roomyFiles rfl
      (Step.eq_done_of_isOk hlaunch)
  · have hplain : Request.Plain (.dispatch (.cancel ⟨3⟩)) := trivial
    exact .request (by decide +kernel) hplain hreply

/-- The transfer is cancelled while a slot is free: its item waits for its own worker to end. -/
theorem bound_of_run_roomy :
    ∃ (c : Controller) (s : Scheduler) (item : Item),
      Controller.start roomyConfig ⟨roomyFiles, 0, .epoch, "", 0⟩ = .started c ∧
      Run (fun _ _ => True) c.scheduler s ∧ s.autoDownload = true ∧ s.shuttingDown = false ∧
      s.active.length < s.maxConcurrent.toNat ∧ item ∈ s.table.items ∧ item.status = .queued ∧
      ∃ binding ∈ s.active, binding.id = item.id := by
  obtain ⟨hstart, hturn⟩ := roomyCancel_turn
  have hrun : Run (fun _ _ => True) roomyLaunch.scheduler roomyCancel.scheduler :=
    .single (.inl hturn)
  have hfacts : roomyCancel.scheduler.autoDownload = true ∧
      roomyCancel.scheduler.shuttingDown = false ∧
      roomyCancel.scheduler.active.length < roomyCancel.scheduler.maxConcurrent.toNat ∧
      roomyCancel.scheduler.table.items =
        [{ cutOff with status := .queued, bytesDownloaded := 0 }] := by
    decide +kernel
  obtain ⟨hauto, hopen, hroom, hitems⟩ := hfacts
  have hmem : { cutOff with status := .queued, bytesDownloaded := 0 } ∈
      roomyCancel.scheduler.table.items := by
    rw [hitems]
    exact List.mem_singleton_self _
  exact ⟨_, _, _, hstart, hrun, hauto, hopen, hroom, hmem, rfl,
    bound_of_run hstart hrun hauto hopen hroom hmem rfl⟩

end Scheduler

end DownloadQueue
