import DownloadQueue.Proofs.Commands

/-!
# Start and shutdown touch by touch

Between two changes of the scheduler the world outside may touch the files, and messages come in and
are taken out; a trail is made of both. What a trail keeps holds of every run.
-/

namespace DownloadQueue

namespace Scheduler

variable {may : Cause → Prop} {heard : ItemId → Ending → Prop} {s t : Scheduler} {id : ItemId}

/-- An item is brought in order while nobody works for it. -/
theorem touches_restoreItem {item : Item} (hstanding : s.standing? item.id = some item.standing)
    (hfree : s.duty? item.id = none) : Touches may s (s.restoreItem item) := by
  rw [restoreItem]
  split
  · next hstatus =>
    refine Relation.ReflTransGen.head ?_ (touches_reconcile (by rwa [duty?_setStatus]))
    exact .turn hstanding (.inr (.inl hstatus)) (.inl rfl) (.inl hfree)
  · exact touches_reconcile hfree
  · exact touches_reconcile hfree
  · exact touches_reconcile hfree
  · exact touches_refl s
  · exact touches_refl s
  · exact touches_refl s

theorem duties_restoreItem (s : Scheduler) (item : Item) :
    (s.restoreItem item).duties = s.duties := by
  rw [restoreItem]
  split
  · exact (alike_reconcile _ _).duties.trans (duties_setStatus _ _ _)
  · exact (alike_reconcile _ _).duties
  · exact (alike_reconcile _ _).duties
  · exact (alike_reconcile _ _).duties
  · rfl
  · rfl
  · rfl

theorem standing?_restoreItem (s : Scheduler) (item : Item) (other : ItemId) :
    (s.restoreItem item).standing? other =
      if item.status = .downloading then (s.setStatus item.id .queued).standing? other
      else s.standing? other := by
  rw [restoreItem]
  split
  · next hstatus => rw [if_pos hstatus, (alike_reconcile _ _).standing?]
  · next hstatus => rw [if_neg (by simp [hstatus]), (alike_reconcile _ _).standing?]
  · next hstatus => rw [if_neg (by simp [hstatus]), (alike_reconcile _ _).standing?]
  · next hstatus => rw [if_neg (by simp [hstatus]), (alike_reconcile _ _).standing?]
  · next hstatus => rw [if_neg (by simp [hstatus])]
  · next hstatus => rw [if_neg (by simp [hstatus])]
  · next hstatus => rw [if_neg (by simp [hstatus])]

/-- The loaded items are brought in order one after another while no worker runs. -/
theorem touches_restore (hsound : s.table.Sound) (hidle : s.active = []) :
    Touches may s s.restore := by
  have hnone (other : ItemId) : s.duty? other = none := by
    rw [duty?_eq_find?, duties, hidle]
    rfl
  refine reach_foldl (p := fun s item => s.standing? item.id = some item.standing ∧
    s.duty? item.id = none) Item.id restoreItem ?_ _ hsound.nodup fun item hmem =>
      ⟨standing?_of_get? (hsound.get?_of_mem hmem), hnone item.id⟩
  rintro s item ⟨hstanding, hfree⟩
  refine ⟨touches_restoreItem hstanding hfree, ?_⟩
  rintro other hne ⟨hother, hfreeOther⟩
  constructor
  · rw [standing?_restoreItem, standing?_setStatus_of_ne _ _ hne, ite_self, hother]
  · rw [duty?_eq_find?, duties_restoreItem, ← duty?_eq_find?, hfreeOther]

theorem chain_restore (hsound : s.table.Sound) (hidle : s.active = []) : Chain heard s s.restore :=
  Touches.chain (touches_restore hsound hidle)

/-- No item is left downloading that a session found so. -/
theorem not_downloading_of_foldl_restoreItem (items : List Item) {standing : Standing}
    (hstanding : (items.foldl restoreItem s).standing? id = some standing)
    (hstatus : standing.status = .downloading) :
    s.standing? id = some standing ∧ ∀ item ∈ items, item.id = id → item.status ≠ .downloading := by
  induction items generalizing s with
  | nil => exact ⟨hstanding, fun item hmem => absurd hmem List.not_mem_nil⟩
  | cons first rest ih =>
    obtain ⟨hfirst, hrest⟩ := ih hstanding
    rw [standing?_restoreItem] at hfirst
    split at hfirst
    · rw [standing?_setStatus] at hfirst
      split at hfirst
      · obtain ⟨before, -, rfl⟩ := Option.map_eq_some_iff.mp hfirst
        cases hstatus
      · next hne =>
        refine ⟨hfirst, fun item hmem heq => ?_⟩
        rcases List.mem_cons.mp hmem with rfl | hmem
        · exact absurd heq.symm hne
        · exact hrest item hmem heq
    · next hidle =>
      refine ⟨hfirst, fun item hmem heq => ?_⟩
      rcases List.mem_cons.mp hmem with rfl | hmem
      · exact hidle
      · exact hrest item hmem heq

/-- No item is downloading when the loaded items were brought in order. -/
theorem not_downloading_restore (s : Scheduler) {standing : Standing}
    (hstanding : s.restore.standing? id = some standing) : standing.status ≠ .downloading := by
  intro hstatus
  obtain ⟨hbefore, hitems⟩ := not_downloading_of_foldl_restoreItem _ hstanding hstatus
  obtain ⟨item, hget, rfl⟩ := get?_of_standing? hbefore
  exact hitems item (Table.mem_of_get? hget) (Table.id_of_get? hget) hstatus

structure Stopping (s : Scheduler) : Prop where
  closed : s.shuttingDown = true
  told : ∀ duty ∈ s.duties, duty.stop ≠ none

theorem Stopping.of_duties (h : s.Stopping) (hclosed : t.shuttingDown = s.shuttingDown)
    (hsub : ∀ duty ∈ t.duties, duty ∈ s.duties ∨ duty.stop ≠ none) : t.Stopping where
  closed := hclosed.trans h.closed
  told duty hmem := (hsub duty hmem).elim (h.told duty) fun hstop => hstop

theorem stop_of_mem_stopTransfer {reason : StopReason} {duty : Duty}
    (hmem : duty ∈ (s.stopTransfer id reason).duties) : duty ∈ s.duties ∧ duty.id ≠ id ∨
      duty.stop ≠ none := by
  rw [duties_stopTransfer] at hmem
  obtain ⟨before, hbefore, rfl⟩ := List.mem_map.mp hmem
  split
  · exact .inr (Option.some_ne_none _)
  · next hne => exact .inl ⟨hbefore, hne⟩

theorem shuttingDown_setStatus (s : Scheduler) (id : ItemId) (status : Status) :
    (s.setStatus id status).shuttingDown = s.shuttingDown := by
  rw [setStatus_eq]

theorem shuttingDown_discardPartial (s : Scheduler) (id : ItemId) :
    (s.discardPartial id).shuttingDown = s.shuttingDown := by
  cases hget : s.table.get? id with
  | none => rw [discardPartial, hget]
  | some item => exact (discardPartial_alike hget).shuttingDown

theorem mem_of_mem_unbind {duty : Duty} (hmem : duty ∈ (s.unbind id).duties) : duty ∈ s.duties := by
  rw [duties_unbind] at hmem
  exact List.mem_of_mem_filter hmem

/-- Once a shutdown has begun, no worker is admitted that would not know of it. -/
theorem Change.stopping (hchange : Change heard s t) (h : s.Stopping) : t.Stopping := by
  cases hchange with
  | note halike => exact h.of_duties halike.shuttingDown fun _ hmem => .inl (halike.duties ▸ hmem)
  | save => exact ⟨h.closed, h.told⟩
  | close => exact ⟨rfl, h.told⟩
  | engage hget hqueued hfree hroom hopen =>
    -- nobody is admitted any more
    rw [h.closed] at hopen
    cases hopen
  | stop hduty hstanding hlive hsuits =>
    refine h.of_duties (shuttingDown_setStatus _ _ _) fun duty hmem => ?_
    rw [duties_setStatus] at hmem
    exact (stop_of_mem_stopTransfer hmem).imp_left And.left
  | restop hduty hstop hreason =>
    exact h.of_duties rfl fun duty hmem => (stop_of_mem_stopTransfer hmem).imp_left And.left
  | shift hstanding hlive hstatus hfree hcomplete =>
    refine h.of_duties (shuttingDown_setStatus _ _ _) fun duty hmem => ?_
    rw [duties_setStatus] at hmem
    exact .inl hmem
  | discard hget hfree hlive hpartial =>
    refine h.of_duties (shuttingDown_discardPartial _ _) fun duty hmem => ?_
    rw [duties_discardPartial] at hmem
    exact .inl hmem
  | finish hduty hheard halike hstatus =>
    refine h.of_duties ((shuttingDown_setStatus _ _ _).trans halike.shuttingDown) fun duty hmem => ?_
    rw [duties_setStatus, halike.duties] at hmem
    exact .inl (mem_of_mem_unbind hmem)
  | leave hduty hheard hstop => exact h.of_duties rfl fun duty hmem => .inl (mem_of_mem_unbind hmem)
  | clear hduty hheard hstop hdiscards =>
    refine h.of_duties (shuttingDown_discardPartial _ _) fun duty hmem => ?_
    rw [duties_discardPartial] at hmem
    exact .inl (mem_of_mem_unbind hmem)
  | add hnext hid hresolved htaken hstatus => exact ⟨h.closed, h.told⟩
  | drop hkeep => exact ⟨h.closed, h.told⟩
  | relimit hroom => exact ⟨h.closed, h.told⟩

theorem touches_stopForShutdown {binding : Binding} (h : s.Coherent)
    (hduty : s.duty? binding.id = some binding.duty) :
    Touches may s (s.stopForShutdown binding) := by
  obtain ⟨standing, hstanding, -⟩ := h.fits _ _ hduty
  rw [stopForShutdown]
  split
  · next hrunning =>
    rw [Option.isNone_iff_eq_none] at hrunning
    have hstatus := h.status_of_stop_eq_none hduty hstanding hrunning
    exact touches_stop hstanding (.inr (.inl hstatus)) ⟨by simp, by simp⟩ (by simp)
  · next hstopping =>
    rw [Option.isNone_iff_eq_none] at hstopping
    exact .single (.restop hduty hstopping (by simp))

theorem duties_stopForShutdown (s : Scheduler) (binding : Binding) :
    (s.stopForShutdown binding).duties = (s.stopTransfer binding.id .shutdown).duties := by
  rw [stopForShutdown]
  split
  · rw [duties_setStatus]
  · rfl

theorem duty?_stopForShutdown_of_ne (s : Scheduler) (binding : Binding) {other : ItemId}
    (hne : other ≠ binding.id) : (s.stopForShutdown binding).duty? other = s.duty? other := by
  rw [duty?_eq_find?, duties_stopForShutdown, ← duty?_eq_find?, duty?_stopTransfer, if_neg hne]

theorem map_id_duties (s : Scheduler) : s.duties.map Duty.id = s.active.map Binding.id := by
  rw [duties, List.map_map]
  rfl

/-- The beginning of a shutdown: nobody is admitted any more, and every running worker is told to
stop. -/
theorem touches_beginShutdown (h : s.Coherent) : Touches may s s.beginShutdown := by
  have hclose : Touches may s ({ s with shuttingDown := true } : Scheduler).cancelAllTimers :=
    Relation.ReflTransGen.head (.close s) (.single (.haltAll _))
  have hclosed := hclose.coherent h
  refine hclose.trans ?_
  refine reach_foldl (p := fun s binding => s.Coherent ∧ s.duty? binding.id = some binding.duty)
    Binding.id stopForShutdown ?_ _ ?_ ?_
  · rintro s binding ⟨hcoherent, hduty⟩
    have htold : Touches may s (s.stopForShutdown binding) := touches_stopForShutdown hcoherent hduty
    refine ⟨htold, fun other hne ⟨_, hother⟩ => ⟨htold.coherent hcoherent, ?_⟩⟩
    rw [duty?_stopForShutdown_of_ne s binding hne, hother]
  · rw [← map_id_duties]
    exact hclosed.nodup
  · exact fun binding hmem => ⟨hclosed, hclosed.duty?_of_mem (List.mem_map_of_mem hmem)⟩

theorem chain_beginShutdown (h : s.Coherent) : Chain heard s s.beginShutdown :=
  Touches.chain (touches_beginShutdown h)

/-- Every worker that was passed was told to stop, by the shutdown or before it. -/
theorem stop_of_mem_foldl_stopForShutdown (bindings : List Binding) {duty : Duty}
    (hmem : duty ∈ (bindings.foldl stopForShutdown s).duties) :
    duty ∈ s.duties ∧ duty.id ∉ bindings.map Binding.id ∨ duty.stop ≠ none := by
  induction bindings generalizing s with
  | nil => exact .inl ⟨hmem, List.not_mem_nil⟩
  | cons first rest ih =>
    rcases ih hmem with ⟨hfirst, hrest⟩ | hstop
    · rw [duties_stopForShutdown] at hfirst
      rcases stop_of_mem_stopTransfer hfirst with ⟨hbefore, hne⟩ | hstop
      · refine .inl ⟨hbefore, ?_⟩
        rw [List.map_cons, List.mem_cons, not_or]
        exact ⟨hne, hrest⟩
      · exact .inr hstop
    · exact .inr hstop

theorem shuttingDown_foldl_stopForShutdown (bindings : List Binding) (s : Scheduler) :
    (bindings.foldl stopForShutdown s).shuttingDown = s.shuttingDown := by
  induction bindings generalizing s with
  | nil => rfl
  | cons first rest ih =>
    rw [List.foldl_cons, ih, stopForShutdown]
    split
    · rw [shuttingDown_setStatus]
      rfl
    · rfl

theorem stopping_beginShutdown (s : Scheduler) : s.beginShutdown.Stopping where
  closed := shuttingDown_foldl_stopForShutdown _ _
  told duty hmem := by
    rcases stop_of_mem_foldl_stopForShutdown _ hmem with ⟨hbefore, hnone⟩ | hstop
    · rw [← map_id_duties] at hnone
      exact absurd (List.mem_map_of_mem hbefore) hnone
    · exact hstop

/-- Workers that are given up on leave as cancelled ones do, and no file is removed for them. -/
theorem touches_abandonAll (hheard : ∀ id, may (.hear id .cancelled)) (hlose : ∀ id, may (.lose id))
    (h : s.Coherent) (hstopping : s.Stopping) : Touches may s s.abandonAll := by
  refine reach_foldl (p := fun s id => ∃ duty, s.duty? id = some duty ∧ duty.stop ≠ none)
    (fun id => id) abandon ?_ _ ?_ ?_
  · rintro s id ⟨duty, hduty, hstop⟩
    have hleave : Touch may s (s.unbind id) :=
      .leave hduty (hheard id) hstop (.inr (.inl (hlose id)))
    have hfree : (s.unbind id).duty? id = none := by rw [duty?_unbind, if_pos rfl]
    refine ⟨Relation.ReflTransGen.head hleave (touches_reconcile hfree), ?_⟩
    rintro other hne ⟨found, hfound, hstopFound⟩
    refine ⟨found, ?_, hstopFound⟩
    rw [abandon, (alike_reconcile _ _).duty?, duty?_unbind, if_neg hne, hfound]
  · rw [List.map_id', ← map_id_duties]
    exact h.nodup
  · intro id hmem
    rw [← map_id_duties] at hmem
    obtain ⟨duty, hduty, rfl⟩ := List.mem_map.mp hmem
    exact ⟨duty, h.duty?_of_mem hduty, hstopping.told duty hduty⟩

theorem chain_abandonAll (hheard : ∀ id, heard id .cancelled) (h : s.Coherent)
    (hstopping : s.Stopping) : Chain heard s s.abandonAll :=
  Touches.chain (touches_abandonAll hheard (fun _ => trivial) h hstopping)

/-- The end of a shutdown changes nothing but the queue file. -/
theorem touches_concludeShutdown (hmay : may .save) (s : Scheduler) :
    Touches may s s.concludeShutdown.scheduler := by
  have hpublish (t : Scheduler) {α : Type} (value : α) : Touches may t
      (t.publish.andThen fun s () => .done (s.emit .shutdown) value).scheduler := by
    refine reach_andThen (touches_publish t) fun _ _ => .single (.tell _ .shutdown trivial ?_)
    rintro _ ⟨⟩
  rw [concludeShutdown]
  refine Relation.ReflTransGen.head (.persist hmay s) ?_
  generalize s.persist = saved
  obtain ⟨saved, result⟩ := saved
  cases result with
  | ok value => exact hpublish saved _
  | error error => exact (touches_tellFailure saved error).trans (hpublish _ _)

theorem chain_concludeShutdown (s : Scheduler) : Chain heard s s.concludeShutdown.scheduler :=
  Touches.chain (touches_concludeShutdown trivial s)

inductive Move (heard : ItemId → Ending → Prop) : Scheduler → Scheduler → Prop
  | change {s t : Scheduler} (h : Change heard s t) : Move heard s t
  | outside (s : Scheduler) (files : FileSystem) (inbox : List Message) :
    Move heard s { s with files, inbox }

abbrev Trail (heard : ItemId → Ending → Prop) : Scheduler → Scheduler → Prop :=
  Relation.ReflTransGen (Move heard)

theorem Chain.trail (hchain : Chain heard s t) : Trail heard s t := by
  induction hchain with
  | refl => exact Relation.ReflTransGen.refl
  | tail _ hchange ih => exact ih.tail (.change hchange)

theorem trail_outside (s : Scheduler) (files : FileSystem) (inbox : List Message) :
    Trail heard s { s with files, inbox } :=
  Relation.ReflTransGen.single (.outside s files inbox)

theorem Trail.coherent (htrail : Trail heard s t) (h : s.Coherent) : t.Coherent := by
  induction htrail with
  | refl => exact h
  | tail _ hmove ih =>
    cases hmove with
    | change hchange => exact hchange.coherent ih
    | outside => exact ⟨ih.sound, ih.nodup, ih.fits⟩

theorem Trail.stopping (htrail : Trail heard s t) (h : s.Stopping) : t.Stopping := by
  induction htrail with
  | refl => exact h
  | tail _ hmove ih =>
    cases hmove with
    | change hchange => exact hchange.stopping ih
    | outside => exact ⟨ih.closed, ih.told⟩

theorem trail_awaitWorkers (hheard : ∀ id ending, heard id ending) (h : s.Coherent) (messages : List Message) :
    Trail heard s (s.awaitWorkers messages).scheduler := by
  induction messages generalizing s with
  | nil => exact trail_outside s s.files []
  | cons message messages ih =>
    rw [awaitWorkers]
    split
    · exact trail_outside s s.files _
    · have htaken : Trail heard s { s with inbox := messages } := trail_outside s s.files messages
      have hhandled : Trail heard s ({ s with inbox := messages }.handleMessage message).scheduler :=
        htaken.trans (chain_handleMessage (htaken.coherent h) message fun _ _ => hheard _ _).trail
      exact reach_andThen hhandled fun _ _ => ih (hhandled.coherent h)

/-- A shutdown is a trail, from the first stop to the last write of the queue file. -/
theorem trail_shutdown (hheard : ∀ id ending, heard id ending) (h : s.Coherent) :
    Trail heard s s.shutdown.scheduler := by
  have hbegin : Chain heard s s.beginShutdown := chain_beginShutdown h
  have hawait := trail_awaitWorkers hheard (hbegin.coherent h) s.beginShutdown.inbox
  rw [shutdown]
  refine hbegin.trail.trans (reach_andThen hawait fun _ _ => Chain.trail ?_)
  have hcoherent := hawait.coherent (hbegin.coherent h)
  have hstopping := hawait.stopping (stopping_beginShutdown s)
  exact (chain_abandonAll (fun id => hheard id _) hcoherent hstopping).trans (chain_concludeShutdown _)

end Scheduler

end DownloadQueue
