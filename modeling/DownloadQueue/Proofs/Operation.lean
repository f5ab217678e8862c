import DownloadQueue.Proofs.Touches

namespace DownloadQueue

namespace TextQueue

def Entry.Plain (entry : Entry) : Prop :=
  entry.status = none ∨ entry.status = some .finished

theorem plain_of_entryOf {number : Nat} {tokens : List String} {entry : Entry}
    (h : entryOf number tokens = .ok entry) : entry.Plain := by
  rcases tokens with - | ⟨url, - | ⟨destination, words⟩⟩
  · cases h
  · cases h
  · simp only [entryOf] at h
    split at h
    · cases h
    · split at h
      · cases h
        exact .inl rfl
      · split at h
        · split at h
          · cases h
            exact .inr rfl
          · cases h
        · cases h

theorem plain_of_readLine {number : Nat} {line : List Char} {entry : Entry}
    (h : readLine number line = .ok entry) : entry.Plain := by
  rw [readLine] at h
  cases hscan : scan .between (Text.trim line) with
  | error fault =>
    rw [hscan] at h
    cases h
  | ok tokens =>
    rw [hscan] at h
    exact plain_of_entryOf h

/-- A text cannot ask for any status but a finished one. -/
theorem plain_of_mem_readLines (number : Nat) (lines : List (List Char)) {entry : Entry}
    (h : entry ∈ (readLines number lines).entries) : entry.Plain := by
  induction lines generalizing number with
  | nil => cases h
  | cons line lines ih =>
    rw [readLines] at h
    split at h
    · exact ih _ h
    · split at h
      · next first hline =>
        rcases List.mem_cons.mp h with rfl | h
        · exact plain_of_readLine hline
        · exact ih _ h
      · exact ih _ h

/-- Every entry of a text is plain. -/
theorem plain_of_mem_parse {text : String} {entry : Entry} (h : entry ∈ (parse text).entries) :
    entry.Plain :=
  plain_of_mem_readLines 1 _ h

end TextQueue

theorem RetryConfig.retries_of_automaticDelay {config : RetryConfig} {share : Float}
    {retryable : Bool} {attempts : UInt32} {delay : Duration}
    (h : config.automaticDelay share retryable attempts = .ok (some delay)) :
    config.policy = .automatic ∧ retryable = true ∧ attempts < config.maxAttempts := by
  rw [automaticDelay] at h
  split at h
  · next hretries => simpa [retries, and_assoc] using hretries
  · cases h

namespace Scheduler

variable {may : Cause → Prop} {heard : ItemId → Ending → Prop} {s t : Scheduler} {id : ItemId}
variable {item : Item}

theorem reach_andThen {move : Scheduler → Scheduler → Prop} {α β : Type} {step : Step α}
    {next : Scheduler → α → Step β} (h : Relation.ReflTransGen move s step.scheduler)
    (hnext : ∀ value, step.result = .ok value →
      Relation.ReflTransGen move step.scheduler (next step.scheduler value).scheduler) :
    Relation.ReflTransGen move s (step.andThen next).scheduler := by
  rw [Step.andThen]
  split
  · next value hvalue => exact h.trans (hnext value hvalue)
  · exact h

/-- An item whose status no worker fits has no worker. -/
theorem Coherent.duty?_eq_none (h : s.Coherent) {standing : Standing}
    (hstanding : s.standing? id = some standing)
    (hstatus : standing.status = .failed ∨ standing.status.isComplete = true) :
    s.duty? id = none := by
  cases hduty : s.duty? id with
  | none => rfl
  | some duty =>
    exfalso
    cases hstop : duty.stop with
    | none =>
      rw [h.status_of_stop_eq_none hduty hstanding hstop] at hstatus
      rcases hstatus with hstatus | hstatus <;> cases hstatus
    | some reason =>
      rcases (h.suits_of_stop_eq_some hduty hstanding hstop).1 with heq | heq | heq <;>
        rw [heq] at hstatus <;> rcases hstatus with hstatus | hstatus <;> cases hstatus

def Ready (s : Scheduler) (id : ItemId) : Prop :=
  (∃ standing, s.standing? id = some standing ∧ standing.status = .queued) ∧ s.duty? id = none

/-- The items are admitted one after the other; that they differ keeps them ready until their turn
comes. -/
theorem touches_fillSlots (ids : List ItemId) (hnodup : ids.Nodup) (hready : ∀ id ∈ ids, s.Ready id)
    (hopen : s.shuttingDown = false) : Touches may s (s.fillSlots ids) := by
  induction ids generalizing s with
  | nil => exact touches_refl s
  | cons id ids ih =>
    rw [fillSlots]
    split
    · exact touches_refl s
    · next hroom =>
      obtain ⟨⟨standing, hstanding, hqueued⟩, hfree⟩ := hready id List.mem_cons_self
      obtain ⟨item, hget, rfl⟩ := get?_of_standing? hstanding
      have hadmit : Touch may s (s.startTransfer id) :=
        .engage hget hqueued hfree (Nat.lt_of_not_le hroom) hopen
      rw [List.nodup_cons] at hnodup
      refine Relation.ReflTransGen.head hadmit (ih hnodup.2 ?_ ?_)
      · intro other hmem
        have hne : other ≠ id := fun heq => hnodup.1 (heq ▸ hmem)
        obtain ⟨hqueued, hfreeOther⟩ := hready other (List.mem_cons_of_mem _ hmem)
        rw [Ready, standing?_startTransfer hget, duty?_startTransfer hget hfree, if_neg hne,
          if_neg hne]
        exact ⟨hqueued, hfreeOther⟩
      · rw [startTransfer_eq hget, setStatus_eq]
        exact hopen

theorem nodup_candidates (h : (s.table.items.map Item.id).Nodup) : s.candidates.Nodup :=
  h.sublist (List.filter_sublist.map _)

theorem ready_of_mem_candidates (h : (s.table.items.map Item.id).Nodup) (hmem : id ∈ s.candidates) :
    s.Ready id := by
  obtain ⟨item, hitem, rfl⟩ := List.mem_map.mp hmem
  obtain ⟨hitem, hcondition⟩ := List.mem_filter.mp hitem
  simp only [Bool.and_eq_true, decide_eq_true_eq, Bool.not_eq_true'] at hcondition
  refine ⟨⟨item.standing, standing?_of_get? (Table.find?_eq_some_of_mem h hitem), hcondition.1⟩, ?_⟩
  exact isBound_eq_false_iff.mp hcondition.2

theorem touches_tick (h : s.table.Sound) : Touches may s s.tick := by
  rw [tick]
  split
  · exact touches_refl s
  · next hcondition =>
    simp only [Bool.or_eq_true, Bool.not_eq_true', not_or, Bool.not_eq_true] at hcondition
    exact touches_fillSlots s.candidates (nodup_candidates h.nodup)
      (fun id hmem => ready_of_mem_candidates h.nodup hmem) hcondition.2

theorem Touches.tick (htouches : Touches may s t) (h : s.table.Sound) : Touches may s t.tick :=
  htouches.trans (touches_tick (htouches.sound h))

theorem chain_tick (h : s.Coherent) : Chain heard s s.tick :=
  Touches.chain (touches_tick h.sound)

theorem chain_trans_tick (h : s.Coherent) (hchain : Chain heard s t) : Chain heard s t.tick :=
  hchain.trans (chain_tick (hchain.coherent h))

/-- A report leaves statuses, workers and timers as they are. -/
theorem alike_handleProgress (s : Scheduler) (id : ItemId) (progress : Progress) :
    Alike s (s.handleProgress id progress) := by
  rw [handleProgress]
  split
  · exact Alike.refl s
  · split
    · exact Alike.refl s
    · split
      · rw [noteStart]
        refine Alike.trans ?_ (alike_emit _ _)
        refine Alike.trans ?_ (alike_rebind _ _ _ fun _ => rfl)
        exact alike_modifyItem _ _ _ fun _ => rfl
      · split
        · exact Alike.refl s
        · refine Alike.trans ?_ (alike_emit _ _)
          exact alike_modifyItem _ _ _ fun _ => rfl

/-- A failure is a new status, and notes of why and when to try again. -/
theorem alike_fail (s : Scheduler) (id : ItemId) (reason : String) (retryable : Bool) :
    Alike (s.setStatus id .failed) (s.fail id reason retryable).scheduler := by
  rw [fail]
  generalize s.setStatus id .failed = t
  dsimp only
  split
  · exact Alike.refl t
  · have hnoted : Alike t ((t.modifyItem id fun item =>
        { item with lastError := some reason }).emit (.failed id reason)) := by
      refine Alike.trans ?_ (alike_emit _ _)
      exact alike_modifyItem _ _ _ fun _ => rfl
    split
    · exact hnoted
    · exact hnoted
    · exact hnoted.trans (alike_scheduleRetry _ _ _)

/-- An ending is settled by one change, apart from progress and history. -/
theorem change_settle {duty : Duty} (hduty : s.duty? id = some duty) (ending : Ending)
    (hheard : heard id ending) :
    ∃ t, Change heard s t ∧ Alike t ((s.unbind id).settle id duty.stop ending).scheduler := by
  have hcomplete (hcompleted : ending = .completed) (hkept : duty.stop ≠ some .delete) :
      ∃ t, Change heard s t ∧ Alike t ((s.unbind id).finish id) := by
    rw [finish]
    refine ⟨_, .finish hduty hheard ?_ (.inl ⟨rfl, hcompleted, hkept⟩), Alike.refl _⟩
    exact alike_modifyItem _ _ _ fun _ => rfl
  cases hstop : duty.stop with
  | none =>
    rw [hstop] at hcomplete
    cases ending with
    | completed => exact hcomplete rfl (by simp)
    | failed reason retryable =>
      exact ⟨_, .finish hduty hheard (Alike.refl _) (.inr ⟨hstop, .inl rfl⟩), alike_fail _ _ _ _⟩
    | cancelled =>
      exact ⟨_, .finish hduty hheard (Alike.refl _) (.inr ⟨hstop, .inr rfl⟩), alike_reconcile _ _⟩
  | some reason =>
    have hstopping : duty.stop ≠ none := by simp [hstop]
    have happly : ∃ t, Change heard s t ∧ Alike t ((s.unbind id).applyStop id reason) := by
      rw [applyStop]
      split
      · next hdiscards => exact ⟨_, .clear hduty hheard hstop hdiscards, Alike.refl _⟩
      · exact ⟨_, .leave hduty hheard hstopping, alike_reconcile _ _⟩
    rw [hstop] at hcomplete
    cases ending with
    | completed =>
      cases reason with
      | delete => exact ⟨_, .leave hduty hheard hstopping, Alike.refl _⟩
      | _ => exact hcomplete rfl (by simp)
    | failed message retryable => cases reason <;> exact happly
    | cancelled => cases reason <;> exact happly

theorem chain_settle {duty : Duty} (hduty : s.duty? id = some duty) (ending : Ending)
    (hheard : heard id ending) : Chain heard s ((s.unbind id).settle id duty.stop ending).scheduler := by
  obtain ⟨t, hchange, halike⟩ := change_settle hduty ending hheard
  exact (Chain.single hchange).trans (Chain.note halike)

theorem touches_handleProgress (hmay : may (.report id)) (s : Scheduler) (progress : Progress) :
    Touches may s (s.handleProgress id progress) := by
  rw [handleProgress]
  split
  · exact touches_refl s
  · split
    · exact touches_refl s
    · next item hget =>
      have hknown : s.Stands (fun _ => True) id := stands_of_get? hget trivial
      split
      · next offset total =>
        rw [noteStart]
        refine Relation.ReflTransGen.tail ?_ (.tell _ (.started id offset) trivial ?_)
        · refine Relation.ReflTransGen.tail ?_ (.rebind _ id fun _ => rfl)
          exact .single (.measure (.inl hmay) fun _ => rfl)
        · rintro _ ⟨⟩
          exact hknown.modifyItem id fun _ => rfl
      · next bytes total =>
        split
        · exact touches_refl s
        · refine Relation.ReflTransGen.tail ?_
            (.tell _ (.progress id bytes (knownTotal total item.bytesTotal)) trivial ?_)
          · exact .single (.measure (.inl hmay) fun _ => rfl)
          · rintro _ ⟨⟩
            exact hknown.modifyItem id fun _ => rfl

def marked (s : Scheduler) (id : ItemId) (reason : String) : Scheduler :=
  ((s.setStatus id .failed).modifyItem id fun item => { item with lastError := some reason }).emit
    (.failed id reason)

theorem config_marked (s : Scheduler) (id : ItemId) (reason : String) :
    (s.marked id reason).config = s.config := by
  rw [marked, setStatus_eq]
  rfl

theorem stands_marked (hget : s.table.get? id = some item) (reason : String) :
    (s.marked id reason).Stands (fun status => status = .failed) id := by
  have hfailed : (s.setStatus id .failed).Stands (fun status => status = .failed) id := by
    refine ⟨item.standing.withStatus .failed, ?_, rfl⟩
    rw [standing?_setStatus, if_pos rfl, standing?_of_get? hget]
    rfl
  have hnoted : ((s.setStatus id .failed).modifyItem id fun item =>
      { item with lastError := some reason }).Stands (fun status => status = .failed) id :=
    hfailed.modifyItem id fun _ => rfl
  exact hnoted.of_standing? rfl

theorem attempts_setStatus (hget : s.table.get? id = some item) (status : Status) :
    ∃ found, (s.setStatus id status).table.get? id = some found ∧ found.attempts = item.attempts := by
  rw [setStatus, hget]
  dsimp only
  split
  · exact ⟨item, hget, rfl⟩
  · refine ⟨withStatus status item, ?_, rfl⟩
    change (s.table.modify id (withStatus status)).get? id = _
    rw [Table.get?_modify_self _ _ (withStatus status) fun _ => rfl, hget]
    rfl

/-- A failed item is marked, and a timer is set if it is to be tried again. -/
theorem fail_eq (hget : s.table.get? id = some item) (reason : String)
    (retryable : Bool) :
    s.fail id reason retryable =
      match s.config.retry.automaticDelay s.share retryable item.attempts with
      | .error overflow => .stopped (s.marked id reason) overflow
      | .ok none => .done (s.marked id reason) ()
      | .ok (some delay) => .done ((s.marked id reason).scheduleRetry id delay) () := by
  obtain ⟨found, hfound, hattempts⟩ := attempts_setStatus hget .failed
  have hsame : (s.marked id reason).config = s.config ∧ (s.marked id reason).share = s.share := by
    rw [marked, setStatus_eq]
    exact ⟨rfl, rfl⟩
  rw [fail]
  simp only [hfound]
  change (match (s.marked id reason).config.retry.automaticDelay (s.marked id reason).share retryable
    found.attempts with
    | .error overflow => Step.stopped (s.marked id reason) overflow
    | .ok none => .done (s.marked id reason) ()
    | .ok (some delay) => .done ((s.marked id reason).scheduleRetry id delay) ()) = _
  rw [hsame.1, hsame.2, hattempts]

/-- A failure: the worker goes, and a timer is set if the failure is to be tried again. -/
theorem touches_fail {duty : Duty} {reason : String} {retryable : Bool}
    (hduty : s.duty? id = some duty) (hheard : may (.hear id (.failed reason retryable)))
    (hmay : may (.fail id reason)) (hstop : duty.stop = none)
    (hrunning : s.Stands (fun status => status = .downloading) id) :
    Touches may s ((s.unbind id).fail id reason retryable).scheduler := by
  obtain ⟨standing, hstanding, hstatus⟩ := hrunning
  obtain ⟨item, hget, rfl⟩ := get?_of_standing? hstanding
  have hgone : (s.unbind id).table.get? id = some item := hget
  have hfailed : Touch may s (((s.unbind id).setStatus id .failed).modifyItem id fun item =>
      { item with lastError := some reason }) := .fail hduty hheard hmay hstop hget hstatus
  have hstands := stands_marked hgone reason
  have hmarked : Touches may s ((s.unbind id).marked id reason) := by
    refine Relation.ReflTransGen.head hfailed (.single (.tell _ (.failed id reason) trivial ?_))
    rintro _ ⟨⟩
    have hthere := hstands.mono fun _ _ => trivial
    exact hthere.of_standing? rfl
  rw [fail_eq hgone]
  split
  · exact hmarked
  · exact hmarked
  · next delay hdelay =>
    refine hmarked.tail (.wait hmay hstands ?_ delay)
    rw [config_marked]
    exact (RetryConfig.retries_of_automaticDelay hdelay).1

/-- The worker has stopped as it was told, and its item already has the status that goes with the
stop. -/
theorem touches_applyStop {duty : Duty} {ending : Ending} {stop : StopReason}
    (hduty : s.duty? id = some duty) (hheard : may (.hear id ending))
    (hdiscard : may .discard) (hstop : duty.stop = some stop) (hsuits : s.Stands stop.Suits id) :
    Touches may s ((s.unbind id).applyStop id stop) := by
  obtain ⟨standing, hstanding, hstatus⟩ := hsuits
  rw [applyStop]
  split
  · next hdiscards => exact .single (.clear hduty hheard hdiscard hstop hdiscards hstanding)
  · next hkept =>
    have hlive : s.Stands (fun status => status ≠ .deleted) id := by
      refine ⟨standing, hstanding, fun hdeleted => hkept ?_⟩
      rw [hstatus.2.mpr hdeleted]
      rfl
    refine Relation.ReflTransGen.head ?_ (touches_reconcile ?_)
    · exact .leave hduty hheard (by simp [hstop]) (.inr (.inr hlive))
    · rw [duty?_unbind, if_pos rfl]

/-- The item of a worker that is not to delete it is not deleted. -/
theorem Coherent.live_of_duty? (h : s.Coherent) {duty : Duty} (hduty : s.duty? id = some duty)
    {standing : Standing} (hstanding : s.standing? id = some standing)
    (hkept : duty.stop ≠ some .delete) : standing.status ≠ .deleted := by
  intro hdeleted
  cases hstop : duty.stop with
  | none =>
    have hrunning := h.status_of_stop_eq_none hduty hstanding hstop
    rw [hdeleted] at hrunning
    cases hrunning
  | some reason =>
    have hsuits := h.suits_of_stop_eq_some hduty hstanding hstop
    exact hkept (hstop.trans (congrArg some (hsuits.2.mpr hdeleted)))

/-- The item of a worker is wanted unless it is deleted. -/
theorem Coherent.wanted_of_duty? (h : s.Coherent) {duty : Duty} (hduty : s.duty? id = some duty)
    {standing : Standing} (hstanding : s.standing? id = some standing)
    (hlive : standing.status ≠ .deleted) : standing.status.Wanted := by
  cases hstop : duty.stop with
  | none => exact .inr (.inl (h.status_of_stop_eq_none hduty hstanding hstop))
  | some reason =>
    obtain ⟨hqueued | hpaused | hdeleted, -⟩ := h.suits_of_stop_eq_some hduty hstanding hstop
    · exact .inl hqueued
    · exact .inr (.inr hpaused)
    · exact absurd hdeleted hlive

def settled (s : Scheduler) (id : ItemId) (stop : StopReason) (ending : Ending) : Scheduler :=
  if ending = .completed then if stop = .delete then s else s.finish id
  else s.applyStop id stop

theorem settle_of_stop (s : Scheduler) (id : ItemId) (stop : StopReason) (ending : Ending) :
    s.settle id (some stop) ending = .done (s.settled id stop ending) () := by
  cases ending <;> cases stop <;> rfl

/-- The end of a worker, whatever it was told and however it ended. -/
theorem touches_settle (h : s.Coherent) {duty : Duty} (hduty : s.duty? id = some duty)
    {ending : Ending} (hheard : may (.hear id ending)) (hdiscard : may .discard)
    (hfail : ∀ reason retryable, duty.stop = none → ending = .failed reason retryable →
      may (.fail id reason))
    (hlose : duty.stop = some .delete → ending = .completed → may (.lose id)) :
    Touches may s ((s.unbind id).settle id duty.stop ending).scheduler := by
  obtain ⟨standing, hstanding, -⟩ := h.fits id duty hduty
  have hfinish (hcompleted : ending = .completed) (hkept : duty.stop ≠ some .delete) :
      Touches may s ((s.unbind id).finish id) := by
    subst hcompleted
    refine .single (.finish hduty hheard hkept hstanding (h.wanted_of_duty? hduty hstanding ?_))
    exact h.live_of_duty? hduty hstanding hkept
  cases hstop : duty.stop with
  | none =>
    rw [hstop] at hfinish hfail
    have hrunning := h.status_of_stop_eq_none hduty hstanding hstop
    cases ending with
    | completed => exact hfinish rfl (by simp)
    | failed reason retryable =>
      exact touches_fail hduty hheard (hfail reason retryable rfl rfl) hstop
        ⟨standing, hstanding, hrunning⟩
    | cancelled =>
      refine Relation.ReflTransGen.head (.yield hduty hheard hstop hstanding hrunning) ?_
      refine touches_reconcile ?_
      rw [duty?_setStatus, duty?_unbind, if_pos rfl]
  | some reason =>
    rw [hstop] at hfinish hlose
    rw [settle_of_stop]
    change Touches may s ((s.unbind id).settled id reason ending)
    rw [settled]
    split
    · next hcompleted =>
      split
      · next hdelete =>
        subst hdelete
        exact .single (.leave hduty hheard (by simp [hstop]) (.inr (.inl (hlose rfl hcompleted))))
      · next hkept => exact hfinish hcompleted (by simpa using hkept)
    · exact touches_applyStop hduty hheard hdiscard hstop
        ⟨standing, hstanding, h.suits_of_stop_eq_some hduty hstanding hstop⟩

def Fails (s : Scheduler) (message : Message) : Prop :=
  ∃ binding reason retryable, s.binding? message.id = some binding ∧ binding.stop = none ∧
    message.report = .ended (.failed reason retryable)

/-- The item's worker was told to delete it and yet has completed its transfer. -/
def outruns (s : Scheduler) (message : Message) : Bool :=
  message.report = .ended .completed &&
    (s.binding? message.id).any fun binding => binding.stop = some .delete

def Warrants (s : Scheduler) (message : Message) : Cause → Prop
  | .report id => ∃ progress, message = ⟨id, .progress progress⟩
  | .hear id ending => message = ⟨id, .ended ending⟩
  | .fail id reason =>
    s.Fails message ∧ ∃ retryable, message = ⟨id, .ended (.failed reason retryable)⟩
  | .lose id => s.outruns message = true ∧ message.id = id
  | .discard => True
  | .again _ | .add | .save => False

/-- A message comes to touches that it warrants, a message without a worker to none. -/
theorem touches_handleMessage (h : s.Coherent) (message : Message)
    (hmay : ∀ cause, s.Warrants message cause → may cause) :
    Touches may s (s.handleMessage message).scheduler := by
  obtain ⟨id, report⟩ := message
  cases report with
  | progress progress => exact touches_handleProgress (hmay (.report id) ⟨progress, rfl⟩) s progress
  | ended ending =>
    change Touches may s (s.handleEnding id ending).scheduler
    rw [handleEnding]
    split
    · exact touches_refl s
    · next binding hbinding =>
      have hduty : s.duty? id = some binding.duty := by rw [duty?, hbinding]; rfl
      have hsettle : Touches may s ((s.unbind id).settle id binding.stop ending).scheduler := by
        refine touches_settle h hduty (hmay (.hear id ending) rfl) (hmay .discard trivial) ?_ ?_
        · rintro reason retryable hstop rfl
          exact hmay (.fail id reason)
            ⟨⟨binding, reason, retryable, hbinding, hstop, rfl⟩, retryable, rfl⟩
        · rintro hstop rfl
          refine hmay (.lose id) ⟨?_, rfl⟩
          rw [outruns, hbinding, Option.any_some, ← Binding.duty_stop, hstop]
          rfl
      exact reach_andThen hsettle fun _ _ => touches_tick (hsettle.sound h.sound)

theorem chain_handleMessage (h : s.Coherent) (message : Message)
    (hheard : ∀ ending, message.report = .ended ending → heard message.id ending) :
    Chain heard s (s.handleMessage message).scheduler := by
  refine Touches.chain (touches_handleMessage h message fun cause hcause => ?_)
  cases cause with
  | hear id ending =>
    obtain rfl : message = ⟨id, .ended ending⟩ := hcause
    exact hheard ending rfl
  | _ => trivial

theorem chain_handleEnding (h : s.Coherent) (id : ItemId) (ending : Ending)
    (hheard : heard id ending) : Chain heard s (s.handleEnding id ending).scheduler := by
  refine chain_handleMessage h ⟨id, .ended ending⟩ ?_
  rintro _ ⟨⟩
  exact hheard

theorem touches_tryAgain (h : s.Coherent) (hmay : may (.again id))
    (hget : s.table.get? id = some item) (hfailed : item.status = .failed)
    (hnone : s.pendingSerial? id = none) : Touches may s (s.tryAgain id item).scheduler := by
  have hfree := h.duty?_eq_none (standing?_of_get? hget) (.inl hfailed)
  rw [tryAgain]
  split
  · exact touches_refl s
  · next attempts hattempts =>
    have hagain : Touches may s _ := .single (.again hmay hget hfailed hfree hnone hattempts)
    exact hagain.tick h.sound

theorem touches_handleRetry (h : s.Coherent) (hmay : may (.again id)) :
    Touches may s (s.handleRetry id).scheduler := by
  have hforget : Touches may s (s.forgetTimer id) := .single (.forget hmay s)
  have hnone : (s.forgetTimer id).pendingSerial? id = none := by simp [pendingSerial?, forgetTimer]
  rw [handleRetry]
  split
  · exact hforget
  · next item hget =>
    split
    · next hfailed =>
      exact hforget.trans (touches_tryAgain (hforget.coherent h) hmay hget hfailed hnone)
    · exact hforget

theorem chain_handleRetry (h : s.Coherent) (id : ItemId) :
    Chain heard s (s.handleRetry id).scheduler :=
  Touches.chain (touches_handleRetry h trivial)

theorem foundItem_status (item : Item) (status : Option Status) (length : Option UInt64)
    (hstatus : status = none ∨ status = some .finished) (hqueued : item.status = .queued) :
    (foundItem item status length).status = .queued ∧ length = none ∨
      (foundItem item status length).status.isComplete = true := by
  rcases hstatus with rfl | rfl
  · cases length with
    | none => exact .inl ⟨hqueued, rfl⟩
    | some length => exact .inr rfl
  · cases length <;> exact .inr rfl

theorem foundItem_id (item : Item) (status : Option Status) (length : Option UInt64) :
    (foundItem item status length).id = item.id := by
  cases status <;> cases length <;> rfl

theorem foundItem_destination (item : Item) (status : Option Status) (length : Option UInt64) :
    (foundItem item status length).destination = item.destination := by
  cases status <;> cases length <;> rfl

/-- An accepted destination is in normal form and not taken. -/
theorem newDestination_eq_ok {url : String} {given destination : Path}
    (h : s.newDestination url given = .ok destination) :
    resolveDestination s.files.cwd s.config.queue.downloadDir given = .ok destination ∧
      s.destinationTaken destination = false := by
  rw [newDestination] at h
  cases hurl : validateUrl url with
  | error error =>
    rw [hurl] at h
    cases h
  | ok value =>
    simp only [hurl, bind, Except.bind] at h
    split at h
    · cases h
    · next resolved hresolved =>
      split at h
      · cases h
      · next htaken =>
        cases h
        exact ⟨hresolved, by simpa using htaken⟩

/-- A fresh number is above all others, so the item with it is put at the end. -/
theorem upsert_fresh {table : Table} (h : table.Sound) {next : UInt64}
    (hnext : Counter.next64 table.nextId = .ok next) {item : Item} (hid : item.id = ⟨table.nextId⟩) :
    ({ table with nextId := next } : Table).upsert item =
      .ok ⟨table.items ++ [item], next⟩ := by
  have hlt := (Counter.next64_eq_ok hnext).2
  rw [Table.upsert, if_neg]
  · rw [Table.place, if_neg]
    rw [Table.contains, List.any_eq_true]
    rintro ⟨other, hmem, heq⟩
    apply h.not_mem_nextId
    rw [← hid, ← show other.id = item.id by simpa using heq]
    exact List.mem_map_of_mem hmem
  · rw [hid, UInt64.le_iff_toNat_le]
    change ¬ next.toNat ≤ table.nextId.toNat
    omega

def newItem (s : Scheduler) (url : String) (destination : Path) (status : Option Status) : Item :=
  foundItem (Item.new ⟨s.table.nextId⟩ url destination s.now) status
    ((s.files.fileLength? destination).map UInt64.ofNat)

theorem id_newItem (s : Scheduler) (url : String) (destination : Path) (status : Option Status) :
    (s.newItem url destination status).id = ⟨s.table.nextId⟩ :=
  foundItem_id _ _ _

theorem destination_newItem (s : Scheduler) (url : String) (destination : Path)
    (status : Option Status) : (s.newItem url destination status).destination = destination :=
  foundItem_destination _ _ _

theorem status_newItem (s : Scheduler) (url : String) (destination : Path) {status : Option Status}
    (hstatus : status = none ∨ status = some .finished) :
    (s.newItem url destination status).status = .queued ∧ s.files.fileLength? destination = none ∨
      (s.newItem url destination status).status.isComplete = true := by
  have hfound := foundItem_status (Item.new ⟨s.table.nextId⟩ url destination s.now) status
    ((s.files.fileLength? destination).map UInt64.ofNat) hstatus rfl
  rwa [Option.map_eq_none_iff] at hfound

/-- A new item is put at the end of the table and told of. -/
theorem addItem_of_ok (h : s.table.Sound) {next : UInt64}
    (hnext : Counter.next64 s.table.nextId = .ok next) (url : String) (destination : Path)
    (status : Option Status) :
    s.addItem url destination status =
      .done (({ s with table := ⟨s.table.items ++ [s.newItem url destination status], next⟩ } :
        Scheduler).emit (.queued ⟨s.table.nextId⟩ url)) ⟨s.table.nextId⟩ := by
  have htaken : s.table.takeId = .ok (⟨s.table.nextId⟩, { s.table with nextId := next }) := by
    rw [Table.takeId, hnext]
    rfl
  have hupsert : ({ s with table := { s.table with nextId := next } }.emit
      (.queued ⟨s.table.nextId⟩ url)).table.upsert (s.newItem url destination status) =
        .ok ⟨s.table.items ++ [s.newItem url destination status], next⟩ :=
    upsert_fresh h hnext (s.id_newItem url destination status)
  rw [newItem] at hupsert
  rw [addItem, htaken]
  dsimp only
  rw [hupsert]
  rfl

/-- Without a number for it, no item is added. -/
theorem addItem_of_error {overflow : Overflow}
    (hnext : Counter.next64 s.table.nextId = .error overflow) (url : String) (destination : Path)
    (status : Option Status) : s.addItem url destination status = .stopped s overflow := by
  have htaken : s.table.takeId = .error overflow := by
    rw [Table.takeId, hnext]
    rfl
  rw [addItem, htaken]

/-- A new item goes to the end of the table, or there are no numbers left and nothing changes. -/
theorem scheduler_addItem (h : s.table.Sound) (url : String) (destination : Path)
    (status : Option Status) :
    (s.addItem url destination status).scheduler = s ∨
      ∃ next, Counter.next64 s.table.nextId = .ok next ∧
        (s.addItem url destination status).scheduler =
          ({ s with table := ⟨s.table.items ++ [s.newItem url destination status], next⟩ } :
            Scheduler).emit (.queued ⟨s.table.nextId⟩ url) := by
  cases hnext : Counter.next64 s.table.nextId with
  | error overflow =>
    left
    rw [addItem_of_error hnext]
    rfl
  | ok next =>
    right
    refine ⟨next, rfl, ?_⟩
    rw [addItem_of_ok h hnext]
    rfl

theorem account_newItem (s : Scheduler) (url : String) (destination : Path)
    (status : Option Status) :
    (s.newItem url destination status).attempts = 0 ∧
      (s.newItem url destination status).lastError = none := by
  unfold newItem
  cases status <;> cases (s.files.fileLength? destination).map UInt64.ofNat <;> exact ⟨rfl, rfl⟩

/-- An item is added and told of, queued or finished at once. -/
theorem touches_addItem (h : s.table.Sound) (hmay : may .add) (url : String)
    {given destination : Path} (hnew : s.newDestination url given = .ok destination)
    {status : Option Status} (hstatus : status = none ∨ status = some .finished) :
    Touches may s (s.addItem url destination status).scheduler := by
  obtain ⟨hresolved, htaken⟩ := newDestination_eq_ok hnew
  rcases scheduler_addItem h url destination status with hsame | ⟨next, hnext, hadded⟩
  · rw [hsame]
  · rw [hadded]
    have hid := s.id_newItem url destination status
    have hdestination := s.destination_newItem url destination status
    have hfound := s.status_newItem url destination hstatus
    obtain ⟨hattempts, herror⟩ := s.account_newItem url destination status
    generalize s.newItem url destination status = item at hid hdestination hfound hattempts herror ⊢
    subst hdestination
    rw [← hid]
    exact .single (.join hmay hnext hid ⟨_, hresolved⟩ htaken hfound hattempts herror url)

theorem touches_enqueue (h : s.table.Sound) (hmay : may .add) (url : String) (destination : Path) :
    Touches may s (s.enqueue url destination).scheduler := by
  rw [enqueue]
  split
  · exact touches_refl s
  · next resolved hnew =>
    have hadd : Touches may s (s.addItem url resolved none).scheduler :=
      touches_addItem h hmay url hnew (.inl rfl)
    refine reach_andThen hadd fun id _ => ?_
    exact Relation.ReflTransGen.head (.mark _) (touches_tick (hadd.sound h))

/-- Entries that cannot be added are passed over. -/
theorem touches_addEntries (h : s.table.Sound) (hmay : may .add) (count : Nat)
    (entries : List TextQueue.Entry) (hplain : ∀ entry ∈ entries, entry.Plain) :
    Touches may s (s.addEntries count entries).scheduler := by
  induction entries generalizing s count with
  | nil => exact touches_refl s
  | cons entry entries ih =>
    have hrest : ∀ entry ∈ entries, entry.Plain := fun entry hmem =>
      hplain entry (List.mem_cons_of_mem _ hmem)
    rw [addEntries]
    split
    · exact ih h _ hrest
    · next resolved hnew =>
      have hadd : Touches may s (s.addItem entry.url resolved entry.status).scheduler :=
        touches_addItem h hmay entry.url hnew (hplain entry List.mem_cons_self)
      exact reach_andThen hadd fun id _ => ih (hadd.sound h) _ hrest

theorem touches_addAll (h : s.table.Sound) (hmay : may .add) (entries : List TextQueue.Entry)
    (hplain : ∀ entry ∈ entries, entry.Plain) :
    Touches may s (s.addAll entries).scheduler := by
  have hadd : Touches may s (s.addEntries 0 entries).scheduler :=
    touches_addEntries h hmay 0 entries hplain
  rw [addAll]
  refine reach_andThen hadd fun count _ => ?_
  change Touches may _ (ite _ _ _)
  split
  · exact Relation.ReflTransGen.head (.mark _) (touches_tick (hadd.sound h))
  · exact touches_refl _

theorem chain_addItem (h : s.Coherent) (url : String) {given destination : Path}
    (hnew : s.newDestination url given = .ok destination) {status : Option Status}
    (hstatus : status = none ∨ status = some .finished) :
    Chain heard s (s.addItem url destination status).scheduler :=
  Touches.chain (touches_addItem h.sound trivial url hnew hstatus)

theorem chain_enqueue (h : s.Coherent) (url : String) (destination : Path) :
    Chain heard s (s.enqueue url destination).scheduler :=
  Touches.chain (touches_enqueue h.sound trivial url destination)

theorem chain_addEntries (h : s.Coherent) (count : Nat) (entries : List TextQueue.Entry)
    (hplain : ∀ entry ∈ entries, entry.Plain) :
    Chain heard s (s.addEntries count entries).scheduler :=
  Touches.chain (touches_addEntries h.sound trivial count entries hplain)

theorem chain_addAll (h : s.Coherent) (entries : List TextQueue.Entry)
    (hplain : ∀ entry ∈ entries, entry.Plain) : Chain heard s (s.addAll entries).scheduler :=
  Touches.chain (touches_addAll h.sound trivial entries hplain)

end Scheduler

end DownloadQueue
