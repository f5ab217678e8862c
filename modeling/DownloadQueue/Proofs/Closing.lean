import DownloadQueue.Proofs.Records
import DownloadQueue.Proofs.Rounds
import DownloadQueue.Proofs.Timers

/-!
# While a shutdown waits

Between the moment when every worker is told to stop and the last write, the queue only listens to
its workers, for as long as the timeout allows. Nothing is begun then, and no timer is set. The
workers that have not ended when the time is up are given up on, and their items are measured,
whatever the workers were told: of a transfer that was to be thrown away the bytes stay.
-/

namespace DownloadQueue

namespace Scheduler

variable {heard : ItemId → Ending → Prop} {s t u : Scheduler} {id other : ItemId}

inductive Waits (s : Scheduler) : List Message → Scheduler → Prop
  | begin : Waits s [] s.beginShutdown
  | outside {told : List Message} {t : Scheduler} (h : Waits s told t) (files : FileSystem)
      (inbox : List Message) (clock : Nat) (now : Timestamp) (share : Float) :
      Waits s told { t with files, inbox, clock, now, share }
  | expire {told : List Message} {t : Scheduler} (h : Waits s told t) (timer : Timer) :
      Waits s told (t.expire timer)
  | hear {told rest : List Message} {message : Message} {t u : Scheduler} (h : Waits s told t)
      (hinbox : t.inbox = message :: rest) (hbusy : t.active ≠ [])
      (hdone : ({ t with inbox := rest } : Scheduler).handleMessage message = .done u ()) :
      Waits s (told ++ [message]) u

structure Still (s t : Scheduler) : Prop where
  config : t.config = s.config
  fetches : t.fetches = s.fetches
  timers : t.timers = s.timers
  pending : t.pending = s.pending
  nextSerial : t.nextSerial = s.nextSerial

theorem Still.trans (h : Still s t) (h' : Still t u) : Still s u where
  config := h'.config.trans h.config
  fetches := h'.fetches.trans h.fetches
  timers := h'.timers.trans h.timers
  pending := h'.pending.trans h.pending
  nextSerial := h'.nextSerial.trans h.nextSerial

theorem still_stopForShutdown (s : Scheduler) (binding : Binding) :
    Still s (s.stopForShutdown binding) := by
  rw [stopForShutdown]
  split
  · rw [setStatus_eq]
    exact ⟨rfl, rfl, rfl, rfl, rfl⟩
  · exact ⟨rfl, rfl, rfl, rfl, rfl⟩

theorem still_beginShutdown (s : Scheduler) :
    Still ({ s with shuttingDown := true } : Scheduler).cancelAllTimers s.beginShutdown := by
  have hfold (bindings : List Binding) (t : Scheduler) :
      Still t (bindings.foldl stopForShutdown t) := by
    induction bindings generalizing t with
    | nil => exact ⟨rfl, rfl, rfl, rfl, rfl⟩
    | cons binding bindings ih => exact (still_stopForShutdown t binding).trans (ih _)
  exact hfold _ _

theorem standing?_stopForShutdown (s : Scheduler) (binding : Binding) (other : ItemId) :
    (s.stopForShutdown binding).standing? other =
      if other = binding.id ∧ binding.stop = none then
        (s.standing? binding.id).map (Standing.withStatus .queued)
      else s.standing? other := by
  rw [stopForShutdown]
  cases binding.stop with
  | none =>
    rw [Option.isNone_none, if_pos rfl, standing?_setStatus]
    simp only [and_true]
    rfl
  | some reason =>
    rw [Option.isNone_some, if_neg Bool.false_ne_true, if_neg (by simp)]
    rfl

def Untouched (id : ItemId) (s t : Scheduler) : Prop :=
  t.duty? id = s.duty? id ∧ t.standing? id = s.standing? id

theorem Untouched.trans (h : Untouched id s t) (h' : Untouched id t u) : Untouched id s u :=
  ⟨h'.1.trans h.1, h'.2.trans h.2⟩

theorem foldl_untouched {α : Type} {key : α → ItemId} {step : Scheduler → α → Scheduler}
    (hothers : ∀ s a, id ≠ key a → Untouched id s (step s a)) (entries : List α) (s : Scheduler)
    (h : id ∉ entries.map key) : Untouched id s (entries.foldl step s) := by
  induction entries generalizing s with
  | nil => exact ⟨rfl, rfl⟩
  | cons a entries ih =>
    rw [List.map_cons, List.mem_cons, not_or] at h
    exact (hothers s a h.1).trans (ih _ h.2)

/-- A fold whose steps each touch one item touches an item once. -/
theorem foldl_meets {α : Type} {key : α → ItemId} {step : Scheduler → α → Scheduler} {a : α}
    (hothers : ∀ s b, key a ≠ key b → Untouched (key a) s (step s b)) {entries : List α}
    (hnodup : (entries.map key).Nodup) (hmem : a ∈ entries) (s : Scheduler) :
    ∃ u, Untouched (key a) s u ∧ Untouched (key a) (step u a) (entries.foldl step s) := by
  obtain ⟨before, after, rfl⟩ := List.append_of_mem hmem
  rw [List.map_append, List.nodup_append, List.map_cons, List.nodup_cons] at hnodup
  obtain ⟨-, ⟨hafter, -⟩, hdisjoint⟩ := hnodup
  have hbefore : key a ∉ before.map key := fun hmem => hdisjoint _ hmem _ List.mem_cons_self rfl
  rw [List.foldl_append, List.foldl_cons]
  exact ⟨_, foldl_untouched hothers before s hbefore, foldl_untouched hothers after _ hafter⟩

theorem untouched_stopForShutdown (s : Scheduler) (binding : Binding) (hne : id ≠ binding.id) :
    Untouched id s (s.stopForShutdown binding) := by
  refine ⟨duty?_stopForShutdown_of_ne s binding hne, ?_⟩
  rw [standing?_stopForShutdown, if_neg fun heq => hne heq.1]

/-- Every worker is told once; its item is queued if it was not told to stop before. -/
theorem beginShutdown_of_duty? (h : s.Coherent) {duty : Duty} (hduty : s.duty? id = some duty) :
    s.beginShutdown.duty? id = some (duty.stopped .shutdown) ∧
      s.beginShutdown.standing? id =
        if duty.stop = none then (s.standing? id).map (Standing.withStatus .queued)
        else s.standing? id := by
  obtain ⟨binding, hmem, rfl⟩ := List.mem_map.mp (mem_of_duty? hduty)
  obtain rfl : binding.id = id := id_of_duty? hduty
  have hnodup : (s.active.map Binding.id).Nodup := map_id_duties s ▸ h.nodup
  obtain ⟨u, ⟨hdutyBefore, hstandingBefore⟩, hdutyAfter, hstandingAfter⟩ :=
    foldl_meets untouched_stopForShutdown hnodup hmem
      ({ s with shuttingDown := true } : Scheduler).cancelAllTimers
  change s.beginShutdown.duty? binding.id = _ at hdutyAfter
  change s.beginShutdown.standing? binding.id = _ at hstandingAfter
  rw [hdutyAfter, hstandingAfter, standing?_stopForShutdown, hstandingBefore]
  constructor
  · rw [duty?_eq_find?, duties_stopForShutdown, ← duty?_eq_find?, duty?_stopTransfer, if_pos rfl,
      hdutyBefore]
    exact congrArg (Option.map (Duty.stopped .shutdown)) hduty
  · simp only [true_and, Binding.duty_stop]
    rfl

/-- Nothing has been begun and no timer has been set since the shutdown began; no item waits for a
timer, and every worker knows. -/
structure Waiting (s u : Scheduler) : Prop where
  orderly : u.Orderly
  stopping : u.Stopping
  config : u.config = s.config
  fetches : u.fetches = s.fetches
  timers : u.timers ⊆ s.timers
  pending : u.pending = []
  nextSerial : u.nextSerial = s.nextSerial

theorem waiting_beginShutdown (h : s.Orderly) : Waiting s s.beginShutdown where
  orderly := .of_chain (chain_beginShutdown h.coherent) h
  stopping := stopping_beginShutdown s
  config := (still_beginShutdown s).config
  fetches := (still_beginShutdown s).fetches
  timers := by
    rw [(still_beginShutdown s).timers]
    exact List.filter_sublist.subset
  pending := (still_beginShutdown s).pending
  nextSerial := (still_beginShutdown s).nextSerial

theorem Change.fetches_of_stopping (hchange : Change heard s t) (h : s.Stopping) :
    t.fetches = s.fetches := by
  cases hchange with
  | note halike => exact halike.fetches
  | engage hget hqueued hfree hroom hopen =>
    rw [h.closed] at hopen
    cases hopen
  | stop => exact fetches_setStatus _ _ _
  | shift => exact fetches_setStatus _ _ _
  | discard => exact fetches_discardPartial _ _
  | finish hduty hheard halike => exact (fetches_setStatus _ _ _).trans halike.fetches
  | clear => exact fetches_discardPartial _ _
  | _ => rfl

theorem Chain.of_stopping (hchain : Chain heard s t) (h : s.Stopping) :
    t.Stopping ∧ t.config = s.config ∧ t.fetches = s.fetches := by
  induction hchain with
  | refl => exact ⟨h, rfl, rfl⟩
  | tail _ hchange ih =>
    obtain ⟨hstopping, hconfig, hfetches⟩ := ih
    exact ⟨hchange.stopping hstopping, hchange.config.trans hconfig,
      (hchange.fetches_of_stopping hstopping).trans hfetches⟩

/-- Strokes that let nothing fail and try nothing again only take timers away. -/
theorem Strokes.timers_subset (hstrokes : Strokes Deed.Quiet s t) :
    t.timers ⊆ s.timers ∧ t.pending ⊆ s.pending := by
  induction hstrokes with
  | refl => exact ⟨List.Subset.refl _, List.Subset.refl _⟩
  | @tail u v _ hstroke ih =>
    have hsteady : Steady (fun _ => False) u v ∨ _ := hstroke.steady
    rcases hsteady with hsteady | ⟨id, rfl⟩ | rfl
    · rw [hsteady.timers, hsteady.pending]
      exact ih
    · rw [cancelTimer]
      split
      · exact ih
      · exact ⟨List.Subset.trans List.filter_sublist.subset ih.1,
          List.Subset.trans List.filter_sublist.subset ih.2⟩
    · exact ⟨List.Subset.trans List.filter_sublist.subset ih.1, List.nil_subset _⟩

theorem Stopping.not_fails (h : t.Stopping) (message : Message) : ¬ t.Fails message := by
  rintro ⟨binding, reason, retryable, hbinding, hstop, -⟩
  exact h.told binding.duty (List.mem_map_of_mem (List.mem_of_find?_eq_some hbinding)) hstop

/-- A message that is handled while the shutdown waits begins nothing. -/
theorem Waiting.hear (h : Waiting s t) {message : Message} {rest : List Message}
    (hdone : ({ t with inbox := rest } : Scheduler).handleMessage message = .done u ()) :
    Waiting s u := by
  have horderly := orderly_inbox h.orderly rest
  have hstopping : ({ t with inbox := rest } : Scheduler).Stopping :=
    ⟨h.stopping.closed, h.stopping.told⟩
  have hchain : Chain (fun _ _ => True) { t with inbox := rest }
      (({ t with inbox := rest } : Scheduler).handleMessage message).scheduler :=
    chain_handleMessage horderly.coherent message fun _ _ => trivial
  have hstrokes : Strokes Deed.Quiet { t with inbox := rest }
      (({ t with inbox := rest } : Scheduler).handleMessage message).scheduler :=
    strokes_handleMessage horderly.coherent Deed.quiet_discard message fun hfails =>
      absurd hfails (hstopping.not_fails message)
  rw [hdone] at hchain hstrokes
  obtain ⟨hstill, hconfig, hfetches⟩ := hchain.of_stopping hstopping
  obtain ⟨htimers, hpending⟩ := hstrokes.timers_subset
  exact
    { orderly := .of_chain hchain horderly
      stopping := hstill
      config := hconfig.trans h.config
      fetches := hfetches.trans h.fetches
      timers := List.Subset.trans htimers h.timers
      pending := List.subset_nil.mp (h.pending ▸ hpending)
      nextSerial := hstrokes.nextSerial.trans h.nextSerial }

/-- From the start of a shutdown to the end of its waiting. -/
theorem Waits.waiting {told : List Message} (hwaits : Waits s told u) (h : s.Orderly) :
    Waiting s u := by
  induction hwaits with
  | begin => exact waiting_beginShutdown h
  | outside _ files inbox clock now share ih =>
    have horderly := ih.orderly.outside files inbox clock now share
    exact ⟨horderly, ⟨ih.stopping.closed, ih.stopping.told⟩, ih.config, ih.fetches, ih.timers,
      ih.pending, ih.nextSerial⟩
  | @expire _ t _ timer ih =>
    have halike : Alike t (t.expire timer) := by constructor <;> rfl
    have hchain : Chain (fun _ _ => True) t (t.expire timer) := Chain.note halike
    exact ⟨.of_chain hchain ih.orderly, hchain.trail.stopping ih.stopping, ih.config, ih.fetches,
      List.Subset.trans List.filter_sublist.subset ih.timers, ih.pending, ih.nextSerial⟩
  | hear _ hinbox hbusy hdone ih => exact ih.hear hdone

/-- To wait for the workers is to hear messages one after the other. -/
theorem Waits.awaitWorkers {told : List Message} (hwaits : Waits s told t) {messages : List Message}
    (hdone : t.awaitWorkers messages = .done u ()) : ∃ all, Waits s all u := by
  have hinbox {told : List Message} {t : Scheduler} (hwaits : Waits s told t)
      (inbox : List Message) : Waits s told { t with inbox } := hwaits.outside t.files inbox t.clock t.now t.share
  induction messages generalizing t told with
  | nil =>
    obtain ⟨rfl, -⟩ := Step.eq_done_iff.mp hdone
    exact ⟨told, hinbox hwaits []⟩
  | cons message messages ih =>
    rw [Scheduler.awaitWorkers] at hdone
    split at hdone
    · obtain ⟨rfl, -⟩ := Step.eq_done_iff.mp hdone
      exact ⟨told, hinbox hwaits _⟩
    · next hbusy =>
      obtain ⟨v, ⟨⟩, hhandled, hrest⟩ := Step.andThen_eq_done.mp hdone
      have hready := hinbox hwaits (message :: messages)
      refine ih (hready.hear rfl (fun hnone => hbusy ?_) hhandled) hrest
      exact List.isEmpty_iff.mpr hnone

/-- What the queue does by itself when it is told to shut down is one way to wait. -/
theorem exists_waits_of_shutdown {result : Except QueueError Unit}
    (hdone : s.shutdown = .done t result) :
    ∃ told u, Waits s told u ∧ u.abandonAll.concludeShutdown = .done t result := by
  obtain ⟨u, hawait, hconclude⟩ := shutdown_eq_done hdone
  obtain ⟨told, hwaits⟩ := Waits.begin.awaitWorkers hawait
  exact ⟨told, u, hwaits, hconclude⟩

/-- What a worker that was told to stop leaves when its ending is heard in time. -/
theorem handleEnding_of_stopping (h : u.Stopping) {binding : Binding}
    (hbinding : u.binding? id = some binding) {stop : StopReason} (hstop : binding.stop = some stop)
    (ending : Ending) :
    u.handleEnding id ending = .done ((u.unbind id).settled id stop ending) () := by
  have hclosed : ((u.unbind id).settled id stop ending).shuttingDown = true :=
    (settled_frame _ id stop ending).2.trans h.closed
  rw [handleEnding_of_stop hbinding hstop, tick_of_closed hclosed]

theorem Waiting.binding?_of_mem (h : Waiting s u) {binding : Binding} (hmem : binding ∈ u.active) :
    u.binding? binding.id = some binding ∧ (∃ stop, binding.stop = some stop) ∧
      ∃ item, u.table.get? binding.id = some item := by
  have hnodup : (u.active.map Binding.id).Nodup := map_id_duties u ▸ h.orderly.coherent.nodup
  have htold := h.stopping.told binding.duty (List.mem_map_of_mem hmem)
  obtain ⟨item, hitem, hid, -⟩ := h.orderly.coherent.item_of_binding hmem
  refine ⟨Table.find?_eq_some_of_mem hnodup hmem, Option.ne_none_iff_exists'.mp htold, item, ?_⟩
  rw [← hid]
  exact h.orderly.coherent.sound.get?_of_mem hitem

/-- Every run from a queue file that loads is orderly. -/
theorem orderly_of_actions (config : Config) {files : FileSystem} {path : Path} {items : List Item}
    (hload : QueueFile.load files path = .ok items) {table : Table}
    (htable : Table.ofItems items = .ok table) (now : Timestamp) (share : Float)
    (actions : List Action) :
    (actions.foldl act (Scheduler.ofTable config table files now share).restore).Orderly := by
  have hsound : table.Sound := (Table.Sound.ofItems (QueueFile.nodup_of_load hload) htable).1
  have hstart : (Scheduler.ofTable config table files now share).restore.Orderly :=
    orderly_restore hsound rfl
  exact hstart.foldl_act actions

/-- **Stragglers.** Giving up on a worker measures its item and leaves the file at its destination.
That is what its ending would have done if the worker was to keep its bytes. If they were to be
thrown away, the ending would have removed the file and forgotten the progress. -/
theorem abandonAll_of_actions (config : Config) {files : FileSystem} {path : Path} {items : List Item}
    (hload : QueueFile.load files path = .ok items) {table : Table}
    (htable : Table.ofItems items = .ok table) (now : Timestamp) (share : Float)
    (actions : List Action) {told : List Message}
    (hwaits : Waits (actions.foldl act (Scheduler.ofTable config table files now share).restore)
      told u)
    {binding : Binding} (hmem : binding ∈ u.active) :
    ∃ item stop v, u.table.get? binding.id = some item ∧ binding.stop = some stop ∧
      u.handleEnding binding.id .cancelled = .done v () ∧
      u.abandonAll.files = u.files ∧
      u.abandonAll.table.get? binding.id = some (item.measured u.files) ∧
      (stop.discardsPartial = false →
        v.files = u.abandonAll.files ∧
        v.table.get? binding.id = u.abandonAll.table.get? binding.id) ∧
      (stop.discardsPartial = true →
        v.files = (u.files.removePartial item.destination).toOption.getD u.files ∧
        v.table.get? binding.id = some item.blank) := by
  have hwaiting := hwaits.waiting (orderly_of_actions config hload htable now share actions)
  obtain ⟨hbinding, ⟨stop, hstop⟩, item, hget⟩ := hwaiting.binding?_of_mem hmem
  have hended := handleEnding_of_stopping hwaiting.stopping hbinding hstop .cancelled
  have hsettled : (u.unbind binding.id).settled binding.id stop .cancelled =
      (u.unbind binding.id).applyStop binding.id stop := rfl
  rw [hsettled] at hended
  have hbound : u.isBound binding.id = true := by
    rw [isBound, List.any_eq_true]
    exact ⟨binding, hmem, decide_eq_true rfl⟩
  obtain ⟨-, hfiles, hgiven⟩ := abandonAll_eq u
  have hmeasured : u.abandonAll.table.get? binding.id = some (item.measured u.files) := by
    rw [hgiven, if_pos hbound, hget, Option.map_some]
  refine ⟨item, stop, _, hget, hstop, hended, hfiles, hmeasured, fun hkeeps => ?_, fun hdiscards => ?_⟩
  · rw [hmeasured, hfiles, applyStop, if_neg (by simp [hkeeps]), files_reconcile, get?_reconcile,
      if_pos rfl]
    exact ⟨rfl, congrArg (Option.map (Item.measured u.files)) hget⟩
  · rw [applyStop, if_pos hdiscards, get?_discardPartial, if_pos rfl]
    exact ⟨files_discardPartial (s := u.unbind binding.id) hget,
      congrArg (Option.map Item.blank) hget⟩

def partialFiles : FileSystem :=
  { cutOffFiles with
    nodes := cutOffFiles.nodes ++ [(["d"], .directory), (["d", "a"], .file [1, 2])] }

def cancelledRun : List Action :=
  [.operation .tick, .operation (.dispatch (.cancel ⟨3⟩) [])]

def straggling : Scheduler :=
  (cancelledRun.foldl act
    (Scheduler.ofTable {} ⟨[cutOff], 4⟩ partialFiles .epoch 0).restore).beginShutdown

def straggler : Binding :=
  ⟨⟨3⟩, 1, 2, 0, true, some .cancel⟩

theorem load_partialFiles : QueueFile.load partialFiles ⟨"/q"⟩ = .ok [cutOff] := by
  decide +kernel

theorem straggling_eq :
    straggling.active = [straggler] ∧ straggling.files = partialFiles ∧
      straggling.table.get? ⟨3⟩ = some { cutOff with status := .queued } := by
  decide +kernel

/-- The bytes of a cancelled transfer stay; its ending would have removed them. -/
theorem abandonAll_of_actions_straggling :
    straggling.abandonAll.table.get? ⟨3⟩ = some { cutOff with status := .queued } ∧
      straggling.abandonAll.files.content? ⟨"/d/a"⟩ = some [1, 2] ∧
      ∃ v, straggling.handleEnding ⟨3⟩ .cancelled = .done v () ∧
        v.table.get? ⟨3⟩ = some { cutOff with status := .queued, bytesDownloaded := 0 } ∧
        v.files.content? ⟨"/d/a"⟩ = none := by
  obtain ⟨hactive, hfiles, hitem⟩ := straggling_eq
  have htable : Table.ofItems [cutOff] = .ok ⟨[cutOff], 4⟩ := by rfl
  have hmem : straggler ∈ straggling.active := by rw [hactive]; exact List.mem_cons_self
  obtain ⟨item, stop, v, hget, hstop, hended, hkept, hrecord, -, hdiscards⟩ :=
    abandonAll_of_actions {} load_partialFiles htable .epoch 0 cancelledRun .begin hmem
  change straggling.table.get? ⟨3⟩ = some item at hget
  rw [hitem] at hget
  cases hget
  cases hstop
  obtain ⟨hremoved, hblank⟩ := hdiscards rfl
  change straggling.abandonAll.files = straggling.files at hkept
  rw [hfiles] at hkept
  refine ⟨hrecord.trans ?_, ?_, v, hended, hblank, ?_⟩
  · change some (Item.measured straggling.files _) = _
    rw [hfiles]
    decide +kernel
  · rw [hkept]
    decide +kernel
  · change v.files = (straggling.files.removePartial ⟨"/d/a"⟩).toOption.getD straggling.files
      at hremoved
    rw [hremoved, hfiles]
    decide +kernel

/-- A transfer that was to be thrown away is kept if its worker does not end in time. -/
theorem not_abandonAll_eq_handleEnding :
    ¬ ∀ (config : Config) (files : FileSystem) (path : Path) (items : List Item) (table : Table)
      (now : Timestamp) (share : Float) (actions : List Action) (told : List Message) (u v : Scheduler)
      (binding : Binding) (item : Item),
      QueueFile.load files path = .ok items → Table.ofItems items = .ok table →
      Waits (actions.foldl act (Scheduler.ofTable config table files now share).restore) told u →
      binding ∈ u.active → u.table.get? binding.id = some item →
      u.handleEnding binding.id .cancelled = .done v () →
      u.abandonAll.table.get? binding.id = v.table.get? binding.id ∧
        u.abandonAll.files.content? item.destination = v.files.content? item.destination := by
  intro hagree
  obtain ⟨hactive, hfiles, hitem⟩ := straggling_eq
  have hmem : straggler ∈ straggling.active := by rw [hactive]; exact List.mem_cons_self
  have hbinding : straggling.binding? ⟨3⟩ = some straggler := by
    rw [binding?, hactive]
    rfl
  have hstop : straggler.stop = some .cancel := rfl
  have hended := handleEnding_of_stop hbinding hstop .cancelled
  have hsame := (hagree {} partialFiles ⟨"/q"⟩ [cutOff] ⟨[cutOff], 4⟩ .epoch 0 cancelledRun [] straggling
    _ straggler _ load_partialFiles rfl .begin hmem hitem hended).1
  revert hsame
  decide +kernel

end Scheduler

end DownloadQueue
