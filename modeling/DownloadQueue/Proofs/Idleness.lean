import DownloadQueue.Proofs.Retries

/-!
# Waiting for an idle queue

Whoever waits for an idle queue looks at the snapshot published last, and if it shows work, waits for
the next one. While the queue is not shutting down this wait is for something: a worker is bound and
will end, or an item that is to be tried again has a timer that will go off or is on the retry
channel.

Three facts give this. What the last snapshot shows is what the scheduler holds. The limit is never
zero, so with free slots used a queued item means a bound worker. And an item waits to be tried again
only as long as its own timer runs or has gone off and was not heard of.
-/

namespace DownloadQueue

namespace Scheduler

variable {s t u : Scheduler} {id : ItemId} {may : Deed → Prop}

/-- The timer that an item waits for runs, or the item is on the retry channel. -/
def Heralded (s : Scheduler) (entry : ItemId × Nat) : Prop :=
  (∃ timer ∈ s.timers, timer.id = entry.1 ∧ timer.serial = entry.2) ∨ entry.1 ∈ s.retries

structure Punctual (s : Scheduler) : Prop where
  timers_lt : ∀ timer ∈ s.timers, timer.serial < s.nextSerial
  pending_lt : ∀ entry ∈ s.pending, entry.2 < s.nextSerial
  own : ∀ entry ∈ s.pending, ∀ timer ∈ s.timers, timer.serial = entry.2 → timer.id = entry.1
  heralded : ∀ entry ∈ s.pending, s.Heralded entry

/-- Only what the scheduler knows of time matters to its timers. -/
theorem Punctual.of_clockwork (h : s.Punctual) (hclock : t.clockwork = s.clockwork) :
    t.Punctual := by
  have htimers : t.timers = s.timers := congrArg Clockwork.timers hclock
  have hpending : t.pending = s.pending := congrArg Clockwork.pending hclock
  have hnext : t.nextSerial = s.nextSerial := congrArg Clockwork.nextSerial hclock
  have hretries : t.retries = s.retries := congrArg Clockwork.retries hclock
  refine ⟨?_, ?_, ?_, ?_⟩
  · rw [htimers, hnext]
    exact h.timers_lt
  · rw [hpending, hnext]
    exact h.pending_lt
  · rw [hpending, htimers]
    exact h.own
  · rw [hpending]
    intro entry hentry
    rw [Heralded, htimers, hretries]
    exact h.heralded entry hentry

theorem Punctual.of_subset (h : s.Punctual) (hnext : t.nextSerial = s.nextSerial)
    (htimers : t.timers ⊆ s.timers) (hpending : t.pending ⊆ s.pending)
    (hheralded : ∀ entry ∈ t.pending, s.Heralded entry → t.Heralded entry) : t.Punctual where
  timers_lt timer hmem := hnext ▸ h.timers_lt timer (htimers hmem)
  pending_lt entry hmem := hnext ▸ h.pending_lt entry (hpending hmem)
  own entry hentry timer htimer := h.own entry (hpending hentry) timer (htimers htimer)
  heralded entry hmem := hheralded entry hmem (h.heralded entry (hpending hmem))

theorem Punctual.forgetTimer (h : s.Punctual) (id : ItemId) : (s.forgetTimer id).Punctual := by
  refine h.of_subset rfl (List.Subset.refl _) List.filter_sublist.subset ?_
  intro entry _ hheralded
  exact hheralded

/-- The other items do not wait for the timer that is stopped. -/
theorem Punctual.cancelTimer (h : s.Punctual) (id : ItemId) : (s.cancelTimer id).Punctual := by
  rw [Scheduler.cancelTimer]
  split
  · exact h
  · next serial hserial =>
    obtain ⟨waiting, hfind, rfl⟩ := Option.map_eq_some_iff.mp hserial
    have hwaiting := List.mem_of_find?_eq_some hfind
    have hid : waiting.1 = id := by simpa using List.find?_some hfind
    refine h.of_subset rfl List.filter_sublist.subset List.filter_sublist.subset ?_
    intro entry hentry hheralded
    refine hheralded.imp_left ?_
    rintro ⟨timer, htimer, howner, hserial⟩
    refine ⟨timer, List.mem_filter.mpr ⟨htimer, ?_⟩, howner, hserial⟩
    have hother : entry.1 ≠ id := by simpa using (List.mem_filter.mp hentry).2
    have hne : timer.serial ≠ waiting.2 := by
      intro heq
      apply hother
      rw [← howner, h.own waiting hwaiting timer htimer heq, hid]
    simpa using hne

theorem Punctual.cancelAllTimers (h : s.Punctual) : s.cancelAllTimers.Punctual := by
  refine h.of_subset rfl List.filter_sublist.subset (List.nil_subset _) ?_
  intro entry hentry
  cases hentry

/-- A new timer has a serial of its own, so it is not taken for an older one of the item. -/
theorem Punctual.setTimer (h : s.Punctual) {timer : Timer} (hserial : timer.serial = s.nextSerial) :
    (s.setTimer timer).Punctual where
  timers_lt other hmem := by
    change other.serial < s.nextSerial + 1
    rcases List.mem_append.mp hmem with hold | hnew
    · exact Nat.lt_succ_of_lt (h.timers_lt other hold)
    · obtain rfl := List.mem_singleton.mp hnew
      omega
  pending_lt entry hmem := by
    change entry.2 < s.nextSerial + 1
    rcases List.mem_append.mp hmem with hold | hnew
    · exact Nat.lt_succ_of_lt (h.pending_lt entry hold)
    · obtain rfl := List.mem_singleton.mp hnew
      change timer.serial < s.nextSerial + 1
      omega
  own entry hentry other hother hsame := by
    -- the serial is new, so old and new do not mix
    rcases List.mem_append.mp hentry with hold | hnew <;>
      rcases List.mem_append.mp hother with hrunning | hset
    · exact h.own entry hold other hrunning hsame
    · obtain rfl := List.mem_singleton.mp hset
      have := h.pending_lt entry hold
      omega
    · obtain rfl := List.mem_singleton.mp hnew
      change other.serial = timer.serial at hsame
      have := h.timers_lt other hrunning
      omega
    · obtain rfl := List.mem_singleton.mp hnew
      obtain rfl := List.mem_singleton.mp hset
      rfl
  heralded entry hmem := by
    rcases List.mem_append.mp hmem with hold | hnew
    · refine (h.heralded entry hold).imp_left ?_
      rintro ⟨other, hother, hsame⟩
      exact ⟨other, List.mem_append_left _ hother, hsame⟩
    · obtain rfl := List.mem_singleton.mp hnew
      exact .inl ⟨timer, List.mem_append_right _ (List.mem_singleton_self _), rfl, rfl⟩

theorem Punctual.scheduleRetry (h : s.Punctual) (id : ItemId) (delay : Duration) :
    (s.scheduleRetry id delay).Punctual := by
  rw [scheduleRetry_eq]
  exact (h.cancelTimer id).setTimer rfl

/-- A timer that goes off is heard of on the retry channel. -/
theorem Punctual.expire (h : s.Punctual) {timer : Timer} (hmem : timer ∈ s.timers) :
    (s.expire timer).Punctual := by
  refine h.of_subset rfl List.filter_sublist.subset (List.Subset.refl _) ?_
  rintro entry hentry (⟨other, hother, howner, hserial⟩ | hheard)
  · by_cases heq : other.serial = timer.serial
    · right
      have hid : timer.id = entry.1 := h.own entry hentry timer hmem (heq ▸ hserial)
      exact List.mem_append_right _ (List.mem_singleton.mpr hid.symm)
    · left
      exact ⟨other, List.mem_filter.mpr ⟨hother, by simpa using heq⟩, howner, hserial⟩
  · exact .inr (List.mem_append_left _ hheard)

/-- An item that is taken off the retry channel waits no longer. -/
theorem Punctual.receive (h : s.Punctual) {ids : List ItemId} (hretries : s.retries = id :: ids) :
    ({ s with retries := ids }.forgetTimer id : Scheduler).Punctual := by
  refine h.of_subset rfl (List.Subset.refl _) List.filter_sublist.subset ?_
  intro entry hentry hheralded
  refine hheralded.imp_right fun hheard => ?_
  have hother : entry.1 ≠ id := by simpa using (List.mem_filter.mp hentry).2
  rw [hretries] at hheard
  exact (List.mem_cons.mp hheard).resolve_left hother

/-- No stroke stops a timer without forgetting that its item waits. -/
theorem Stroke.punctual (hstroke : Stroke may s t) (h : s.Punctual) : t.Punctual := by
  cases hstroke with
  | aside haside => exact h.of_clockwork haside.clockwork
  | mark => exact h.of_clockwork rfl
  | measure => exact h.of_clockwork rfl
  | shift => exact h.of_clockwork (clockwork_setStatus s _ _)
  | drop => exact h.of_clockwork rfl
  | clear => exact h.of_clockwork rfl
  | halt => exact h.cancelTimer _
  | haltAll => exact h.cancelAllTimers
  | discard => exact h.of_clockwork (clockwork_discardPartial s _)
  | @fail _ id =>
    apply h.of_clockwork
    exact clockwork_setStatus s id .failed
  | schedule _ _ delay => exact h.scheduleRetry _ delay
  | forget => exact h.forgetTimer _
  | @again _ id =>
    apply h.of_clockwork
    exact clockwork_setStatus _ id .queued

theorem Strokes.punctual (hstrokes : Strokes may s t) (h : s.Punctual) : t.Punctual := by
  induction hstrokes with
  | refl => exact h
  | tail _ hstroke ih => exact hstroke.punctual ih

theorem punctual_handleMessage (horderly : s.Orderly) (h : s.Punctual) {message : Message}
    (hdone : s.handleMessage message = .done u ()) : u.Punctual := by
  have hstrokes : Strokes (fun _ => True) s (s.handleMessage message).scheduler :=
    strokes_handleMessage horderly.coherent trivial message fun _ => trivial
  rw [hdone] at hstrokes
  exact hstrokes.punctual h

theorem punctual_drain (horderly : s.Orderly) (h : s.Punctual) {ended : List ItemId}
    (hdrain : s.drain = .done u ended) : u.Punctual := by
  have hboth : u.Orderly ∧ u.Punctual := by
    refine drain_induction (p := fun s => s.Orderly ∧ s.Punctual) ?_ ?_ hdrain ⟨horderly, h⟩
    · intro s inbox hs
      exact ⟨orderly_inbox hs.1 inbox, hs.2.of_clockwork rfl⟩
    · intro s u message hs hdone
      exact ⟨orderly_handleMessage hs.1 hdone, punctual_handleMessage hs.1 hs.2 hdone⟩
  exact hboth.2

/-- A number on the retry channel is taken off it together with whatever its item waited for. -/
theorem punctual_handleRetry (hcoherent : s.Coherent) (h : s.Punctual) {ids : List ItemId}
    (hretries : s.retries = id :: ids)
    (hdone : ({ s with retries := ids } : Scheduler).handleRetry id = .done u ()) : u.Punctual := by
  -- the item is forgotten first, and to forget it once more changes nothing
  have hforgotten : ({ s with retries := ids }.forgetTimer id : Scheduler).handleRetry id =
      ({ s with retries := ids } : Scheduler).handleRetry id := by
    have htwice (v : Scheduler) : (v.forgetTimer id).forgetTimer id = v.forgetTimer id := by
      simp [Scheduler.forgetTimer]
    rw [handleRetry, handleRetry, htwice]
  rw [← hforgotten] at hdone
  have hstrokes : Strokes (fun _ => True) ({ s with retries := ids }.forgetTimer id : Scheduler)
      (({ s with retries := ids }.forgetTimer id : Scheduler).handleRetry id).scheduler :=
    strokes_handleRetry ⟨hcoherent.sound, hcoherent.nodup, hcoherent.fits⟩ trivial
  rw [hdone] at hstrokes
  exact hstrokes.punctual (h.receive hretries)

theorem Punctual.markDirty_tick (h : s.Punctual) (hsound : s.table.Sound) :
    s.markDirty.tick.Punctual := by
  have hmark : Strokes (fun _ => True) s s.markDirty := .single (.mark s)
  exact (hmark.tick hsound).punctual h

theorem punctual_enqueue (hsound : s.table.Sound) (h : s.Punctual) {url : String}
    {destination : Path} {result : Except QueueError ItemId}
    (hdone : s.enqueue url destination = .done u result) : u.Punctual := by
  rw [enqueue] at hdone
  split at hdone
  · cases hdone
    exact h
  · next resolved _ =>
    have hadd : Steady (fun _ => False) s (s.addItem url resolved none).scheduler :=
      steady_addItem hsound url resolved none
    obtain ⟨v, id, hadded, hticked⟩ := Step.andThen_eq_done.mp hdone
    rw [hadded] at hadd
    cases hticked
    exact (h.of_clockwork hadd.clockwork).markDirty_tick (hadd.sound hsound)

theorem punctual_addAll (hsound : s.table.Sound) (h : s.Punctual) {entries : List TextQueue.Entry}
    {count : Nat} (hdone : s.addAll entries = .done u count) : u.Punctual := by
  have hadd : Steady (fun _ => False) s (s.addEntries 0 entries).scheduler :=
    steady_addEntries hsound 0 entries
  obtain ⟨v, added, hadded, hrest⟩ := Step.andThen_eq_done.mp hdone
  rw [hadded] at hadd
  obtain ⟨rfl, -⟩ := Step.eq_done_iff.mp hrest
  have hpunctual := h.of_clockwork hadd.clockwork
  change (if 0 < added then v.markDirty.tick else v).Punctual
  split
  · exact hpunctual.markDirty_tick (hadd.sound hsound)
  · exact hpunctual

/-- Whatever a round does, every item that waits still has its own timer. -/
theorem Effort.punctual (heffort : Effort s u) (horderly : s.Orderly) (h : s.Punctual) :
    u.Punctual := by
  cases heffort with
  | @message message messages u hinbox hdone =>
    exact punctual_handleMessage (orderly_inbox horderly messages) (h.of_clockwork rfl) hdone
  | @retry id ids u hretries hdone =>
    exact punctual_handleRetry horderly.coherent h hretries hdone
  | enqueue hdrain hdone =>
    have hsound := (orderly_drain horderly hdrain).coherent.sound
    exact punctual_enqueue hsound (punctual_drain horderly h hdrain) hdone
  | addAll hdrain hplain hdone =>
    have hsound := (orderly_drain horderly hdrain).coherent.sound
    exact punctual_addAll hsound (punctual_drain horderly h hdrain) hdone
  | @dispatch v u ended hdrain command verdict hdone =>
    have hstrokes : Strokes (fun _ => True) v (v.apply command).scheduler :=
      strokes_apply (orderly_drain horderly hdrain).coherent (fun _ _ => trivial) fun _ _ => trivial
    rw [← scheduler_dispatch v command ended, hdone] at hstrokes
    exact hstrokes.punctual (punctual_drain horderly h hdrain)

theorem Punctual.saveChanges (h : s.Punctual) : s.saveChanges.Punctual := by
  rw [Scheduler.saveChanges]
  split
  · have hsave : s.persist.1.Punctual := h.of_clockwork rfl
    split
    · next saved hsaved =>
      rw [hsaved] at hsave
      have hdrop : Strokes (fun _ => True) _ _ := strokes_dropDeleted { saved with dirty := false }
      exact hdrop.punctual (hsave.of_clockwork rfl)
    · next saved error hsaved =>
      rw [hsaved] at hsave
      exact hsave.of_clockwork rfl
  · exact h

/-- The limit is never nothing, so an item that is ready finds a slot once all workers are gone. -/
theorem Change.maxConcurrent_ne_zero {heard : ItemId → Ending → Prop} (hchange : Change heard s t)
    (h : s.maxConcurrent ≠ 0) : t.maxConcurrent ≠ 0 := by
  cases hchange with
  | note halike => exact halike.maxConcurrent ▸ h
  | save => exact h
  | close => exact h
  | engage => exact maxConcurrent_startTransfer s _ ▸ h
  | stop => exact maxConcurrent_setStatus (s.stopTransfer _ _) _ _ ▸ h
  | restop => exact h
  | shift => exact maxConcurrent_setStatus s _ _ ▸ h
  | discard => exact maxConcurrent_discardPartial s _ ▸ h
  | finish _ _ halike =>
    rw [maxConcurrent_setStatus, halike.maxConcurrent]
    exact h
  | leave => exact h
  | @clear id => exact maxConcurrent_discardPartial (s.unbind id) id ▸ h
  | add => exact h
  | drop => exact h
  | relimit _ hpositive => exact hpositive

theorem Trail.maxConcurrent_ne_zero {heard : ItemId → Ending → Prop} (htrail : Trail heard s t)
    (h : s.maxConcurrent ≠ 0) : t.maxConcurrent ≠ 0 := by
  induction htrail with
  | refl => exact h
  | tail _ hmove ih =>
    cases hmove with
    | change hchange => exact hchange.maxConcurrent_ne_zero ih
    | outside => exact ih

def Busy (s : Scheduler) : Prop :=
  s.active ≠ [] ∨ s.pending ≠ [] ∨
    s.autoDownload = true ∧ ∃ item ∈ s.table.items, item.status = .queued

theorem exists_of_countStatus_ne_zero {items : List Item} {p : Status → Bool}
    (h : countStatus items p ≠ 0) : ∃ item ∈ items, p item.status = true := by
  by_contra hnone
  apply h
  have hcount : items.countP (fun item => p item.status) = 0 := by
    rw [List.countP_eq_zero]
    intro item hmem hitem
    exact hnone ⟨item, hmem, hitem⟩
  rw [countStatus, hcount]
  rfl

theorem busy_of_snapshot {snapshot : Snapshot} (h : s.snapshot = .ok snapshot)
    (hidle : snapshot.isIdle = false) : s.Busy := by
  obtain ⟨bytes, speed, -, rfl⟩ := snapshot_eq_ok h
  by_cases hactive : s.active = []
  · by_cases hpending : s.pending = []
    · right
      right
      simp [Snapshot.isIdle, statsOf, hactive, hpending] at hidle
      obtain ⟨item, hmem, hqueued⟩ := exists_of_countStatus_ne_zero hidle.1
      exact ⟨hidle.2, item, hmem, by simpa using hqueued⟩
    · exact .inr (.inl hpending)
  · exact .inl hactive

def Posted (s : Scheduler) : Prop :=
  (s.snapshots.getLast?.getD .blank).isIdle = false → s.Busy

theorem posted_publish (hdone : s.publish = .done t ()) : t.Posted := by
  obtain ⟨snapshot, hsnapshot, rfl⟩ := publish_eq_done hdone
  intro hidle
  change ((s.snapshots ++ [snapshot]).getLast?.getD .blank).isIdle = false at hidle
  rw [List.getLast?_concat] at hidle
  exact busy_of_snapshot hsnapshot hidle

inductive Meanwhile (s : Scheduler) : Scheduler → Prop
  | change (files : FileSystem) (inbox : List Message) (clock : Nat) (now : Timestamp)
      (share : Float) : Meanwhile s { s with files, inbox, clock, now, share }
  | expire {timer : Timer} (hmem : timer ∈ s.timers) : Meanwhile s (s.expire timer)

abbrev Vigil : Scheduler → Scheduler → Prop :=
  Relation.ReflTransGen fun s t => Turn s t ∨ Meanwhile s t

theorem Meanwhile.outside (h : Meanwhile s t) : Outside (fun _ _ => True) s t := by
  cases h with
  | change files inbox clock now share =>
    exact .change trivial inbox s.timers s.retries clock now share
  | expire hmem => exact .change trivial s.inbox _ _ s.clock s.now s.share

theorem Vigil.run (h : Vigil s t) : Run (fun _ _ => True) s t :=
  Relation.ReflTransGen.mono (fun _ _ => Or.imp_right Meanwhile.outside) _ _ h

/-- What a queue that is not shutting down knows of its work. -/
structure Watchful (s : Scheduler) : Prop where
  punctual : s.Punctual
  posted : s.Posted
  positive : s.maxConcurrent ≠ 0

theorem watchful_commit (hpunctual : s.Punctual) (hpositive : s.maxConcurrent ≠ 0)
    (hdone : s.commit = .done t ()) : t.Watchful where
  punctual := by
    obtain ⟨snapshot, -, rfl⟩ := publish_eq_done hdone
    exact hpunctual.saveChanges.of_clockwork rfl
  posted := posted_publish hdone
  positive := (trail_of_chain (chain_commit s) hdone).maxConcurrent_ne_zero hpositive

theorem Turn.open (hturn : Turn s t) : s.shuttingDown = false := by
  cases hturn with
  | message hopen => exact hopen
  | retry hopen => exact hopen
  | request hopen => exact hopen

theorem Turn.watchful (hturn : Turn s t) (horderly : s.Orderly) (hopen : t.shuttingDown = false)
    (h : s.Watchful) : t.Watchful := by
  rcases hturn.cases with ⟨u, heffort, hcommit⟩ | ⟨u, ended, result, hdrain, hshutdown⟩
  · refine watchful_commit (heffort.punctual horderly h.punctual) ?_ hcommit
    exact (heffort.trail horderly.coherent).maxConcurrent_ne_zero h.positive
  · have hstopping := stopping_shutdown (orderly_drain horderly hdrain).coherent hshutdown
    rw [hstopping.closed] at hopen
    cases hopen

theorem Meanwhile.watchful (hstep : Meanwhile s t) (h : s.Watchful) : t.Watchful := by
  cases hstep with
  | change files inbox clock now share =>
    have hpunctual := h.punctual.of_subset (t := { s with files, inbox, clock, now, share }) rfl
      (List.Subset.refl _) (List.Subset.refl _) fun _ _ hheralded => hheralded
    exact ⟨hpunctual, h.posted, h.positive⟩
  | expire hmem => exact ⟨h.punctual.expire hmem, h.posted, h.positive⟩

theorem Vigil.watchful (hvigil : Vigil s t) (horderly : s.Orderly) (h : s.Watchful)
    (hopen : t.shuttingDown = false) : t.Watchful := by
  induction hvigil with
  | refl => exact h
  | @tail u v hbefore hstep ih =>
    rcases hstep with hturn | hmeanwhile
    · have hwatchful := ih hturn.open
      exact hturn.watchful (Run.orderly (Vigil.run hbefore) horderly) hopen hwatchful
    · have hsame : u.shuttingDown = v.shuttingDown := by cases hmeanwhile <;> rfl
      exact hmeanwhile.watchful (ih (hsame.trans hopen))

/-- The base case: a start admits whom it can and publishes a snapshot. -/
theorem watchful_of_start {config : Config} {around : Surroundings} {c : Controller}
    (hstart : Controller.start config around = .started c) : c.scheduler.Watchful := by
  have hpositive : config.queue.maxConcurrent ≠ 0 := by
    intro hzero
    rw [Controller.start, Config.validate, if_pos hzero] at hstart
    cases hstart
  obtain ⟨files, table, hsound, hlaunch, -⟩ := Controller.scheduler_of_start hstart
  generalize hopened : ({ Scheduler.ofTable config table files around.now around.share with
    clock := around.clock } : Scheduler) = opened at hlaunch
  have hpunctual : opened.Punctual := by
    subst hopened
    constructor <;> intro entry hentry <;> cases hentry
  have hunbound : opened.active = [] := by
    subst hopened
    rfl
  have hcoherent : opened.Coherent := by
    subst hopened
    exact .of_active_eq_nil hsound rfl
  have hrestored : Chain (fun _ _ => True) opened opened.restore.tick :=
    chain_trans_tick hcoherent (chain_restore hcoherent.sound hunbound)
  have hticked : Strokes (fun _ => True) opened opened.restore.tick :=
    (strokes_restore hcoherent.sound hunbound).tick hcoherent.sound
  refine watchful_commit (hticked.punctual hpunctual) ?_ hlaunch
  refine hrestored.trail.maxConcurrent_ne_zero ?_
  subst hopened
  exact hpositive

/-- As long as the queue is not shutting down, whoever waits because the snapshot published last
shows work waits for something: a worker is bound, or an item that is to be tried again has a timer
of its own that will go off or is on the retry channel. -/
theorem heralded_of_vigil {config : Config} {around : Surroundings} {c : Controller}
    (hstart : Controller.start config around = .started c) (hvigil : Vigil c.scheduler s)
    (hopen : s.shuttingDown = false)
    (hidle : ({ c with scheduler := s } : Controller).snapshot.isIdle = false) :
    (∃ binding, binding ∈ s.active) ∨ ∃ entry ∈ s.pending, s.Heralded entry := by
  have horderly := Controller.orderly_of_start hstart
  have hwatchful := hvigil.watchful horderly (watchful_of_start hstart) hopen
  rcases hwatchful.posted hidle with hactive | hpending | ⟨hauto, item, hmem, hqueued⟩
  · exact .inl (List.exists_mem_of_ne_nil _ hactive)
  · obtain ⟨entry, hentry⟩ := List.exists_mem_of_ne_nil _ hpending
    exact .inr ⟨entry, hentry, hwatchful.punctual.heralded entry hentry⟩
  · -- without a worker there is a free slot, and the queued item would have got it
    by_contra hnothing
    rw [not_or] at hnothing
    have hidle : s.active = [] := by
      by_contra hactive
      exact hnothing.1 (List.exists_mem_of_ne_nil _ hactive)
    have hroom : s.active.length < s.maxConcurrent.toNat := by
      rw [hidle]
      exact Nat.pos_of_ne_zero fun hzero => hwatchful.positive (UInt64.toNat_inj.mp hzero)
    have hget := (Run.orderly (Vigil.run hvigil) horderly).coherent.sound.get?_of_mem hmem
    have hfree : s.duty? item.id = none := by
      rw [duty?_eq_find?, duties, hidle]
      rfl
    have hsaturated := Run.saturated (Vigil.run hvigil) horderly (saturated_of_start hstart)
    exact hsaturated hauto hopen hroom item.id
      ⟨⟨item.standing, standing?_of_get? hget, hqueued⟩, hfree⟩

def patientRound : Step Unit :=
  ({ Watch.patientLaunch.scheduler with
    inbox := [⟨⟨3⟩, .ended (.failed "connection reset" true)⟩] } : Scheduler).takeMessage

/-- No worker is left, but the timer of the failed item runs. -/
theorem heralded_of_vigil_patient :
    ∃ (c : Controller) (s : Scheduler),
      Controller.start Watch.patientConfig ⟨roomyFiles, 0, .epoch, "", 0⟩ = .started c ∧
      Vigil c.scheduler s ∧ s.shuttingDown = false ∧
      ({ c with scheduler := s } : Controller).snapshot.isIdle = false ∧ s.active = [] ∧
      ∃ entry ∈ s.pending, s.Heralded entry := by
  have hround : patientRound.result.isOk = true := by decide +kernel
  have hwaits : Vigil Watch.patientLaunch.scheduler _ :=
    .single (.inr (.change Watch.patientLaunch.scheduler.files
      [⟨⟨3⟩, .ended (.failed "connection reset" true)⟩] 0 .epoch 0))
  have hturn : Turn _ patientRound.scheduler :=
    .message (by decide +kernel) (by decide +kernel) (Step.eq_done_of_isOk hround)
  have hvigil := hwaits.tail (.inl hturn)
  have hopen : patientRound.scheduler.shuttingDown = false := by decide +kernel
  have hidle : (patientRound.scheduler.snapshots.getLast?.getD .blank).isIdle = false := by
    decide +kernel
  have hactive : patientRound.scheduler.active = [] := by decide +kernel
  refine ⟨_, _, Watch.start_patient, hvigil, hopen, hidle, hactive, ?_⟩
  rcases heralded_of_vigil Watch.start_patient hvigil hopen hidle with ⟨binding, hbound⟩ | hwaiting
  · rw [hactive] at hbound
    cases hbound
  · exact hwaiting

end Scheduler

end DownloadQueue
