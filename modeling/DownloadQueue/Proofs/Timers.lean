import DownloadQueue.Proofs.Strokes

namespace DownloadQueue

def Deed.Quiet (deed : Deed) : Prop :=
  deed = .discard

theorem Deed.quiet_discard : Quiet .discard :=
  rfl

namespace Scheduler

variable {s t u : Scheduler} {id other : ItemId} {woken : ItemId → Prop}

def Resting (s : Scheduler) (id : ItemId) : Prop :=
  id.value.toNat < s.table.nextId.toNat ∧ s.standing? id = none ∨ s.Stands Status.Rests id

/-- What a scheduler knows of time. -/
structure Clockwork where
  config : Config
  clock : Nat
  timers : List Timer
  pending : List (ItemId × Nat)
  nextSerial : Nat
  retries : List ItemId

def clockwork (s : Scheduler) : Clockwork :=
  ⟨s.config, s.clock, s.timers, s.pending, s.nextSerial, s.retries⟩

structure Steady (woken : ItemId → Prop) (s t : Scheduler) : Prop where
  clockwork : t.clockwork = s.clockwork
  sound : s.table.Sound → t.table.Sound
  resting : s.table.Sound → ∀ id, ¬ woken id → s.Resting id → t.Resting id

theorem Steady.config (h : Steady woken s t) : t.config = s.config :=
  congrArg Clockwork.config h.clockwork

theorem Steady.clock (h : Steady woken s t) : t.clock = s.clock :=
  congrArg Clockwork.clock h.clockwork

theorem Steady.timers (h : Steady woken s t) : t.timers = s.timers :=
  congrArg Clockwork.timers h.clockwork

theorem Steady.pending (h : Steady woken s t) : t.pending = s.pending :=
  congrArg Clockwork.pending h.clockwork

theorem Steady.nextSerial (h : Steady woken s t) : t.nextSerial = s.nextSerial :=
  congrArg Clockwork.nextSerial h.clockwork

theorem Steady.retries (h : Steady woken s t) : t.retries = s.retries :=
  congrArg Clockwork.retries h.clockwork

theorem Steady.trans (h : Steady woken s t) (h' : Steady woken t u) : Steady woken s u where
  clockwork := h'.clockwork.trans h.clockwork
  sound hsound := h'.sound (h.sound hsound)
  resting hsound id hwoken hresting :=
    h'.resting (h.sound hsound) id hwoken (h.resting hsound id hwoken hresting)

theorem Steady.of_standing? (hclock : t.clockwork = s.clockwork)
    (hids : t.table.items.map Item.id = s.table.items.map Item.id)
    (hnext : t.table.nextId = s.table.nextId) (hstanding : ∀ id, t.standing? id = s.standing? id) :
    Steady woken s t where
  clockwork := hclock
  sound hsound := hsound.of_ids hids hnext
  resting _ id _ hresting := by rwa [Resting, Stands, hnext, hstanding]

theorem Steady.of_alike (halike : Alike s t) (hclock : t.clockwork = s.clockwork) :
    Steady woken s t :=
  .of_standing? hclock halike.ids halike.nextId halike.standing?

theorem clockwork_setStatus (s : Scheduler) (id : ItemId) (status : Status) :
    (s.setStatus id status).clockwork = s.clockwork := by
  rw [setStatus_eq]
  rfl

theorem clockwork_discardPartial (s : Scheduler) (id : ItemId) :
    (s.discardPartial id).clockwork = s.clockwork := by
  rw [discardPartial]
  split <;> rfl

theorem Aside.clockwork (h : Aside s t) : t.clockwork = s.clockwork := by
  rw [Scheduler.clockwork, h.config, h.clock, h.timers, h.pending, h.nextSerial, h.retries]
  rfl

/-- A status that is set touches no timer, and it wakes no item but those that may be woken. -/
theorem steady_setStatus (id : ItemId) (status : Status)
    (h : ¬ woken id → s.Stands (fun old => old.Rests → status.Rests) id) :
    Steady woken s (s.setStatus id status) where
  clockwork := clockwork_setStatus s id status
  sound hsound := sound_setStatus hsound id status
  resting _ other hother hresting := by
    rw [Resting, nextId_setStatus, Stands, standing?_setStatus]
    by_cases heq : other = id
    · subst heq
      obtain ⟨standing, hstanding, hrests⟩ := h hother
      rw [if_pos rfl, hstanding]
      refine .inr ⟨_, rfl, hrests ?_⟩
      rcases hresting with ⟨-, hnone⟩ | ⟨found, hfound, hfoundRests⟩
      · rw [hstanding] at hnone
        cases hnone
      · rw [hstanding] at hfound
        cases hfound
        exact hfoundRests
    · rwa [if_neg heq]

theorem steady_filter (keep : Item → Bool) (hclock : t.clockwork = s.clockwork)
    (htable : t.table = { s.table with items := s.table.items.filter keep }) : Steady woken s t where
  clockwork := hclock
  sound hsound := htable ▸ hsound.filter keep
  resting hsound id _ hresting := by
    have hstanding : t.standing? id = ((s.table.get? id).filter keep).map Item.standing := by
      rw [standing?, htable]
      exact congrArg _ (hsound.find?_filter keep id)
    rw [Resting, Stands, hstanding, htable]
    rcases hresting with ⟨hold, hnone⟩ | ⟨standing, hfound, hrests⟩
    · rw [standing?, Option.map_eq_none_iff] at hnone
      exact .inl ⟨hold, by rw [hnone]; rfl⟩
    · obtain ⟨item, hget, rfl⟩ := get?_of_standing? hfound
      cases hkept : keep item with
      | true => exact .inr ⟨_, by rw [hget, Option.filter_some_pos hkept]; rfl, hrests⟩
      | false =>
        refine .inl ⟨?_, by rw [hget, Option.filter_some_neg (by simp [hkept])]; rfl⟩
        have hlt := hsound.lt_nextId item (Table.mem_of_get? hget)
        rwa [Table.id_of_get? hget] at hlt

theorem Resting.ne_nextId (h : s.table.Sound) (hresting : s.Resting id) : id ≠ ⟨s.table.nextId⟩ := by
  rintro rfl
  rcases hresting with ⟨hlt, -⟩ | ⟨standing, hstanding, -⟩
  · exact Nat.lt_irrefl _ hlt
  · rw [standing?_nextId h] at hstanding
    cases hstanding

theorem steady_addItem (h : s.table.Sound) (url : String) (destination : Path)
    (status : Option Status) : Steady woken s (s.addItem url destination status).scheduler := by
  rcases scheduler_addItem h url destination status with hsame | ⟨next, hnext, hadded⟩
  · rw [hsame]
    exact .of_standing? rfl rfl rfl fun _ => rfl
  · rw [hadded]
    have hid := s.id_newItem url destination status
    generalize s.newItem url destination status = item at hid
    have hnew : s.standing? item.id = none := hid ▸ standing?_nextId h
    have hgrown := (Counter.next64_eq_ok hnext).2
    refine ⟨rfl, fun _ => h.append hnext hid, fun _ other _ hresting => ?_⟩
    have hother : ({ s with table := ⟨s.table.items ++ [item], next⟩ } : Scheduler).standing? other =
        s.standing? other := by
      rw [standing?_append hnew, if_neg]
      exact hid ▸ hresting.ne_nextId h
    change ({ s with table := ⟨s.table.items ++ [item], next⟩ } : Scheduler).Resting other
    rw [Resting, Stands, hother]
    refine hresting.imp_left fun hgone => ⟨?_, hgone.2⟩
    exact Nat.lt_of_lt_of_le hgone.1 (Nat.le_of_lt (hgrown ▸ Nat.lt_succ_self _))

/-- New items have not failed, so none of them waits. -/
theorem steady_addEntries (h : s.table.Sound) (count : Nat) (entries : List TextQueue.Entry) :
    Steady woken s (s.addEntries count entries).scheduler := by
  induction entries generalizing s count with
  | nil => exact .of_standing? rfl rfl rfl fun _ => rfl
  | cons entry entries ih =>
    rw [addEntries]
    split
    · exact ih h _
    · next destination _ =>
      have hadd : Steady woken s _ := steady_addItem h entry.url destination entry.status
      rw [Step.andThen]
      split
      · exact hadd.trans (ih (hadd.sound h) _)
      · exact hadd

/-- Of the strokes that let nothing fail and try nothing again, only two touch timers. -/
theorem Stroke.steady (hstroke : Stroke Deed.Quiet s t) :
    Steady woken s t ∨ (∃ id, t = s.cancelTimer id) ∨ t = s.cancelAllTimers := by
  cases hstroke with
  | aside h =>
    refine .inl (.of_standing? h.clockwork (by rw [h.table]) (by rw [h.table]) fun id => ?_)
    rw [standing?, h.table]
    rfl
  | mark => exact .inl (.of_standing? rfl rfl rfl fun _ => rfl)
  | measure _ _ hrecord =>
    have hstanding (item : Item) := congrArg Item.standing (hrecord item)
    exact .inl (.of_alike (alike_modifyItem s _ _ hstanding) rfl)
  | shift h => exact .inl (steady_setStatus _ _ fun _ => h)
  | drop => exact .inl (steady_filter _ rfl rfl)
  | clear => exact .inl (steady_filter _ rfl rfl)
  | halt id => exact .inr (.inl ⟨_, rfl⟩)
  | haltAll => exact .inr (.inr rfl)
  | @discard _ _ id =>
    have hclock := clockwork_discardPartial s id
    refine .inl ⟨hclock, fun hsound => sound_discardPartial hsound id, fun _ other _ hresting => ?_⟩
    rwa [Resting, nextId_discardPartial, Stands, standing?_discardPartial]
  | fail hmay => cases hmay
  | schedule hmay => cases hmay
  | forget hmay => cases hmay
  | again hmay => cases hmay

/-- Where nothing fails no timer is set. -/
theorem Strokes.nextSerial (hstrokes : Strokes Deed.Quiet s t) :
    t.nextSerial = s.nextSerial := by
  induction hstrokes with
  | refl => rfl
  | @tail u v _ hstroke ih =>
    have hsteady : Steady (fun _ => False) u v ∨ _ := hstroke.steady
    rw [← ih]
    rcases hsteady with hsteady | ⟨id, rfl⟩ | rfl
    · exact hsteady.nextSerial
    · rw [cancelTimer]
      split <;> rfl
    · rfl

theorem pendingSerial?_forgetTimer_of_ne (hne : other ≠ id) :
    (s.forgetTimer id).pendingSerial? other = s.pendingSerial? other := by
  rw [pendingSerial?, pendingSerial?, forgetTimer, List.find?_filter]
  congr 2
  funext entry
  by_cases heq : entry.1 = other
  · simp [heq, hne]
  · simp [heq]

theorem pendingSerial?_cancelTimer_of_ne (hne : other ≠ id) :
    (s.cancelTimer id).pendingSerial? other = s.pendingSerial? other := by
  rw [cancelTimer]
  split
  · rfl
  · exact pendingSerial?_forgetTimer_of_ne hne

theorem kept_cancelTimer (s : Scheduler) (id : ItemId) :
    (s.cancelTimer id).config = s.config ∧ (s.cancelTimer id).clock = s.clock ∧
      (s.cancelTimer id).nextSerial = s.nextSerial ∧ (s.cancelTimer id).retries = s.retries := by
  rw [cancelTimer]
  split <;> exact ⟨rfl, rfl, rfl, rfl⟩

/-- Of all timers only the one that the item waits for is stopped. -/
theorem timers_cancelTimer (s : Scheduler) (id : ItemId) :
    (s.cancelTimer id).timers =
      s.timers.filter fun timer => some timer.serial ≠ s.pendingSerial? id := by
  rw [cancelTimer]
  split
  · next hnone =>
    rw [hnone]
    exact (List.filter_eq_self.mpr fun _ _ => by simp).symm
  · next serial hserial =>
    rw [hserial]
    change s.timers.filter _ = _
    congr 1
    funext timer
    simp

def timerFor (s : Scheduler) (id : ItemId) (delay : Duration) : Timer :=
  ⟨s.nextSerial, id, s.clock + min delay.nanos longestDelay.nanos⟩

def setTimer (s : Scheduler) (timer : Timer) : Scheduler :=
  { s with
    timers := s.timers ++ [timer]
    pending := s.pending ++ [(timer.id, timer.serial)]
    nextSerial := s.nextSerial + 1 }

theorem scheduleRetry_eq (s : Scheduler) (id : ItemId) (delay : Duration) :
    s.scheduleRetry id delay = (s.cancelTimer id).setTimer ((s.cancelTimer id).timerFor id delay) :=
  rfl

theorem timerFor_cancelTimer (s : Scheduler) (id : ItemId) (delay : Duration) :
    (s.cancelTimer id).timerFor id delay = s.timerFor id delay := by
  obtain ⟨-, hclock, hnext, -⟩ := kept_cancelTimer s id
  rw [timerFor, timerFor, hclock, hnext]

theorem pendingSerial?_setTimer {timer : Timer} (hnone : s.pendingSerial? timer.id = none) :
    (s.setTimer timer).pendingSerial? timer.id = some timer.serial := by
  change ((s.pending ++ [(timer.id, timer.serial)]).find? fun entry => entry.1 = timer.id).map
    Prod.snd = _
  rw [pendingSerial?] at hnone
  rw [List.find?_append, Option.map_or, hnone, Option.none_or, List.find?_cons_of_pos (by simp)]
  rfl

theorem pendingSerial?_setTimer_of_some {timer : Timer} {serial : Nat}
    (hserial : s.pendingSerial? id = some serial) :
    (s.setTimer timer).pendingSerial? id = some serial := by
  change ((s.pending ++ [(timer.id, timer.serial)]).find? fun entry => entry.1 = id).map
    Prod.snd = _
  rw [pendingSerial?] at hserial
  rw [List.find?_append, Option.map_or, hserial, Option.some_or]

theorem steady_marked (s : Scheduler) {id : ItemId} {item : Item} (hget : s.table.get? id = some item)
    (reason : String) : Steady woken s (s.marked id reason) := by
  have hfailed : Steady woken s (s.setStatus id .failed) :=
    steady_setStatus id .failed fun _ => ⟨_, standing?_of_get? hget, fun _ => .inl rfl⟩
  refine hfailed.trans (.of_alike ?_ rfl)
  refine Alike.trans ?_ (alike_emit _ _)
  exact alike_modifyItem _ id _ fun _ => rfl

theorem resting_marked {item : Item} (hget : s.table.get? id = some item) (reason : String) :
    (s.marked id reason).Resting id := by
  have halike : Alike (s.setStatus id .failed) (s.marked id reason) := by
    refine Alike.trans ?_ (alike_emit _ _)
    exact alike_modifyItem _ id _ fun _ => rfl
  refine .inr ⟨item.standing.withStatus .failed, ?_, .inl rfl⟩
  rw [halike.standing?, standing?_setStatus, if_pos rfl, standing?_of_get? hget]
  rfl

end Scheduler

end DownloadQueue
