import DownloadQueue.Proofs.Saturation
import DownloadQueue.Proofs.Timers

/-!
# Retries and the failures that earned them

A failure that is to be tried again sets a timer, and a timer that has gone off waits on the retry
channel, with nothing but the number of its item. Every number there comes from a failure of its item
that earned a retry, and comes no earlier than its timer was due. Unless somebody tried the item
again by hand while its number waited there, that failure is the last one of the item.

Otherwise it need not be: the number stays on the channel, and a failure that came later is tried
again at once, whatever its kind. And no timer runs longer than thirty years, whatever the delay.
-/

namespace DownloadQueue

structure Failure where
  id : ItemId
  retryable : Bool
  attempts : UInt32
  share : Float
  clock : Nat
  timer : Option Nat

/-- The failure is to be tried again, and this is its timer: it is due when the delay is over, or
the longest delay that there is. -/
structure Failure.Earns (config : RetryConfig) (failure : Failure) (timer : Timer) : Prop where
  item : failure.id = timer.id
  serial : failure.timer = some timer.serial
  policy : config.policy = .automatic
  retryable : failure.retryable = true
  attempts : failure.attempts < config.maxAttempts
  due : ∃ delay, config.automaticDelay failure.share failure.retryable failure.attempts =
      .ok (some delay) ∧
    timer.due = failure.clock + min delay.nanos Scheduler.longestDelay.nanos

structure Watch where
  scheduler : Scheduler
  failures : List Failure
  expired : List Timer
  /-- The failed items that were tried again by hand while they waited there. -/
  overtaken : List ItemId

def Scheduler.failureOf? (s : Scheduler) (message : Message) : Option Failure :=
  match message.report, s.binding? message.id, s.table.get? message.id with
  | .ended (.failed _ retryable), some binding, some item =>
    if binding.stop.isNone then
      some {
        id := message.id, retryable, attempts := item.attempts, share := s.share, clock := s.clock
        timer :=
          if (s.handleMessage message).scheduler.nextSerial = s.nextSerial then none
          else some s.nextSerial }
    else none
  | _, _, _ => none

namespace Watch

open Scheduler (Steady Strokes Stroke cutOff roomyFiles load_roomyFiles)

def timers (w : Watch) : List Timer :=
  w.scheduler.timers ++ w.expired

def lastFailure? (w : Watch) (id : ItemId) : Option Failure :=
  w.failures.find? fun failure => failure.id = id

def waits (w : Watch) (id : ItemId) : Bool :=
  w.scheduler.retries.contains id &&
    (w.scheduler.table.get? id).any fun item => item.status = .failed

def overtakenBy (w : Watch) : Scheduler.Operation → List ItemId
  | .dispatch (.retry id) _ => if w.waits id then id :: w.overtaken else w.overtaken
  | _ => w.overtaken

def operate (w : Watch) (operation : Scheduler.Operation) : Watch :=
  { w with scheduler := w.scheduler.operate operation, overtaken := w.overtakenBy operation }

def hear (w : Watch) (message : Message) : Watch :=
  { w with
    scheduler := (w.scheduler.handleMessage message).scheduler
    failures := (w.scheduler.failureOf? message).toList ++ w.failures }

def expire (w : Watch) (timer : Timer) : Watch :=
  { w with scheduler := w.scheduler.expire timer, expired := w.expired ++ [timer] }

def receive (w : Watch) (id : ItemId) (ids : List ItemId) : Watch :=
  { w with
    scheduler := ({ w.scheduler with retries := ids }.handleRetry id).scheduler
    expired := w.expired.tail }

inductive Step : Watch → Watch → Prop
  | hear (w : Watch) (message : Message) : Step w (w.hear message)
  | operate (w : Watch) {operation : Scheduler.Operation} (hasked : ∀ id, operation ≠ .retry id) :
      Step w (w.operate operation)
  | beginShutdown (w : Watch) : Step w { w with scheduler := w.scheduler.beginShutdown }
  | expire {w : Watch} {timer : Timer} (hmem : timer ∈ w.scheduler.timers)
      (hdue : timer.due ≤ w.scheduler.clock) : Step w (w.expire timer)
  | receive {w : Watch} {id : ItemId} {ids : List ItemId} (hwaiting : w.scheduler.retries = id :: ids) :
      Step w (w.receive id ids)
  | outside (w : Watch) (files : FileSystem) (inbox : List Message) {clock : Nat}
      (hclock : w.scheduler.clock ≤ clock) (now : Timestamp) (share : Float) :
      Step w { w with scheduler := { w.scheduler with files, inbox, clock, now, share } }

def Reachable : Watch → Watch → Prop :=
  Relation.ReflTransGen Step

/-! ## Every waiting number was earned -/

variable {w : Watch} {s t : Scheduler} {id : ItemId}

/-- Every timer comes from a failure that earned it, and no earlier than it was due. Unless its item
was overtaken, that is the last failure of the item, which has rested since. -/
structure Fair (w : Watch) : Prop where
  sound : w.scheduler.table.Sound
  waiting : w.scheduler.retries = w.expired.map Timer.id
  due : ∀ timer ∈ w.expired, timer.due ≤ w.scheduler.clock
  fresh : ∀ timer ∈ w.timers, timer.serial < w.scheduler.nextSerial
  nodup : (w.timers.map Timer.serial).Nodup
  earned : ∀ timer ∈ w.timers, ∃ failure ∈ w.failures,
    failure.Earns w.scheduler.config.retry timer
  last : ∀ timer ∈ w.timers, timer.id ∉ w.overtaken → w.scheduler.Resting timer.id ∧
    ∃ failure, w.lastFailure? timer.id = some failure ∧
      failure.Earns w.scheduler.config.retry timer
  pending : ∀ timer ∈ w.scheduler.timers, timer.id ∉ w.overtaken →
    w.scheduler.pendingSerial? timer.id = some timer.serial

/-- What leaves timers alone and wakes nobody who waits keeps them fair. -/
theorem Fair.steady (h : w.Fair) {woken : ItemId → Prop} (hsteady : Steady woken w.scheduler t)
    (hwoken : ∀ timer ∈ w.timers, timer.id ∉ w.overtaken → ¬ woken timer.id) :
    ({ w with scheduler := t } : Watch).Fair := by
  have hall : ({ w with scheduler := t } : Watch).timers = w.timers := by
    rw [timers, timers, hsteady.timers]
  constructor
  case sound => exact hsteady.sound h.sound
  case waiting => exact hsteady.retries.trans h.waiting
  case due => exact hsteady.clock ▸ h.due
  case fresh => exact hall ▸ hsteady.nextSerial ▸ h.fresh
  case nodup => exact hall ▸ h.nodup
  case earned => exact hall ▸ hsteady.config ▸ h.earned
  case last =>
    rw [hall, hsteady.config]
    intro timer hmem hfree
    obtain ⟨hresting, hearned⟩ := h.last timer hmem hfree
    exact ⟨hsteady.resting h.sound _ (hwoken timer hmem hfree) hresting, hearned⟩
  case pending =>
    intro timer hmem hfree
    change t.pendingSerial? timer.id = _
    rw [Scheduler.pendingSerial?, hsteady.pending]
    exact h.pending timer (hsteady.timers ▸ hmem) hfree

/-- Timers that are stopped, or that have gone off, leave the others fair. -/
theorem Fair.mono {w' : Watch} (h : w.Fair) (htable : w'.scheduler.table = w.scheduler.table)
    (hconfig : w'.scheduler.config = w.scheduler.config)
    (hnext : w'.scheduler.nextSerial = w.scheduler.nextSerial)
    (hfailures : w'.failures = w.failures) (hovertaken : w.overtaken ⊆ w'.overtaken)
    (htimers : w'.timers ⊆ w.timers) (hnodup : (w'.timers.map Timer.serial).Nodup)
    (hwaiting : w'.scheduler.retries = w'.expired.map Timer.id)
    (hdue : ∀ timer ∈ w'.expired, timer.due ≤ w'.scheduler.clock)
    (hpending : ∀ timer ∈ w'.scheduler.timers, timer.id ∉ w'.overtaken →
      w'.scheduler.pendingSerial? timer.id = some timer.serial) : w'.Fair where
  sound := htable ▸ h.sound
  waiting := hwaiting
  due := hdue
  fresh timer hmem := hnext ▸ h.fresh timer (htimers hmem)
  nodup := hnodup
  earned timer hmem := by
    rw [hfailures, hconfig]
    exact h.earned timer (htimers hmem)
  last timer hmem hfree := by
    rw [Scheduler.Resting, Scheduler.Stands, Scheduler.standing?, htable, lastFailure?, hfailures,
      hconfig]
    exact h.last timer (htimers hmem) fun hold => hfree (hovertaken hold)
  pending := hpending

theorem Fair.overtake (h : w.Fair) {overtaken : List ItemId} (hovertaken : w.overtaken ⊆ overtaken) :
    ({ w with overtaken } : Watch).Fair :=
  h.mono rfl rfl rfl rfl hovertaken (List.Subset.refl _) h.nodup h.waiting h.due
    fun timer hmem hfree => h.pending timer hmem fun hold => hfree (hovertaken hold)

/-- To stop the timer of one item spoils nothing for the others. -/
theorem Fair.cancelTimer (h : w.Fair) (id : ItemId) :
    ({ w with scheduler := w.scheduler.cancelTimer id } : Watch).Fair := by
  have hsub : (w.scheduler.cancelTimer id).timers.Sublist w.scheduler.timers := by
    rw [Scheduler.timers_cancelTimer]
    exact List.filter_sublist
  have hall : List.Sublist ({ w with scheduler := w.scheduler.cancelTimer id } : Watch).timers
      w.timers := hsub.append (List.Sublist.refl _)
  obtain ⟨hconfig, hclock, hnext, hretries⟩ := Scheduler.kept_cancelTimer w.scheduler id
  refine h.mono (Scheduler.table_cancelTimer _ _) hconfig hnext rfl (List.Subset.refl _) hall.subset
    (h.nodup.sublist (hall.map _)) (hretries.trans h.waiting) ?_ ?_
  · intro timer hmem
    exact hclock ▸ h.due timer hmem
  · intro timer hmem hfree
    have hserial := h.pending timer (hsub.subset hmem) hfree
    by_cases heq : timer.id = id
    · -- a timer of the item itself is the one that was stopped
      rw [Scheduler.timers_cancelTimer, List.mem_filter, ← heq, hserial] at hmem
      simp at hmem
    · exact (Scheduler.pendingSerial?_cancelTimer_of_ne heq).trans hserial

/-- A shutdown stops all timers, but the numbers that are on the retry channel stay there. -/
theorem Fair.cancelAllTimers (h : w.Fair) :
    ({ w with scheduler := w.scheduler.cancelAllTimers } : Watch).Fair := by
  have hsub : w.scheduler.cancelAllTimers.timers.Sublist w.scheduler.timers := List.filter_sublist
  have hall : List.Sublist ({ w with scheduler := w.scheduler.cancelAllTimers } : Watch).timers
      w.timers := hsub.append (List.Sublist.refl _)
  refine h.mono rfl rfl rfl rfl (List.Subset.refl _) hall.subset (h.nodup.sublist (hall.map _))
    h.waiting h.due ?_
  intro timer hmem hfree
  have hserial := h.pending timer (hsub.subset hmem) hfree
  obtain ⟨entry, hentry, hsame⟩ := Option.map_eq_some_iff.mp hserial
  have hany : (w.scheduler.pending.any fun entry => entry.2 = timer.serial) = true :=
    List.any_eq_true.mpr ⟨entry, List.mem_of_find?_eq_some hentry, by simpa using hsame⟩
  have hkept := (List.mem_filter.mp hmem).2
  rw [hany] at hkept
  cases hkept

theorem Fair.strokes (h : w.Fair) (hstrokes : Strokes Deed.Quiet w.scheduler t) :
    ({ w with scheduler := t } : Watch).Fair := by
  induction hstrokes with
  | refl => exact h
  | @tail u v _ hstroke ih =>
    have hsteady : Steady (fun _ => False) u v ∨ _ := hstroke.steady
    rcases hsteady with hsteady | ⟨id, rfl⟩ | rfl
    · exact ih.steady hsteady fun _ _ _ => not_false
    · exact ih.cancelTimer id
    · exact ih.cancelAllTimers

/-- A failure of an item that does not rest is the last one of nobody who waits. -/
theorem Fair.note (h : w.Fair) {failure : Failure} (hawake : ¬ w.scheduler.Resting failure.id) :
    ({ w with failures := failure :: w.failures } : Watch).Fair where
  sound := h.sound
  waiting := h.waiting
  due := h.due
  fresh := h.fresh
  nodup := h.nodup
  earned timer hmem := by
    obtain ⟨first, hfirst, hearns⟩ := h.earned timer hmem
    exact ⟨first, List.mem_cons_of_mem _ hfirst, hearns⟩
  last timer hmem hfree := by
    obtain ⟨hresting, hearned⟩ := h.last timer hmem hfree
    have hne : failure.id ≠ timer.id := fun heq => hawake (heq ▸ hresting)
    refine ⟨hresting, ?_⟩
    rwa [lastFailure?, List.find?_cons_of_neg (by simpa using hne)]
  pending := h.pending

/-- The timer of the last failure is as fair as the others. -/
theorem Fair.setTimer (h : w.Fair) {timer : Timer} {failure : Failure}
    (hserial : timer.serial = w.scheduler.nextSerial)
    (hnone : w.scheduler.pendingSerial? timer.id = none)
    (hresting : w.scheduler.Resting timer.id) (hlast : w.lastFailure? timer.id = some failure)
    (hearns : failure.Earns w.scheduler.config.retry timer) :
    ({ w with scheduler := w.scheduler.setTimer timer } : Watch).Fair := by
  have hperm : List.Perm ({ w with scheduler := w.scheduler.setTimer timer } : Watch).timers
      (timer :: w.timers) := by
    rw [timers, timers, Scheduler.setTimer, List.append_assoc]
    exact List.perm_middle
  have hmem {other : Timer}
      (hother : other ∈ ({ w with scheduler := w.scheduler.setTimer timer } : Watch).timers) :
      other = timer ∨ other ∈ w.timers :=
    List.mem_cons.mp (hperm.mem_iff.mp hother)
  constructor
  case sound => exact h.sound
  case waiting => exact h.waiting
  case due => exact h.due
  case fresh =>
    intro other hother
    change other.serial < w.scheduler.nextSerial + 1
    rcases hmem hother with rfl | hold
    · exact hserial ▸ Nat.lt_succ_self _
    · exact Nat.lt_succ_of_lt (h.fresh other hold)
  case nodup =>
    -- the counter is above every serial, also above those whose numbers wait on the channel
    have hnew : timer.serial ∉ w.timers.map Timer.serial := by
      intro hused
      obtain ⟨other, hother, hsame⟩ := List.mem_map.mp hused
      exact Nat.ne_of_lt (h.fresh other hother) (hsame.trans hserial)
    exact (hperm.map Timer.serial).nodup_iff.mpr (List.nodup_cons.mpr ⟨hnew, h.nodup⟩)
  case earned =>
    intro other hother
    rcases hmem hother with rfl | hold
    · exact ⟨failure, List.mem_of_find?_eq_some hlast, hearns⟩
    · exact h.earned other hold
  case last =>
    intro other hother hfree
    rcases hmem hother with rfl | hold
    · exact ⟨hresting, failure, hlast, hearns⟩
    · exact h.last other hold hfree
  case pending =>
    intro other hother hfree
    rcases List.mem_append.mp hother with hold | hnew
    · exact Scheduler.pendingSerial?_setTimer_of_some (h.pending other hold hfree)
    · obtain rfl := List.mem_singleton.mp hnew
      exact Scheduler.pendingSerial?_setTimer hnone

theorem Fair.scheduleRetry (h : w.Fair) {failure : Failure} {delay : Duration}
    (hresting : w.scheduler.Resting id) (hlast : w.lastFailure? id = some failure)
    (hearns : failure.Earns w.scheduler.config.retry (w.scheduler.timerFor id delay)) :
    ({ w with scheduler := w.scheduler.scheduleRetry id delay } : Watch).Fair := by
  have hresting : (w.scheduler.cancelTimer id).Resting id := by
    rwa [Scheduler.Resting, Scheduler.Stands, Scheduler.standing?, Scheduler.table_cancelTimer]
  rw [← (Scheduler.kept_cancelTimer w.scheduler id).1,
    ← Scheduler.timerFor_cancelTimer] at hearns
  rw [Scheduler.scheduleRetry_eq]
  have hnone := Scheduler.pendingSerial?_cancelTimer_self w.scheduler id
  exact (h.cancelTimer id).setTimer rfl hnone hresting hlast hearns

theorem failureOf?_eq_none {message : Message} (h : ¬ s.Fails message) :
    s.failureOf? message = none := by
  rw [Scheduler.failureOf?]
  split
  · next reason retryable binding item hreport hbinding hget =>
    rw [if_neg]
    intro hstop
    exact h ⟨binding, reason, retryable, hbinding, Option.isNone_iff_eq_none.mp hstop, hreport⟩
  · rfl

/-- A failure is recorded with what was known when it was met. -/
theorem failureOf?_of_fails (h : s.Coherent) {message : Message} (hfails : s.Fails message) :
    ∃ binding item reason retryable, s.binding? message.id = some binding ∧ binding.stop = none ∧
      message.report = .ended (.failed reason retryable) ∧
      s.table.get? message.id = some item ∧ ¬ s.Resting message.id ∧
      s.failureOf? message = some ⟨message.id, retryable, item.attempts, s.share, s.clock,
        if (s.handleMessage message).scheduler.nextSerial = s.nextSerial then none
        else some s.nextSerial⟩ := by
  obtain ⟨binding, reason, retryable, hbinding, hstop, hreport⟩ := hfails
  have hawake := h.awake_of_binding? hbinding (by simp [hstop])
  obtain ⟨standing, hstanding, hstatus⟩ := hawake
  obtain ⟨item, hget, rfl⟩ := Scheduler.get?_of_standing? hstanding
  refine ⟨binding, item, reason, retryable, hbinding, hstop, hreport, hget, ?_, ?_⟩
  · rintro (⟨-, hnone⟩ | ⟨found, hfound, hrests⟩)
    · rw [hstanding] at hnone
      cases hnone
    · rw [hstanding] at hfound
      cases hfound
      exact hstatus hrests
  · rw [Scheduler.failureOf?, hreport, hbinding, hget]
    simp only [hstop, Option.isNone_none, if_true]

/-- How a failure of a running transfer is handled, step by step. -/
theorem handleMessage_of_fails {message : Message} {binding : Binding} {item : Item}
    {reason : String} {retryable : Bool} (hbinding : s.binding? message.id = some binding)
    (hstop : binding.stop = none) (hreport : message.report = .ended (.failed reason retryable))
    (hget : s.table.get? message.id = some item) :
    s.handleMessage message =
      let marked := (s.unbind message.id).marked message.id reason
      match s.config.retry.automaticDelay s.share retryable item.attempts with
      | .error overflow => .stopped marked overflow
      | .ok none => .done marked.tick ()
      | .ok (some delay) => .done (marked.scheduleRetry message.id delay).tick () := by
  have hunbound : (s.unbind message.id).table.get? message.id = some item := hget
  have hfail := Scheduler.fail_eq hunbound reason retryable
  rw [Scheduler.handleMessage, hreport]
  dsimp only
  rw [Scheduler.handleEnding, hbinding]
  dsimp only
  rw [hstop]
  change ((s.unbind message.id).fail message.id reason retryable).andThen _ = _
  rw [hfail]
  have hsame : (s.unbind message.id).config.retry.automaticDelay (s.unbind message.id).share
      retryable item.attempts = s.config.retry.automaticDelay s.share retryable item.attempts := rfl
  rw [hsame]
  cases s.config.retry.automaticDelay s.share retryable item.attempts with
  | error overflow => rfl
  | ok granted => cases granted <;> rfl

theorem nextSerial_scheduleRetry_tick (h : s.table.Sound) (id : ItemId) (delay : Duration) :
    (s.scheduleRetry id delay).tick.nextSerial = s.nextSerial + 1 := by
  have hsound : (s.scheduleRetry id delay).table.Sound := Scheduler.table_cancelTimer s id ▸ h
  have htick : Strokes Deed.Quiet (s.scheduleRetry id delay) _ := Scheduler.strokes_tick hsound
  rw [htick.nextSerial]
  exact congrArg (· + 1) (Scheduler.kept_cancelTimer s id).2.2.1

/-- A failure that is to be tried again earns the timer that is set for it. -/
theorem earns_of_automaticDelay {failure : Failure} {delay : Duration}
    (hserial : failure.timer = some s.nextSerial) (hclock : failure.clock = s.clock)
    (hdelay : s.config.retry.automaticDelay failure.share failure.retryable failure.attempts =
      .ok (some delay)) :
    failure.Earns s.config.retry (s.timerFor failure.id delay) := by
  obtain ⟨hpolicy, hretryable, hattempts⟩ := RetryConfig.retries_of_automaticDelay hdelay
  refine ⟨rfl, hserial, hpolicy, hretryable, hattempts, delay, hdelay, ?_⟩
  rw [hclock]
  rfl

/-- A new failure is put down with the timer that it earns, if it earns one. -/
theorem Fair.hear_failure (h : w.Fair) (hcoherent : w.scheduler.Coherent) {message : Message}
    (hfails : w.scheduler.Fails message) : (w.hear message).Fair := by
  obtain ⟨binding, item, reason, retryable, hbinding, hstop, hreport, hget, hawake, hfailure⟩ :=
    failureOf?_of_fails hcoherent hfails
  have hhandled := handleMessage_of_fails hbinding hstop hreport hget
  have hunbound : (w.scheduler.unbind message.id).table.get? message.id = some item := hget
  have hunbind : Steady (fun _ => False) w.scheduler (w.scheduler.unbind message.id) :=
    .of_standing? rfl rfl rfl fun _ => rfl
  have hsteady := hunbind.trans (Scheduler.steady_marked _ hunbound reason)
  have hresting := Scheduler.resting_marked hunbound reason
  -- from here on it counts only that the marked scheduler is steady and that its item rests
  generalize (w.scheduler.unbind message.id).marked message.id reason = marked
    at hhandled hsteady hresting
  rw [Watch.hear, hfailure]
  generalize hrecord : (⟨message.id, retryable, item.attempts, w.scheduler.share,
    w.scheduler.clock, _⟩ : Failure) = failure
  have hid : failure.id = message.id := hrecord ▸ rfl
  have hnoted : Watch.Fair ⟨marked, failure :: w.failures, w.expired, w.overtaken⟩ := by
    have hawakeFailure : ¬ w.scheduler.Resting failure.id := hid ▸ hawake
    exact (h.note hawakeFailure).steady hsteady fun _ _ _ => not_false
  change Watch.Fair ⟨_, failure :: w.failures, w.expired, w.overtaken⟩
  cases hdelay : w.scheduler.config.retry.automaticDelay w.scheduler.share retryable
    item.attempts with
  | error overflow =>
    rw [hhandled, hdelay]
    exact hnoted
  | ok granted =>
    cases granted with
    | none =>
      rw [hhandled, hdelay]
      exact hnoted.strokes (Scheduler.strokes_tick hnoted.sound)
    | some delay =>
      -- the watch reads the serial off the counter, so it must be the one that the new timer got
      have hserial : failure.timer = some marked.nextSerial := by
        have hnext : (w.scheduler.handleMessage message).scheduler.nextSerial =
            marked.nextSerial + 1 := by
          rw [hhandled, hdelay]
          exact nextSerial_scheduleRetry_tick hnoted.sound message.id delay
        rw [← hrecord]
        dsimp only
        rw [hnext, hsteady.nextSerial, if_neg (Nat.succ_ne_self _)]
      have hclock : failure.clock = marked.clock := by
        rw [← hrecord, hsteady.clock]
      have hearns : failure.Earns marked.config.retry (marked.timerFor message.id delay) := by
        rw [← hid]
        refine earns_of_automaticDelay hserial hclock ?_
        rw [hsteady.config, ← hrecord]
        exact hdelay
      have hlast : (failure :: w.failures).find? (fun failure => failure.id = message.id) =
          some failure :=
        List.find?_cons_of_pos (decide_eq_true hid)
      have hset := hnoted.scheduleRetry hresting hlast hearns
      rw [hhandled, hdelay]
      exact hset.strokes (Scheduler.strokes_tick hset.sound)

theorem Fair.hear (h : w.Fair) (hcoherent : w.scheduler.Coherent) (message : Message) :
    (w.hear message).Fair := by
  by_cases hfails : w.scheduler.Fails message
  · exact h.hear_failure hcoherent hfails
  · rw [Watch.hear, failureOf?_eq_none hfails]
    refine h.strokes ?_
    exact Scheduler.strokes_handleMessage hcoherent Deed.quiet_discard message
      fun hfail => absurd hfail hfails

/-! ## New attempts -/

/-- An item that no timer waits for is tried again. -/
theorem Fair.tryAgain (h : w.Fair) (item : Item)
    (hnone : id ∉ w.overtaken → ∀ timer ∈ w.timers, timer.id ≠ id) :
    ({ w with scheduler := (w.scheduler.tryAgain id item).scheduler } : Watch).Fair := by
  rw [Scheduler.tryAgain]
  split
  · exact h
  · next attempts _ =>
    have hnote : Steady (fun other => other = id) w.scheduler
        (w.scheduler.modifyItem id fun item => { item with attempts }) := by
      refine .of_alike ?_ rfl
      exact Scheduler.alike_modifyItem _ id _ fun _ => rfl
    have hwoken := hnote.trans (Scheduler.steady_setStatus id .queued fun hne => absurd rfl hne)
    have hqueued := h.steady hwoken fun timer hmem hfree heq => hnone (heq ▸ hfree) timer hmem heq
    exact hqueued.strokes (Scheduler.strokes_tick hqueued.sound)

/-- A command to try a failed item again stops its timer. What waits on the channel it leaves there,
and then the item is overtaken. -/
theorem Fair.retry (h : w.Fair) (id : ItemId) (ended : List ItemId) :
    (w.operate (.dispatch (.retry id) ended)).Fair := by
  have hkept : w.overtaken ⊆ w.overtakenBy (.dispatch (.retry id) ended) := by
    rw [overtakenBy]
    split
    · exact List.subset_cons_self _ _
    · exact List.Subset.refl _
  have hovertaken := h.overtake hkept
  have hscheduler : w.scheduler.operate (.dispatch (.retry id) ended) =
      (w.scheduler.apply (.retry id)).scheduler := Scheduler.scheduler_dispatch _ _ _
  rw [operate, hscheduler, Scheduler.apply, Scheduler.onItem]
  split
  · exact hovertaken
  · next item hget =>
    have hid := Table.id_of_get? hget
    rw [Scheduler.retry]
    split
    · next hfailed =>
      have hcancelled := hovertaken.cancelTimer item.id
      have hagain : (((w.scheduler.cancelTimer item.id).tryAgain item.id item).andThen fun s () =>
          DownloadQueue.Step.done s (Except.ok Outcome.applied : Scheduler.Verdict)).scheduler =
          ((w.scheduler.cancelTimer item.id).tryAgain item.id item).scheduler := by
        rw [DownloadQueue.Step.andThen]
        split <;> rfl
      rw [hagain]
      refine hcancelled.tryAgain item fun hfree timer hmem heq => ?_
      rcases List.mem_append.mp hmem with hset | hexpired
      · have hserial := hcancelled.pending timer hset (heq ▸ hfree)
        rw [heq, Scheduler.pendingSerial?_cancelTimer_self] at hserial
        cases hserial
      · -- the item waits, so it is overtaken
        have hwaits : w.waits id = true := by
          rw [waits, hget, h.waiting, List.contains_iff_mem.mpr]
          · simpa using hfailed
          · exact List.mem_map.mpr ⟨timer, hexpired, heq.trans hid⟩
        apply hfree
        change item.id ∈ w.overtakenBy (.dispatch (.retry id) ended)
        rw [overtakenBy, if_pos hwaits, hid]
        exact List.mem_cons_self
    · exact hovertaken

/-- An item that was not overtaken has one timer at most. -/
theorem Fair.alone (h : w.Fair) {timer : Timer} {rest : List Timer}
    (hexpired : w.expired = timer :: rest) (hfree : timer.id ∉ w.overtaken) :
    ∀ other ∈ w.scheduler.timers ++ rest, other.id ≠ timer.id := by
  intro other hother hsame
  have htimers : w.timers.Perm (timer :: (w.scheduler.timers ++ rest)) := by
    rw [timers, hexpired]
    exact List.perm_middle
  obtain ⟨-, failure, hlast, hearns⟩ := h.last timer (htimers.mem_iff.mpr List.mem_cons_self) hfree
  obtain ⟨-, same, hlastOther, hearnsOther⟩ :=
    h.last other (htimers.mem_iff.mpr (List.mem_cons_of_mem _ hother)) (hsame ▸ hfree)
  rw [hsame, hlast] at hlastOther
  cases hlastOther
  have hserial : timer.serial = other.serial := by
    have hsome := hearns.serial.symm.trans hearnsOther.serial
    exact Option.some_inj.mp hsome
  have hnodup := (htimers.map Timer.serial).nodup_iff.mp h.nodup
  rw [List.map_cons, List.nodup_cons] at hnodup
  exact hnodup.1 (hserial ▸ List.mem_map_of_mem hother)

/-- A number that is taken off the channel stands for a failure that earned it. -/
theorem Fair.receive (h : w.Fair) {ids : List ItemId} (hwaiting : w.scheduler.retries = id :: ids) :
    (w.receive id ids).Fair := by
  obtain ⟨timer, rest, hexpired, rfl, rfl⟩ : ∃ timer rest, w.expired = timer :: rest ∧
      timer.id = id ∧ rest.map Timer.id = ids := by
    have hmap := h.waiting.symm.trans hwaiting
    exact List.map_eq_cons_iff.mp hmap
  have hnone : timer.id ∉ w.overtaken → ∀ other ∈ w.scheduler.timers ++ rest, other.id ≠ timer.id :=
    h.alone hexpired
  have hsub : (w.scheduler.timers ++ rest).Sublist w.timers := by
    rw [timers, hexpired]
    exact (List.Sublist.refl _).append (List.sublist_cons_self _ _)
  have htaken : Watch.Fair ⟨({ w.scheduler with retries := rest.map Timer.id } :
      Scheduler).forgetTimer timer.id, w.failures, rest, w.overtaken⟩ := by
    refine h.mono rfl rfl rfl rfl (List.Subset.refl _) hsub.subset (h.nodup.sublist (hsub.map _))
      rfl ?_ ?_
    · exact fun other hother => h.due other (hexpired ▸ List.mem_cons_of_mem _ hother)
    · intro other hother hfree
      by_cases heq : other.id = timer.id
      · exact absurd heq (hnone (heq ▸ hfree) other (List.mem_append_left rest hother))
      · rw [Scheduler.pendingSerial?_forgetTimer_of_ne heq]
        exact h.pending other hother hfree
  rw [Watch.receive, hexpired, List.tail_cons, Scheduler.handleRetry]
  split
  · exact htaken
  · next item _ =>
    split
    · exact htaken.tryAgain item hnone
    · exact htaken

/-! ## Runs -/

/-- A timer that goes off is due, and its item waits on the retry channel from then on. -/
theorem Fair.expire (h : w.Fair) {timer : Timer} (hmem : timer ∈ w.scheduler.timers)
    (hdue : timer.due ≤ w.scheduler.clock) : (w.expire timer).Fair := by
  have hkept : (w.scheduler.expire timer).timers.Sublist w.scheduler.timers := List.filter_sublist
  have hnodup := h.nodup
  rw [timers, List.map_append, List.nodup_append] at hnodup
  obtain ⟨hset, hexpired, hapart⟩ := hnodup
  refine h.mono rfl rfl rfl rfl (List.Subset.refl _) ?_ ?_ ?_ ?_ ?_
  · intro other hother
    rcases List.mem_append.mp hother with hother | hother
    · exact List.mem_append_left _ (hkept.subset hother)
    · rcases List.mem_append.mp hother with hother | hother
      · exact List.mem_append_right _ hother
      · exact List.mem_append_left _ (List.mem_singleton.mp hother ▸ hmem)
  · change ((w.scheduler.expire timer).timers ++ (w.expired ++ [timer])).map Timer.serial |>.Nodup
    -- the timer goes from the one list to the other, so no serial stands there twice
    have hnew : timer.serial ∉ (w.scheduler.expire timer).timers.map Timer.serial := by
      intro hused
      obtain ⟨other, hother, hserial⟩ := List.mem_map.mp hused
      have hne := (List.mem_filter.mp hother).2
      rw [hserial] at hne
      simp at hne
    have hnotExpired : timer.serial ∉ w.expired.map Timer.serial := fun hused =>
      hapart _ (List.mem_map_of_mem hmem) _ hused rfl
    simp only [List.map_append, List.map_cons, List.map_nil]
    rw [← List.append_assoc, List.nodup_append]
    refine ⟨List.nodup_append.mpr ⟨hset.sublist (hkept.map _), hexpired, ?_⟩,
      List.nodup_singleton _, ?_⟩
    · exact fun serial hserial => hapart serial ((hkept.map _).subset hserial)
    · intro serial hserial other hother heq
      rw [List.mem_singleton] at hother
      rw [heq, hother] at hserial
      exact (List.mem_append.mp hserial).elim hnew hnotExpired
  · change w.scheduler.retries ++ [timer.id] = (w.expired ++ [timer]).map Timer.id
    rw [h.waiting, List.map_append]
    rfl
  · intro other hother
    rcases List.mem_append.mp hother with hother | hother
    · exact h.due other hother
    · exact List.mem_singleton.mp hother ▸ hdue
  · exact fun other hother hfree => h.pending other (hkept.subset hother) hfree

theorem Fair.commit (h : w.Fair) :
    ({ w with scheduler := w.scheduler.commit.scheduler } : Watch).Fair := by
  have hsave : Steady (fun _ => False) w.scheduler w.scheduler.persist.1 :=
    .of_standing? rfl rfl rfl fun _ => rfl
  have hsaved : ({ w with scheduler := w.scheduler.saveChanges } : Watch).Fair := by
    rw [Scheduler.saveChanges]
    split
    · split
      · next saved hpersist =>
        rw [hpersist] at hsave
        have hclean : Steady (fun _ => False) saved { saved with dirty := false } :=
          .of_standing? rfl rfl rfl fun _ => rfl
        exact (h.steady (hsave.trans hclean) fun _ _ _ => not_false).strokes
          (Scheduler.strokes_dropDeleted _)
      · next saved error hpersist =>
        rw [hpersist] at hsave
        exact (h.steady hsave fun _ _ _ => not_false).strokes (Scheduler.strokes_emit _ _)
    · exact h
  have hpublish : Steady (fun _ => False) w.scheduler.saveChanges w.scheduler.commit.scheduler := by
    refine .of_alike (Scheduler.alike_publish _) ?_
    rw [Scheduler.commit, Scheduler.publish]
    split <;> rfl
  exact hsaved.steady hpublish fun _ _ _ => not_false

theorem Fair.markDirty_tick (h : w.Fair) (hsteady : Steady (fun _ => False) w.scheduler t) :
    ({ w with scheduler := t.markDirty.tick } : Watch).Fair := by
  have hadded := h.steady hsteady fun _ _ _ => not_false
  have hmark : Strokes Deed.Quiet t t.markDirty := .single (.mark t)
  exact hadded.strokes (hmark.tick hadded.sound)

theorem Fair.enqueue (h : w.Fair) (url : String) (destination : Path) :
    ({ w with scheduler := (w.scheduler.enqueue url destination).scheduler } : Watch).Fair := by
  rw [Scheduler.enqueue]
  split
  · exact h
  · next resolved _ =>
    have hadd : Steady (fun _ => False) w.scheduler _ :=
      Scheduler.steady_addItem h.sound url resolved none
    rw [DownloadQueue.Step.andThen]
    split
    · exact h.markDirty_tick hadd
    · exact h.steady hadd fun _ _ _ => not_false

theorem Fair.addAll (h : w.Fair) (entries : List TextQueue.Entry) :
    ({ w with scheduler := (w.scheduler.addAll entries).scheduler } : Watch).Fair := by
  have hadd : Steady (fun _ => False) w.scheduler _ :=
    Scheduler.steady_addEntries h.sound 0 entries
  rw [Scheduler.addAll, DownloadQueue.Step.andThen]
  split
  · next count _ =>
    change Watch.Fair { w with scheduler := if 0 < count then _ else _ }
    split
    · exact h.markDirty_tick hadd
    · exact h.steady hadd fun _ _ _ => not_false
  · exact h.steady hadd fun _ _ _ => not_false

/-- No operation but a retry by hand brings a failed item back. -/
theorem Fair.operate (h : w.Fair) (hcoherent : w.scheduler.Coherent)
    {operation : Scheduler.Operation} (hasked : ∀ id, operation ≠ .retry id) :
    (w.operate operation).Fair := by
  cases operation with
  | enqueue url destination => exact h.enqueue url destination
  | addText text => exact h.addAll _
  | retry id => exact absurd rfl (hasked id)
  | tick => exact h.strokes (Scheduler.strokes_tick h.sound)
  | commit => exact h.commit
  | dispatch command ended =>
    by_cases hretry : ∃ id, command = .retry id
    · obtain ⟨id, rfl⟩ := hretry
      exact h.retry id ended
    · have hkept : w.overtakenBy (.dispatch command ended) = w.overtaken := by
        rw [overtakenBy]
        intro id other heq
        cases heq
        exact hretry ⟨id, rfl⟩
      have hstrokes : Strokes Deed.Quiet w.scheduler (w.scheduler.apply command).scheduler :=
        Scheduler.strokes_apply hcoherent (fun _ _ => Deed.quiet_discard)
          fun id hcommand => absurd ⟨id, hcommand⟩ hretry
      rw [Watch.operate, hkept]
      change Watch.Fair { w with scheduler := (w.scheduler.dispatch command ended).scheduler }
      rw [Scheduler.scheduler_dispatch]
      exact h.strokes hstrokes

theorem Step.fair {w' : Watch} (hstep : Step w w') (hcoherent : w.scheduler.Coherent) (h : w.Fair) :
    w'.Fair := by
  cases hstep with
  | hear message => exact h.hear hcoherent message
  | operate hasked => exact h.operate hcoherent hasked
  | beginShutdown => exact h.strokes (Scheduler.strokes_beginShutdown hcoherent)
  | expire hmem hdue => exact h.expire hmem hdue
  | receive hwaiting => exact h.receive hwaiting
  | outside files inbox hclock now share =>
    exact h.mono rfl rfl rfl rfl (List.Subset.refl _) (List.Subset.refl _) h.nodup h.waiting
      (fun timer hmem => Nat.le_trans (h.due timer hmem) hclock) h.pending

theorem Step.coherent {w' : Watch} (hstep : Step w w') (h : w.scheduler.Coherent) :
    w'.scheduler.Coherent := by
  have hchain {t : Scheduler} (hchain : Scheduler.Chain (fun _ _ => True) w.scheduler t) :
      t.Coherent := hchain.coherent h
  cases hstep with
  | hear message => exact hchain (Scheduler.chain_handleMessage h message fun _ _ => trivial)
  | operate => exact hchain (Scheduler.chain_operate h _)
  | beginShutdown => exact hchain (Scheduler.chain_beginShutdown h)
  | expire => exact ⟨h.sound, h.nodup, h.fits⟩
  | @receive id ids =>
    have htaken : ({ w.scheduler with retries := ids } : Scheduler).Coherent :=
      ⟨h.sound, h.nodup, h.fits⟩
    have hretry : Scheduler.Chain (fun _ _ => True) { w.scheduler with retries := ids } _ :=
      Scheduler.chain_handleRetry htaken id
    exact hretry.coherent htaken
  | outside => exact ⟨h.sound, h.nodup, h.fits⟩

theorem Reachable.fair {w' : Watch} (hreach : Reachable w w') (hcoherent : w.scheduler.Coherent)
    (h : w.Fair) : w'.scheduler.Coherent ∧ w'.Fair := by
  induction hreach with
  | refl => exact ⟨hcoherent, h⟩
  | tail _ hstep ih => exact ⟨hstep.coherent ih.1, hstep.fair ih.1 ih.2⟩

/-- When a session starts no timer runs and nothing has failed yet. -/
theorem fair_start {config : Config} {around : Surroundings} {c : Controller}
    (hstart : Controller.start config around = .started c) : Watch.Fair ⟨c.scheduler, [], [], []⟩ := by
  obtain ⟨files, table, hsound, hlaunch, -⟩ := Controller.scheduler_of_start hstart
  have hlaunched := congrArg DownloadQueue.Step.scheduler hlaunch
  change _ = c.scheduler at hlaunched
  rw [← hlaunched]
  generalize hfirst : ({ Scheduler.ofTable config table files around.now around.share with
    clock := around.clock } : Scheduler) = s
  have hidle : Watch.Fair ⟨s, [], [], []⟩ := by
    subst hfirst
    refine ⟨hsound, rfl, ?_, ?_, List.nodup_nil, ?_, ?_, ?_⟩ <;>
      exact fun timer hmem => absurd hmem List.not_mem_nil
  have hunbound : s.active = [] := by
    subst hfirst
    rfl
  have hrestore : Strokes Deed.Quiet s s.restore := Scheduler.strokes_restore hidle.sound hunbound
  exact (hidle.strokes (hrestore.tick hidle.sound)).commit

/-- Whenever a number is taken off the retry channel, a failure of its item earned that retry, and
the timer that was set for that failure is due. Unless the item was overtaken, it is the last failure
of the item. -/
theorem earned_of_reachable {config : Config} {around : Surroundings} {c : Controller}
    (hstart : Controller.start config around = .started c)
    (hreach : Reachable ⟨c.scheduler, [], [], []⟩ w) {ids : List ItemId}
    (hwaiting : w.scheduler.retries = id :: ids) :
    ∃ timer failure, w.expired.head? = some timer ∧ timer.id = id ∧
      timer.due ≤ w.scheduler.clock ∧ failure ∈ w.failures ∧
      failure.Earns w.scheduler.config.retry timer ∧
      (id ∉ w.overtaken → w.lastFailure? id = some failure) := by
  have hcoherent := (Controller.orderly_of_start hstart).coherent
  obtain ⟨-, hfair⟩ := hreach.fair hcoherent (fair_start hstart)
  obtain ⟨timer, rest, hexpired, rfl, -⟩ := List.map_eq_cons_iff.mp (hfair.waiting.symm.trans hwaiting)
  have hmem : timer ∈ w.expired := hexpired ▸ List.mem_cons_self
  have htimer : timer ∈ w.timers := List.mem_append_right _ hmem
  have hhead : w.expired.head? = some timer := by rw [hexpired]; rfl
  by_cases hover : timer.id ∈ w.overtaken
  · obtain ⟨failure, hfailure, hearns⟩ := hfair.earned timer htimer
    exact ⟨timer, failure, hhead, rfl, hfair.due timer hmem, hfailure, hearns,
      fun hfree => absurd hover hfree⟩
  · obtain ⟨-, failure, hlast, hearns⟩ := hfair.last timer htimer hover
    exact ⟨timer, failure, hhead, rfl, hfair.due timer hmem, List.mem_of_find?_eq_some hlast, hearns,
      fun _ => hlast⟩

def patientConfig : Config :=
  { queue := { queueFile := ⟨"/q"⟩ }
    retry := {
      policy := .automatic
      initialDelay := .ofSecs 10000000000
      maxDelay := .ofSecs 10000000000
      jitter := false } }

def patientLaunch : DownloadQueue.Step Unit :=
  (Scheduler.ofTable patientConfig ⟨[cutOff], 4⟩ roomyFiles .epoch 0).launch

def patientFailure : Watch :=
  let w : Watch := ⟨patientLaunch.scheduler, [], [], []⟩
  let w := w.hear ⟨⟨3⟩, .ended (.failed "connection reset" true)⟩
  { w with scheduler := { w.scheduler with clock := Scheduler.longestDelay.nanos } }

def patientExpiry : Watch :=
  patientFailure.expire ⟨0, ⟨3⟩, Scheduler.longestDelay.nanos⟩

/-- Before the control loop looks at the retry channel, the item is tried again by hand, and fails
for good. -/
def patientRace : Watch :=
  (patientExpiry.operate (.dispatch (.retry ⟨3⟩) [])).hear ⟨⟨3⟩, .ended (.failed "HTTP 404" false)⟩

theorem start_patient :
    Controller.start patientConfig ⟨roomyFiles, 0, .epoch, "", 0⟩ =
      .started ⟨patientLaunch.scheduler, true, none⟩ := by
  have hlaunch : patientLaunch.result.isOk = true := by decide +kernel
  exact Controller.start_eq_started (by decide +kernel) load_roomyFiles rfl
    (DownloadQueue.Step.eq_done_of_isOk hlaunch)

theorem reachable_patientExpiry : Reachable ⟨patientLaunch.scheduler, [], [], []⟩ patientExpiry := by
  have hbroken : Reachable ⟨patientLaunch.scheduler, [], [], []⟩ _ :=
    .single (.hear _ ⟨⟨3⟩, .ended (.failed "connection reset" true)⟩)
  have hfailure : Reachable _ patientFailure := hbroken.tail (.outside _ _ _ (by decide +kernel) _ _)
  exact hfailure.tail (.expire (by decide +kernel) (by decide +kernel))

/-- After thirty years the item waits on the retry channel for its only failure. -/
theorem earned_of_reachable_patient :
    ∃ (c : Controller) (timer : Timer) (failure : Failure),
      Controller.start patientConfig ⟨roomyFiles, 0, .epoch, "", 0⟩ = .started c ∧
      Reachable ⟨c.scheduler, [], [], []⟩ patientExpiry ∧
      patientExpiry.scheduler.retries = [⟨3⟩] ∧ timer.due ≤ patientExpiry.scheduler.clock ∧
      failure.Earns patientExpiry.scheduler.config.retry timer ∧
      patientExpiry.lastFailure? ⟨3⟩ = some failure := by
  have hwaiting : patientExpiry.scheduler.retries = [⟨3⟩] := by decide +kernel
  have hfree : ⟨3⟩ ∉ patientExpiry.overtaken := by decide +kernel
  obtain ⟨timer, failure, -, -, hdue, -, hearns, hlast⟩ :=
    earned_of_reachable start_patient reachable_patientExpiry hwaiting
  exact ⟨_, timer, failure, start_patient, reachable_patientExpiry, hwaiting, hdue, hearns,
    hlast hfree⟩

/-- An item whose last failure is not to be tried again is tried again all the same, for the timer of
a failure before that one; and an item is tried again before its delay is over. Each has a worker at
once. -/
theorem not_always_earned :
    (∃ w, Reachable ⟨patientLaunch.scheduler, [], [], []⟩ w ∧ w.scheduler.retries = [⟨3⟩] ∧
      (w.scheduler.table.get? ⟨3⟩).map Item.status = some .failed ∧
      (w.lastFailure? ⟨3⟩).map Failure.retryable = some false ∧
      ((w.receive ⟨3⟩ []).scheduler.table.get? ⟨3⟩).map Item.status = some .downloading) ∧
    ∃ w, Reachable ⟨patientLaunch.scheduler, [], [], []⟩ w ∧ w.scheduler.retries = [⟨3⟩] ∧
      (w.scheduler.table.get? ⟨3⟩).map Item.status = some .failed ∧
      (∃ delay, ((w.lastFailure? ⟨3⟩).map fun failure =>
          w.scheduler.config.retry.automaticDelay failure.share failure.retryable failure.attempts) =
          some (.ok (some delay)) ∧
        ((w.lastFailure? ⟨3⟩).any fun failure =>
          w.scheduler.clock < failure.clock + delay.nanos) = true) ∧
      ((w.receive ⟨3⟩ []).scheduler.table.get? ⟨3⟩).map Item.status = some .downloading := by
  have hrace : Reachable ⟨patientLaunch.scheduler, [], [], []⟩ patientRace := by
    have hasked : Reachable _ (patientExpiry.operate (.dispatch (.retry ⟨3⟩) [])) :=
      reachable_patientExpiry.tail (.operate _ fun _ heq => by cases heq)
    exact hasked.tail (.hear _ _)
  constructor
  · exact ⟨patientRace, hrace, by decide +kernel⟩
  · refine ⟨patientExpiry, reachable_patientExpiry, by decide +kernel, by decide +kernel, ?_,
      by decide +kernel⟩
    exact ⟨.ofSecs 10000000000, by decide +kernel, by decide +kernel⟩

end Watch

end DownloadQueue
