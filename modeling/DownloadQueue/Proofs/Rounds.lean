import DownloadQueue.Controller
import DownloadQueue.Proofs.Binding

namespace DownloadQueue

namespace Step

variable {α β : Type} {step : Step α} {next : Scheduler → α → Step β} {t : Scheduler}

theorem eq_done_iff {value : α} :
    step = done t value ↔ step.scheduler = t ∧ step.result = .ok value := by
  cases step
  simp [done]

theorem exists_eq_done_of_isOk (h : step.result.isOk = true) :
    ∃ value, step = done step.scheduler value := by
  cases hresult : step.result with
  | ok value => exact ⟨value, eq_done_iff.mpr ⟨rfl, hresult⟩⟩
  | error overflow =>
    rw [hresult] at h
    cases h

theorem eq_done_of_isOk {step : Step Unit} (h : step.result.isOk = true) :
    step = done step.scheduler () := by
  obtain ⟨⟨⟩, hdone⟩ := exists_eq_done_of_isOk h
  exact hdone

/-- Two operations in a row come to their end exactly if both do. -/
theorem andThen_eq_done {value : β} :
    step.andThen next = done t value ↔
      ∃ u first, step = done u first ∧ next u first = done t value := by
  obtain ⟨u, result⟩ := step
  cases result with
  | ok first => simp [andThen, done]
  | error overflow => simp [andThen, done, stopped]

end Step

def Request.Plain : Request → Prop
  | .addAll entries => ∀ entry ∈ entries, entry.Plain
  | _ => True

namespace Scheduler

variable {s t u : Scheduler}

/-- What a round does before it commits. -/
inductive Effort (s : Scheduler) : Scheduler → Prop
  | message {message : Message} {messages : List Message} {u : Scheduler}
      (hinbox : s.inbox = message :: messages)
      (hdone : ({ s with inbox := messages } : Scheduler).handleMessage message = .done u ()) :
      Effort s u
  | retry {id : ItemId} {ids : List ItemId} {u : Scheduler} (hretries : s.retries = id :: ids)
      (hdone : ({ s with retries := ids } : Scheduler).handleRetry id = .done u ()) : Effort s u
  | enqueue {u v : Scheduler} {ended : List ItemId} (hdrain : s.drain = .done u ended)
      {url : String} {destination : Path} {result : Except QueueError ItemId}
      (hdone : u.enqueue url destination = .done v result) : Effort s v
  | addAll {u v : Scheduler} {ended : List ItemId} (hdrain : s.drain = .done u ended)
      {entries : List TextQueue.Entry} (hplain : ∀ entry ∈ entries, entry.Plain) {count : Nat}
      (hdone : u.addAll entries = .done v count) : Effort s v
  | dispatch {u v : Scheduler} {ended : List ItemId} (hdrain : s.drain = .done u ended)
      {command : Command} {verdict : Verdict}
      (hdone : u.dispatch command ended = .done v verdict) : Effort s v

inductive Turn (s : Scheduler) : Scheduler → Prop
  | message {t : Scheduler} (hopen : s.shuttingDown = false) (hwaiting : s.inbox ≠ [])
      (hdone : s.takeMessage = .done t ()) : Turn s t
  | retry {t : Scheduler} (hopen : s.shuttingDown = false) (hwaiting : s.retries ≠ [])
      (hdone : s.takeRetry = .done t ()) : Turn s t
  | request {t : Scheduler} (hopen : s.shuttingDown = false) {request : Request}
      (hplain : request.Plain) {reply : Except QueueError Reply}
      (hdone : s.request request = .done t reply) : Turn s t

inductive Outside (touches : FileSystem → FileSystem → Prop) (s : Scheduler) : Scheduler → Prop
  | change {files : FileSystem} (htouches : touches s.files files) (inbox : List Message)
      (timers : List Timer) (retries : List ItemId) (clock : Nat) (now : Timestamp) (share : Float) :
      Outside touches s { s with files, inbox, timers, retries, clock, now, share }

abbrev Run (touches : FileSystem → FileSystem → Prop) : Scheduler → Scheduler → Prop :=
  Relation.ReflTransGen fun s t => Turn s t ∨ Outside touches s t

def statsOf (s : Scheduler) (bytesDownloaded speed : UInt64) : QueueStats :=
  { total := UInt64.ofNat s.present.length
    queued := countStatus s.table.items fun status => status = .queued
    downloading := countStatus s.table.items fun status => status = .downloading
    paused := countStatus s.table.items fun status => status = .paused
    finished := countStatus s.table.items Status.isComplete
    failed := countStatus s.table.items fun status => status = .failed
    activeTransfers := UInt64.ofNat s.active.length
    maxConcurrent := s.maxConcurrent
    autoDownload := s.autoDownload
    bytesDownloaded
    speed
    pendingRetries := UInt64.ofNat s.pending.length }

/-- A snapshot is the items as they are, with the sums of their bytes and speeds. -/
theorem snapshot_eq_ok {snapshot : Snapshot} (h : s.snapshot = .ok snapshot) :
    ∃ bytes speed, sum64 0 (s.present.map Item.bytesDownloaded) = .ok bytes ∧
      snapshot = ⟨s.table.items.map s.viewOf, s.statsOf bytes speed⟩ := by
  rw [Scheduler.snapshot] at h
  cases hbytes : sum64 0 (s.present.map Item.bytesDownloaded) with
  | error overflow =>
    rw [hbytes] at h
    cases h
  | ok bytes =>
    cases hspeed : sum64 0 (s.table.items.map s.speedAt) with
    | error overflow =>
      rw [hbytes] at h
      simp only [hspeed] at h
      cases h
    | ok speed =>
      rw [hbytes] at h
      simp only [hspeed] at h
      cases h
      exact ⟨bytes, speed, rfl, rfl⟩

theorem publish_eq_done (h : s.publish = .done t ()) :
    ∃ snapshot, s.snapshot = .ok snapshot ∧
      t = { s with snapshots := s.snapshots ++ [snapshot] } := by
  rw [publish] at h
  split at h
  · cases congrArg Step.result h
  · next snapshot hsnapshot => exact ⟨snapshot, hsnapshot, (Step.eq_done_iff.mp h).1.symm⟩

theorem eq_of_replyAfterCommit {α : Type} {step : Step (Except QueueError α)} {reply : α → Reply}
    {answer : Except QueueError Reply} (h : replyAfterCommit step reply = .done t answer) :
    ∃ u result, step = .done u result ∧ u.commit = .done t () ∧ answer = result.map reply := by
  obtain ⟨u, result, hstep, hrest⟩ := Step.andThen_eq_done.mp h
  obtain ⟨v, ⟨⟩, hcommit, hdone⟩ := Step.andThen_eq_done.mp hrest
  cases hdone
  exact ⟨u, result, hstep, hcommit, rfl⟩

/-- A round is an effort and a commit, or it is the shutdown after the messages that wait. -/
theorem Turn.cases (h : Turn s t) :
    (∃ u, Effort s u ∧ u.commit = .done t ()) ∨
      ∃ u ended result, s.drain = .done u ended ∧ u.shutdown = .done t result := by
  cases h with
  | message hopen hwaiting hdone =>
    rw [takeMessage] at hdone
    split at hdone
    · next hnone => exact absurd hnone hwaiting
    · next message messages hinbox =>
      obtain ⟨u, ⟨⟩, hhandled, hcommit⟩ := Step.andThen_eq_done.mp hdone
      exact .inl ⟨u, .message hinbox hhandled, hcommit⟩
  | retry hopen hwaiting hdone =>
    rw [takeRetry] at hdone
    split at hdone
    · next hnone => exact absurd hnone hwaiting
    · next id ids hretries =>
      obtain ⟨u, ⟨⟩, hhandled, hcommit⟩ := Step.andThen_eq_done.mp hdone
      exact .inl ⟨u, .retry hretries hhandled, hcommit⟩
  | @request hopen request hplain reply hdone =>
    obtain ⟨u, ended, hdrain, hanswer⟩ := Step.andThen_eq_done.mp hdone
    cases request with
    | enqueue url destination =>
      obtain ⟨v, result, hadded, hcommit, -⟩ := eq_of_replyAfterCommit hanswer
      exact .inl ⟨v, .enqueue hdrain hadded, hcommit⟩
    | addAll entries =>
      obtain ⟨v, result, hadded, hcommit, -⟩ := eq_of_replyAfterCommit hanswer
      obtain ⟨w, count, hcount, hsame⟩ := Step.andThen_eq_done.mp hadded
      obtain ⟨rfl, -⟩ := Step.eq_done_iff.mp hsame
      exact .inl ⟨w, .addAll hdrain hplain hcount, hcommit⟩
    | dispatch command =>
      obtain ⟨v, result, hdispatched, hcommit, -⟩ := eq_of_replyAfterCommit hanswer
      exact .inl ⟨v, .dispatch hdrain hdispatched, hcommit⟩
    | shutdown =>
      rw [answer] at hanswer
      obtain ⟨v, result, hshutdown, hsame⟩ := Step.andThen_eq_done.mp hanswer
      obtain ⟨rfl, -⟩ := Step.eq_done_iff.mp hsame
      exact .inr ⟨u, ended, result, hdrain, hshutdown⟩

/-- What every message keeps is kept by all that wait. -/
theorem drain_induction {p : Scheduler → Prop}
    (hinbox : ∀ s inbox, p s → p { s with inbox })
    (hmessage : ∀ s u message, p s → s.handleMessage message = .done u () → p u)
    {ended : List ItemId} (hdrain : s.drain = .done u ended) (h : p s) : p u := by
  rw [drain] at hdrain
  generalize s.inbox = messages at hdrain
  induction messages generalizing s ended with
  | nil =>
    obtain ⟨rfl, -⟩ := Step.eq_done_iff.mp hdrain
    exact hinbox s [] h
  | cons message messages ih =>
    obtain ⟨v, ⟨⟩, hhandled, hrest⟩ := Step.andThen_eq_done.mp hdrain
    obtain ⟨w, ids, hmessages, hsame⟩ := Step.andThen_eq_done.mp hrest
    obtain ⟨rfl, -⟩ := Step.eq_done_iff.mp hsame
    exact ih (hmessage _ v message (hinbox s messages h) hhandled) hmessages

/-- What every message keeps is kept while the end of the workers is awaited. -/
theorem awaitWorkers_induction {p : Scheduler → Prop}
    (hinbox : ∀ s inbox, p s → p { s with inbox })
    (hmessage : ∀ s u message, p s → s.handleMessage message = .done u () → p u)
    {messages : List Message} (hdone : s.awaitWorkers messages = .done u ()) (h : p s) : p u := by
  induction messages generalizing s with
  | nil =>
    obtain ⟨rfl, -⟩ := Step.eq_done_iff.mp hdone
    exact hinbox s [] h
  | cons message messages ih =>
    rw [awaitWorkers] at hdone
    split at hdone
    · obtain ⟨rfl, -⟩ := Step.eq_done_iff.mp hdone
      exact hinbox s _ h
    · obtain ⟨v, ⟨⟩, hhandled, hrest⟩ := Step.andThen_eq_done.mp hdone
      exact ih hrest (hmessage _ v message (hinbox s messages h) hhandled)

theorem Orderly.of_chain (hchain : Chain (fun _ _ => True) s t) (h : s.Orderly) : t.Orderly :=
  hchain.trail.orderly h

/-- What happens outside does not matter. -/
theorem Orderly.outside (h : s.Orderly) (files : FileSystem) (inbox : List Message) (clock : Nat)
    (now : Timestamp) (share : Float) :
    ({ s with files, inbox, clock, now, share } : Scheduler).Orderly :=
  ⟨⟨h.coherent.sound, h.coherent.nodup, h.coherent.fits⟩, h.live, h.room⟩

theorem orderly_inbox (h : s.Orderly) (inbox : List Message) :
    ({ s with inbox } : Scheduler).Orderly :=
  h.outside s.files inbox s.clock s.now s.share

theorem trail_of_chain {α : Type} {step : Step α} {value : α}
    (hchain : Chain (fun _ _ => True) s step.scheduler) (hdone : step = .done u value) :
    Trail (fun _ _ => True) s u := by
  rw [hdone] at hchain
  exact hchain.trail

theorem trail_handleMessage (h : s.Coherent) {message : Message}
    (hdone : s.handleMessage message = .done u ()) : Trail (fun _ _ => True) s u :=
  trail_of_chain (chain_handleMessage h message fun _ _ => trivial) hdone

theorem trail_drain (h : s.Coherent) {ended : List ItemId} (hdrain : s.drain = .done u ended) :
    Trail (fun _ _ => True) s u := by
  refine drain_induction (p := Trail (fun _ _ => True) s) ?_ ?_ hdrain .refl
  · intro v inbox hv
    exact hv.tail (.outside v v.files inbox)
  · intro v w message hv hdone
    exact hv.trans (trail_handleMessage (hv.coherent h) hdone)

/-- What a round does before it commits is a trail of deeds. -/
theorem Effort.trail (heffort : Effort s u) (h : s.Coherent) : Trail (fun _ _ => True) s u := by
  cases heffort with
  | @message message messages u hinbox hdone =>
    have htaken : Trail (fun _ _ => True) s _ := trail_outside s s.files messages
    exact htaken.trans (trail_handleMessage (htaken.coherent h) hdone)
  | @retry id ids u hretries hdone =>
    have htaken : Chain (fun _ _ => True) s { s with retries := ids } :=
      .note (by constructor <;> rfl)
    exact htaken.trail.trans (trail_of_chain (chain_handleRetry (htaken.coherent h) id) hdone)
  | enqueue hdrain hdone =>
    have hdrained := trail_drain h hdrain
    exact hdrained.trans (trail_of_chain (chain_enqueue (hdrained.coherent h) _ _) hdone)
  | addAll hdrain hplain hdone =>
    have hdrained := trail_drain h hdrain
    exact hdrained.trans (trail_of_chain (chain_addAll (hdrained.coherent h) _ hplain) hdone)
  | dispatch hdrain hdone =>
    have hdrained := trail_drain h hdrain
    exact hdrained.trans (trail_of_chain (chain_dispatch (hdrained.coherent h) _ _) hdone)

theorem Turn.trail (hturn : Turn s t) (h : s.Coherent) : Trail (fun _ _ => True) s t := by
  rcases hturn.cases with ⟨u, heffort, hcommit⟩ | ⟨u, ended, result, hdrain, hshutdown⟩
  · exact (heffort.trail h).trans (trail_of_chain (chain_commit u) hcommit)
  · have hdrained := trail_drain h hdrain
    have hstopped : Trail (fun _ _ => True) u u.shutdown.scheduler :=
      trail_shutdown (fun _ _ => trivial) (hdrained.coherent h)
    rw [hshutdown] at hstopped
    exact hdrained.trans hstopped

theorem orderly_handleMessage (h : s.Orderly) {message : Message}
    (hdone : s.handleMessage message = .done u ()) : u.Orderly :=
  (trail_handleMessage h.coherent hdone).orderly h

theorem orderly_drain (h : s.Orderly) {ended : List ItemId} (hdrain : s.drain = .done u ended) :
    u.Orderly :=
  (trail_drain h.coherent hdrain).orderly h

theorem Effort.orderly (heffort : Effort s u) (h : s.Orderly) : u.Orderly :=
  (heffort.trail h.coherent).orderly h

theorem Turn.orderly (hturn : Turn s t) (h : s.Orderly) : t.Orderly :=
  (hturn.trail h.coherent).orderly h

/-- A shutdown is what is begun, then heard of workers, and then concluded. -/
theorem shutdown_eq_done {result : Except QueueError Unit} (h : s.shutdown = .done t result) :
    ∃ u, s.beginShutdown.awaitWorkers s.beginShutdown.inbox = .done u () ∧
      u.abandonAll.concludeShutdown = .done t result := by
  rw [shutdown, endShutdown, takeFinalMessages] at h
  obtain ⟨u, ⟨⟩, hawait, hconclude⟩ := Step.andThen_eq_done.mp h
  exact ⟨u, hawait, hconclude⟩

theorem stopping_shutdown (h : s.Coherent) {result : Except QueueError Unit}
    (hdone : s.shutdown = .done t result) : t.Stopping := by
  obtain ⟨u, hawait, hconclude⟩ := shutdown_eq_done hdone
  have hbegin : Chain (fun _ _ => True) s s.beginShutdown := chain_beginShutdown h
  have htrail : Trail (fun _ _ => True) s.beginShutdown
      (s.beginShutdown.awaitWorkers s.beginShutdown.inbox).scheduler :=
    trail_awaitWorkers (fun _ _ => trivial) (hbegin.coherent h) _
  rw [hawait] at htrail
  have hstopping : u.Stopping := htrail.stopping (stopping_beginShutdown s)
  have habandon : Chain (fun _ _ => True) u u.abandonAll :=
    chain_abandonAll (fun _ => trivial) (htrail.coherent (hbegin.coherent h)) hstopping
  have hrest : Chain (fun _ _ => True) u.abandonAll u.abandonAll.concludeShutdown.scheduler :=
    chain_concludeShutdown u.abandonAll
  rw [hconclude] at hrest
  exact hrest.trail.stopping (habandon.trail.stopping hstopping)

theorem Outside.orderly {touches : FileSystem → FileSystem → Prop} (houtside : Outside touches s t)
    (h : s.Orderly) : t.Orderly := by
  cases houtside
  exact ⟨⟨h.coherent.sound, h.coherent.nodup, h.coherent.fits⟩, h.live, h.room⟩

theorem Run.orderly {touches : FileSystem → FileSystem → Prop} (hrun : Run touches s t)
    (h : s.Orderly) : t.Orderly := by
  induction hrun with
  | refl => exact h
  | tail _ hstep ih =>
    rcases hstep with hturn | houtside
    · exact hturn.orderly ih
    · exact houtside.orderly ih

theorem orderly_launch (hsound : s.table.Sound) (hidle : s.active = [])
    (hdone : s.launch = .done t ()) : t.Orderly := by
  have hrestored := orderly_restore hsound hidle
  have htick : Chain (fun _ _ => True) s.restore s.restore.tick := chain_tick hrestored.coherent
  have hlaunched := trail_of_chain (chain_commit s.restore.tick) hdone
  exact hlaunched.orderly (htick.trail.orderly hrestored)

end Scheduler

namespace Controller

variable {config : Config} {around : Surroundings} {c : Controller}

theorem launch_eq_started {files : FileSystem} {table : Table} {error : Option PersistenceError}
    (h : launch config around files table error = .started c) :
    ({ Scheduler.ofTable config table files around.now around.share with
      clock := around.clock } : Scheduler).launch = .done c.scheduler () := by
  rw [launch] at h
  split at h
  · next hdone =>
    cases h
    exact Step.eq_done_iff.mpr ⟨rfl, hdone⟩
  · cases h

/-- A queue that was started has brought a sound table into operation; it is what the queue file
holds, if that can be loaded. -/
theorem scheduler_of_start (h : start config around = .started c) :
    ∃ files table, table.Sound ∧
      ({ Scheduler.ofTable config table files around.now around.share with
        clock := around.clock } : Scheduler).launch = .done c.scheduler () ∧
      ∀ items, QueueFile.load around.files config.queue.queueFile = .ok items →
        files = around.files ∧ table.items = items := by
  rw [start] at h
  split at h
  · cases h
  rw [takeUp] at h
  split at h
  · next items hload =>
    split at h
    · cases h
    · next table htable =>
      obtain ⟨hsound, hitems⟩ := Table.Sound.ofItems (QueueFile.nodup_of_load hload) htable
      refine ⟨around.files, table, hsound, launch_eq_started h, fun found hfound => ⟨rfl, ?_⟩⟩
      rw [hload] at hfound
      cases hfound
      exact hitems
  · next error hload =>
    refine ⟨_, .empty, .empty, launch_eq_started h, fun found hfound => ?_⟩
    rw [hload] at hfound
    cases hfound

theorem orderly_of_start (h : start config around = .started c) : c.scheduler.Orderly := by
  obtain ⟨files, table, hsound, hlaunch, -⟩ := scheduler_of_start h
  exact Scheduler.orderly_launch hsound rfl hlaunch

/-- A queue starts from a file that loads unless its launch breaks down. -/
theorem start_eq_started {items : List Item} {table : Table} {scheduler : Scheduler}
    (hvalid : config.validate = .ok ())
    (hload : QueueFile.load around.files config.queue.queueFile = .ok items)
    (htable : Table.ofItems items = .ok table)
    (hlaunch : ({ Scheduler.ofTable config table around.files around.now around.share with
      clock := around.clock } : Scheduler).launch = .done scheduler ()) :
    start config around = .started ⟨scheduler, true, none⟩ := by
  rw [start, hvalid]
  dsimp only
  rw [takeUp, hload]
  dsimp only
  rw [htable]
  dsimp only
  rw [launch, hlaunch]
  rfl

end Controller

end DownloadQueue
