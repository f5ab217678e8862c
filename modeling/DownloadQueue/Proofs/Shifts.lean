import DownloadQueue.Proofs.Progress
import DownloadQueue.Proofs.Reports
import DownloadQueue.Proofs.Resumption

/-!
# Sessions with arbitrary servers

The scheduler and its workers run one session against servers that answer whatever they like, and
everything interleaves: what the scheduler does, what each fetch does to its file, and the reports
that are on their way. All the while the file of a bound item, the reports of its worker and the
record of the item are in step: what is on record is what the reports heard so far have made of it,
and the reports that are on their way lead to what the fetch has done to the file.
-/

namespace DownloadQueue

/-- The fetch of a worker: what it began with, what it has taken in and told, and what it has yet to
do. -/
structure Job where
  offset : UInt64
  prior : Option (List UInt8)
  /-- The progress of the item that was on record. -/
  recorded : UInt64 × Option UInt64
  intake : Fetch.Intake
  reports : List Progress
  phase : Fetch.Phase
  todo : List Fetch.Effect

def Job.start (s : Scheduler) (request : FetchRequest) : Job where
  offset := s.files.fileLength request.destination
  prior := s.files.content? request.destination
  recorded := (s.progress? request.id).getD (0, none)
  intake := {}
  reports := []
  phase := (Fetch.begin (s.files.fileLength request.destination)).1
  todo := (Fetch.begin (s.files.fileLength request.destination)).2

structure Shift where
  world : World
  job : Nat → Option Job

inductive Move
  | operate (operation : Scheduler.Operation)
  | beginShutdown
  | wait (clock : Nat) (now : Timestamp) (share : Float)
  | hear
  | begin (seq : Nat)
  | work (seq : Nat)
  | learn (seq : Nat) (signal : Fetch.Signal) (stallSecs : UInt64)
  | conclude (seq : Nat)
  | abort (seq : Nat) (broken : Bool)

namespace Shift

abbrev scheduler (shift : Shift) : Scheduler :=
  shift.world.scheduler

def worker? (shift : Shift) (seq : Nat) : Option Worker :=
  shift.world.workers.find? fun worker => worker.seq = seq

def put (shift : Shift) (worker : Worker) (files : FileSystem) (job : Job) : Shift where
  world := { shift.world with scheduler := { shift.scheduler with files } }
  job := Function.update shift.job worker.seq (some job)

def tell (shift : Shift) (worker : Worker) (reports : List Progress) : Shift :=
  { shift with
    world := reports.foldl (fun world report => world.send worker (.progress report)) shift.world }

def dismiss (shift : Shift) (worker : Worker) (ending : Ending) : Shift :=
  { shift with
    world :=
      { shift.world.send worker (.ended ending) with workers := shift.world.workers.erase worker } }

def work (shift : Shift) (worker : Worker) (job : Job) : Shift :=
  match job.todo with
  | [] => shift
  | effect :: todo =>
    match Fetch.perform worker.request.destination
      { phase := job.phase, files := shift.scheduler.files } effect with
    | .ok run =>
      (shift.put worker run.files { job with todo, reports := job.reports ++ run.reports }).tell
        worker run.reports
    | .error error =>
      shift.put worker shift.scheduler.files
        { job with todo := [], phase := .ended (.returned (.error (.io error))) }

def learn (shift : Shift) (worker : Worker) (job : Job) (signal : Fetch.Signal)
    (stallSecs : UInt64) : Shift :=
  match job.todo with
  | [] =>
    shift.put worker shift.scheduler.files
      { job with
        intake := job.intake.take job.phase signal
        phase := (Fetch.step worker.request stallSecs job.phase signal).1
        todo := (Fetch.step worker.request stallSecs job.phase signal).2 }
  | _ :: _ => shift

def conclude (shift : Shift) (worker : Worker) (job : Job) : Shift :=
  match job.phase, job.todo with
  | .ended result, [] => shift.dismiss worker result.ending
  | _, _ => shift

def atWork (shift : Shift) (seq : Nat) (next : Worker → Job → Shift) : Shift :=
  match shift.worker? seq, shift.job seq with
  | some worker, some job => next worker job
  | _, _ => shift

def move (shift : Shift) : Move → Shift
  | .operate operation =>
    { shift with world := shift.world.advance (shift.scheduler.operate operation) }
  | .beginShutdown => { shift with world := shift.world.advance shift.scheduler.beginShutdown }
  | .wait clock now share =>
    { shift with
      world := { shift.world with scheduler := { shift.scheduler with clock, now, share } } }
  | .hear =>
    match shift.world.channel with
    | [] => shift
    | (_, message) :: rest => { shift with world := shift.world.handle message rest }
  | .begin seq =>
    match shift.worker? seq, shift.job seq with
    | some worker, none =>
      shift.put worker shift.scheduler.files (.start shift.scheduler worker.request)
    | _, _ => shift
  | .work seq => shift.atWork seq shift.work
  | .learn seq signal stallSecs =>
    shift.atWork seq fun worker job => shift.learn worker job signal stallSecs
  | .conclude seq => shift.atWork seq shift.conclude
  | .abort seq broken =>
    match shift.worker? seq with
    | some worker => shift.dismiss worker (if broken then .brokenDown else .cancelled)
    | none => shift

def start (config : Config) (table : Table) (files : FileSystem) (now : Timestamp) (share : Float) :
    Shift :=
  ⟨World.start config table files now share, fun _ => none⟩

def awaited (id : ItemId) (channel : List (Nat × Message)) : List Progress :=
  Scheduler.reportsOf id (channel.map fun entry => .message entry.2)

end Shift

/-- The file, the reports and the record of an item are in step: heard to the end, the reports on
their way make of the record what all reports make of the one that the fetch began with. -/
structure Job.Kept (setting : Setting) (s : Scheduler) (id : ItemId) (destination : Path)
    (awaited : List Progress) (job : Job) : Prop where
  offset : job.offset = UInt64.ofNat (job.prior.getD []).length
  sheet : setting.Clear destination →
    Fetch.Sheet job.offset job.prior job.intake
      (job.todo.foldl Fetch.Effect.outcome (s.files.content? destination))
      (job.reports ++ job.todo.filterMap Fetch.Effect.report?) job.phase
  progress : ∃ known, s.progress? id = some known ∧
    awaited.foldl Progress.onto known = job.reports.foldl Progress.onto job.recorded

def Job.Fits (setting : Setting) (s : Scheduler) (id : ItemId) (destination : Path)
    (awaited : List Progress) : Option Job → Prop
  | none => awaited = []
  | some job => job.Kept setting s id destination awaited

structure Job.Over (job : Job) : Prop where
  phase : job.phase = .ended (.returned (.ok ()))
  todo : job.todo = []

inductive Synced (id : ItemId) (s t : Scheduler) (awaited later : List Progress) : Prop
  | quiet (hawaited : later = awaited) (hprogress : t.progress? id = s.progress? id)
  | heard {progress : Progress} (hawaited : awaited = progress :: later)
      (hprogress : t.progress? id = (s.progress? id).map fun known => progress.onto known)

variable {setting : Setting} {s t : Scheduler} {id : ItemId} {destination : Path}
variable {awaited later : List Progress}

theorem Job.Kept.le_length {job : Job}
    (h : job.Kept setting s id destination awaited) :
    job.offset.toNat ≤ (job.prior.getD []).length := by
  rw [h.offset, UInt64.toNat_ofNat']
  exact Nat.mod_le _ _

/-- A fetch stays in step with the scheduler as long as its file stays and its reports are heard in
order. -/
theorem Job.Kept.sync {job : Job} (h : job.Kept setting s id destination awaited)
    (hsynced : Synced id s t awaited later)
    (hcontent : setting.Clear destination →
      t.files.content? destination = s.files.content? destination) :
    job.Kept setting t id destination later where
  offset := h.offset
  sheet hclear := hcontent hclear ▸ h.sheet hclear
  progress := by
    obtain ⟨known, hknown, hfold⟩ := h.progress
    cases hsynced with
    | quiet hawaited hprogress => exact ⟨known, hprogress.trans hknown, hawaited ▸ hfold⟩
    | @heard progress hawaited hprogress =>
      refine ⟨progress.onto known, ?_, ?_⟩
      · rw [hprogress, hknown]
        rfl
      · rw [hawaited] at hfold
        exact hfold

theorem Job.Fits.sync {job : Option Job} (h : Job.Fits setting s id destination awaited job)
    (hsynced : Synced id s t awaited later)
    (hcontent : setting.Clear destination →
      t.files.content? destination = s.files.content? destination) :
    Job.Fits setting t id destination later job := by
  cases job with
  | some job => exact Job.Kept.sync h hsynced hcontent
  | none =>
    change awaited = [] at h
    cases hsynced with
    | quiet hawaited => exact hawaited.trans h
    | heard hawaited =>
      rw [h] at hawaited
      cases hawaited

namespace Shift

variable {shift : Shift} {worker : Worker} {job : Job}

theorem of_worker? {seq : Nat} (h : shift.worker? seq = some worker) :
    worker ∈ shift.world.workers ∧ worker.seq = seq := by
  rw [worker?] at h
  exact ⟨List.mem_of_find?_eq_some h, by simpa using List.find?_some h⟩

theorem awaited_append (id : ItemId) (channel others : List (Nat × Message)) :
    Shift.awaited id (channel ++ others) = Shift.awaited id channel ++ Shift.awaited id others := by
  rw [Shift.awaited, List.map_append, Scheduler.reportsOf, List.filterMap_append]
  rfl

theorem awaited_of_ne {channel : List (Nat × Message)} (h : ∀ entry ∈ channel, entry.2.id ≠ id) :
    Shift.awaited id channel = [] := by
  rw [Shift.awaited, Scheduler.reportsOf, List.filterMap_eq_nil_iff]
  intro happening hmem
  obtain ⟨⟨seq, other, report⟩, hentry, rfl⟩ := List.mem_map.mp hmem
  cases report with
  | progress progress => exact if_neg (h _ hentry)
  | ended ending => rfl

theorem awaited_cons_of_ne {seq : Nat} {message : Message} (h : message.id ≠ id)
    (rest : List (Nat × Message)) :
    Shift.awaited id ((seq, message) :: rest) = Shift.awaited id rest := by
  have hfirst : Shift.awaited id [(seq, message)] = [] :=
    awaited_of_ne fun entry hmem => List.mem_singleton.mp hmem ▸ h
  rw [← List.singleton_append, awaited_append, hfirst, List.nil_append]

theorem awaited_cons_progress (id : ItemId) (seq : Nat) (progress : Progress)
    (rest : List (Nat × Message)) :
    Shift.awaited id ((seq, ⟨id, .progress progress⟩) :: rest) =
      progress :: Shift.awaited id rest := by
  have hreport : Scheduler.Happening.report? id (.message ⟨id, .progress progress⟩) =
      some progress := if_pos rfl
  rw [Shift.awaited, List.map_cons, Scheduler.reportsOf, List.filterMap_cons_some hreport]
  rfl

theorem awaited_append_ended (id : ItemId) (channel : List (Nat × Message)) (seq : Nat)
    (other : ItemId) (ending : Ending) :
    Shift.awaited id (channel ++ [(seq, ⟨other, .ended ending⟩)]) = Shift.awaited id channel := by
  rw [awaited_append]
  exact List.append_nil _

/-! ## What every step keeps -/

/-- Every message is the one of a worker that is bound, and every fetch is in step with the record
and the file of its item. -/
structure Minded (setting : Setting) (shift : Shift) : Prop where
  attributed : shift.world.Attributed
  lodged : shift.scheduler.Lodged setting
  workers : ∀ worker ∈ shift.world.workers,
    (∃ status, shift.scheduler.standing? worker.request.id =
      some ⟨worker.request.id, worker.request.url, worker.request.destination, status⟩) ∧
    Job.Fits setting shift.scheduler worker.request.id worker.request.destination
      (Shift.awaited worker.request.id shift.world.channel) (shift.job worker.seq)
  endings : ∀ entry ∈ shift.world.channel, entry.2.report = .ended .completed →
    ∃ standing job, shift.scheduler.standing? entry.2.id = some standing ∧
      shift.job entry.1 = some job ∧ job.Over ∧
      job.Kept setting shift.scheduler entry.2.id standing.destination
        (Shift.awaited entry.2.id shift.world.channel)
  later : ∀ seq, shift.scheduler.fetches.length < seq → shift.job seq = none

end Shift

namespace World

variable {w : World} {worker : Worker} {entry : Nat × Message}

theorem Attributed.mem_owed_of_mem (h : w.Attributed) (hentry : entry ∈ w.channel) :
    (entry.1, entry.2.id) ∈ World.owed w.workers w.channel := by
  obtain ⟨first, rest, hsplit⟩ := List.append_of_mem hentry
  rcases mem_owed.mp (h.sourced first entry rest hsplit) with hworker | hending
  · exact mem_owed.mpr (.inl hworker)
  · rw [mem_owed, hsplit, List.filterMap_append]
    exact .inr (List.mem_append_right _ hending)

/-- The messages for the item of a worker come from this worker, and no others do. -/
theorem Attributed.seq_eq_iff (h : w.Attributed) (hworker : worker ∈ w.workers)
    (hentry : entry ∈ w.channel) : entry.1 = worker.seq ↔ entry.2.id = worker.request.id := by
  have hticket : worker.ticket ∈ World.owed w.workers w.channel :=
    mem_owed.mpr (.inl (List.mem_map_of_mem hworker))
  have howed := h.mem_owed_of_mem hentry
  constructor
  · intro hseq
    have hsame := List.inj_on_of_nodup_map h.nodup_owed.1 howed hticket hseq
    exact congrArg Prod.snd hsame
  · intro hid
    have hsame := List.inj_on_of_nodup_map h.nodup_owed.2 howed hticket hid
    exact congrArg Prod.fst hsame

/-- Nothing of the worker is on its way behind its ending. -/
theorem Attributed.ne_behind_ending (h : w.Attributed) {seq : Nat} {id : ItemId} {ending : Ending}
    {rest : List (Nat × Message)} (hchannel : w.channel = (seq, ⟨id, .ended ending⟩) :: rest)
    (hentry : entry ∈ rest) : entry.2.id ≠ id := by
  have hbound := (h.unbind hchannel).bound ((h.unbind hchannel).mem_owed_of_mem hentry)
  intro heq
  rw [Scheduler.duty?_unbind, if_pos heq] at hbound
  exact hbound.1 rfl

end World

namespace Shift

open Scheduler (Course Chain Postings)

variable {shift : Shift} {worker : Worker} {job : Job}

theorem Minded.coherent (h : shift.Minded setting) : shift.scheduler.Coherent :=
  h.lodged.coherent

def Busy (shift : Shift) (channel : List (Nat × Message)) (id : ItemId) : Prop :=
  (∃ worker ∈ shift.world.workers, worker.request.id = id) ∨
    ∃ entry ∈ channel, entry.2.isEnding = true ∧ entry.2.id = id

theorem Minded.bound (h : shift.Minded setting) {channel : List (Nat × Message)}
    (hchannel : channel ⊆ shift.world.channel) (hbusy : shift.Busy channel id) :
    shift.scheduler.duty? id ≠ none := by
  rcases hbusy with ⟨worker, hmem, rfl⟩ | ⟨entry, hmem, hending, rfl⟩
  · exact (h.attributed.bound_of_worker hmem).1
  · exact h.attributed.bound_of_ending (hchannel hmem) hending

/-- A course of the scheduler leaves the fetches in step, whether or not a message was taken off the
channel for it. -/
theorem Minded.course (h : shift.Minded setting) {heard : ItemId → Ending → Prop}
    {inbox : List Message} {channel : List (Nat × Message)}
    (hcourse : Course heard { shift.scheduler with inbox } t)
    (hattributed : (World.advance ⟨{ shift.scheduler with inbox }, shift.world.workers, channel⟩
      t).Attributed)
    (hchannel : channel ⊆ shift.world.channel)
    (hbusy : ∀ id, shift.Busy channel id → (∀ ending, ¬ heard id ending) ∧
      Synced id shift.scheduler t (Shift.awaited id shift.world.channel)
        (Shift.awaited id channel)) :
    ({ shift with
        world := World.advance ⟨{ shift.scheduler with inbox }, shift.world.workers, channel⟩ t } :
      Shift).Minded setting := by
  have hlodged : ({ shift.scheduler with inbox } : Scheduler).Lodged setting :=
    h.lodged.outside h.lodged.sound h.lodged.cwd inbox _ _ _
  have hkept (id : ItemId) (hid : shift.Busy channel id) :=
    hcourse.undisturbed hlodged (h.bound hchannel hid) (hbusy id hid).1
  obtain ⟨begun, hfetches, hassigned⟩ := hcourse.recruits hlodged
  change t.fetches = shift.scheduler.fetches ++ begun at hfetches
  refine ⟨hattributed, ?_, fun worker hmem => ?_, fun entry hmem hreport => ?_, fun seq hlt => ?_⟩
  · obtain ⟨u, hchange, hchain⟩ := hcourse
    exact (hlodged.change hchange).chain hchain
  · rcases List.mem_append.mp hmem with hold | hnew
    · have hid : shift.Busy channel worker.request.id := .inl ⟨worker, hold, rfl⟩
      obtain ⟨⟨status, hstanding⟩, hfits⟩ := h.workers worker hold
      obtain ⟨last, hlast⟩ := (hkept _ hid).standing? _ hstanding
      exact ⟨⟨last, hlast⟩, hfits.sync (hbusy _ hid).2 ((hkept _ hid).content? _ hstanding)⟩
    · have hrequest : worker.request ∈ begun := by
        have hrequest := request_mem_of_mem_enlist hnew
        change worker.request ∈ t.fetches.drop shift.scheduler.fetches.length at hrequest
        rwa [hfetches, List.drop_left] at hrequest
      have hlate : shift.scheduler.fetches.length < worker.seq := (le_of_mem_enlist hnew).1
      refine ⟨(hassigned _ hrequest).standing?, ?_⟩
      dsimp only
      rw [h.later _ hlate]
      -- what is on its way was sent before the worker came in
      refine awaited_of_ne fun entry hentry hid => ?_
      have hseq := (hattributed.seq_eq_iff hmem hentry).mpr hid
      have hle := (h.attributed.bound (h.attributed.mem_owed_of_mem (hchannel hentry))).2
      rw [h.attributed.counted] at hlate
      omega
  · have hid : shift.Busy channel entry.2.id :=
      .inr ⟨entry, hmem, Site.isEnding_of_report hreport, rfl⟩
    obtain ⟨standing, job, hstanding, hjob, hover, hfits⟩ :=
      h.endings entry (hchannel hmem) hreport
    obtain ⟨last, hlast⟩ := (hkept _ hid).standing? _ hstanding
    exact ⟨_, job, hlast, hjob, hover,
      hfits.sync (hbusy _ hid).2 ((hkept _ hid).content? _ hstanding)⟩
  · refine h.later seq (Nat.lt_of_le_of_lt ?_ hlt)
    change shift.scheduler.fetches.length ≤ t.fetches.length
    rw [hfetches, List.length_append]
    exact Nat.le_add_right _ _

/-- What the scheduler does without hearing from a worker. -/
theorem Minded.chain (h : shift.Minded setting)
    (hchain : Chain (fun _ _ => False) shift.scheduler t)
    (hpostings : Postings (fun _ => False) (fun _ _ => True) shift.scheduler t) :
    ({ shift with world := shift.world.advance t } : Shift).Minded setting := by
  have hsubset := List.Subset.refl shift.world.channel
  exact h.course (Scheduler.course_of_chain hchain) (h.attributed.chain hchain) hsubset
    fun id hid => ⟨fun _ => not_false,
      .quiet rfl (hpostings.progress? h.coherent not_false (h.bound hsubset hid))⟩

/-- While an item has a worker, or an ending on its way, no other ending is heard for it. -/
theorem Minded.ne_ending (h : shift.Minded setting) {seq : Nat} {message : Message}
    {rest : List (Nat × Message)} (hchannel : shift.world.channel = (seq, message) :: rest)
    (hbusy : shift.Busy rest id) (ending : Ending) : message ≠ ⟨id, .ended ending⟩ := by
  rintro rfl
  obtain ⟨hworkers, hendings⟩ := h.attributed.ne_of_ending hchannel
  rcases hbusy with ⟨worker, hmem, hid⟩ | ⟨entry, hmem, hending, hid⟩
  · exact hworkers worker hmem hid
  · exact hendings entry hmem hending hid

/-- The record of an item follows the reports of its own worker, and no others. -/
theorem Minded.synced (h : shift.Minded setting) {seq : Nat} {message : Message}
    {rest : List (Nat × Message)} (hchannel : shift.world.channel = (seq, message) :: rest)
    (hbusy : shift.Busy rest id) :
    Synced id shift.scheduler ((shift.world.taken rest).handleMessage message).scheduler
      (Shift.awaited id shift.world.channel) (Shift.awaited id rest) := by
  have hcoherent : (shift.world.taken rest).Coherent :=
    ⟨h.coherent.sound, h.coherent.nodup, h.coherent.fits⟩
  have hsubset : rest ⊆ shift.world.channel := hchannel ▸ List.subset_cons_self _ _
  have hbound := h.bound hsubset hbusy
  rw [hchannel]
  by_cases hown : message.id = id
  · obtain ⟨sender, report⟩ := message
    obtain rfl : sender = id := hown
    cases report with
    | ended ending => exact absurd rfl (h.ne_ending hchannel hbusy ending)
    | progress progress =>
      refine .heard (awaited_cons_progress sender seq progress rest) ?_
      obtain ⟨duty, hduty⟩ := Option.ne_none_iff_exists'.mp hbound
      obtain ⟨binding, hbinding, -⟩ := Option.map_eq_some_iff.mp hduty
      obtain ⟨known, hcarries⟩ := hcoherent.carries hbinding
      have hknown : shift.scheduler.progress? sender = some known := hcarries.known
      rw [hknown]
      exact (hcarries.handleProgress progress).known
  · have hpostings : Postings (fun other => other = message.id) (fun _ _ => True)
        (shift.world.taken rest) ((shift.world.taken rest).handleMessage message).scheduler :=
      Scheduler.postings_handleMessage hcoherent rfl fun _ _ _ _ => trivial
    exact .quiet (awaited_cons_of_ne hown rest).symm
      (hpostings.progress? hcoherent (fun heq => hown heq.symm) hbound)

/-- The scheduler hears the oldest message; a report becomes the record of its item. -/
theorem Minded.hear (h : shift.Minded setting) {seq : Nat} {message : Message}
    {rest : List (Nat × Message)} (hchannel : shift.world.channel = (seq, message) :: rest) :
    ({ shift with world := shift.world.handle message rest } : Shift).Minded setting := by
  have hcoherent : (shift.world.taken rest).Coherent :=
    ⟨h.coherent.sound, h.coherent.nodup, h.coherent.fits⟩
  have hcourse : Course (fun id ending => message = ⟨id, .ended ending⟩)
      { shift.scheduler with inbox := rest.map Prod.snd }
      ((shift.world.taken rest).handleMessage message).scheduler :=
    Scheduler.course_handleMessage hcoherent message
  have hminded := h.course hcourse (h.attributed.handle hchannel)
    (hchannel ▸ List.subset_cons_self _ _)
    fun id hbusy => ⟨h.ne_ending hchannel hbusy, h.synced hchannel hbusy⟩
  exact hminded

/-! ## Steps of the workers -/

/-- The world in which a worker has sent some reports. -/
theorem foldl_send (w : World) (worker : Worker) (reports : List Progress) :
    reports.foldl (fun world report => world.send worker (.progress report)) w =
      { w with
        scheduler := { w.scheduler with
          inbox := w.scheduler.inbox ++
            reports.map fun report => ⟨worker.request.id, .progress report⟩ }
        channel := w.channel ++
          reports.map fun report => (worker.seq, ⟨worker.request.id, .progress report⟩) } := by
  induction reports generalizing w with
  | nil => simp
  | cons report reports ih =>
    rw [List.foldl_cons, ih]
    simp [World.send, Scheduler.receive]

theorem awaited_sent (id : ItemId) (seq : Nat) (reports : List Progress) :
    Shift.awaited id (reports.map fun report => (seq, ⟨id, .progress report⟩)) = reports := by
  induction reports with
  | nil => rfl
  | cons report reports ih => rw [List.map_cons, awaited_cons_progress, ih]

theorem attributed_foldl_send {w : World} (h : w.Attributed) (hmem : worker ∈ w.workers)
    (reports : List Progress) :
    (reports.foldl (fun world report => world.send worker (.progress report)) w).Attributed := by
  induction reports generalizing w with
  | nil => exact h
  | cons report reports ih => exact ih (h.report hmem report) hmem

/-- What a worker does to its file leaves the files of the items that have other workers alone. -/
theorem Minded.content?_of_edits (h : shift.Minded setting) (hmem : worker ∈ shift.world.workers)
    {files : FileSystem} (hedits : FileSystem.Edits shift.scheduler.files files
      (· = shift.scheduler.files.placeOf worker.request.destination)) {standing : Standing}
    (hfound : shift.scheduler.standing? id = some standing) (hbound : shift.scheduler.duty? id ≠ none)
    (hne : id ≠ worker.request.id) :
    files.content? standing.destination = shift.scheduler.files.content? standing.destination := by
  obtain ⟨status, hstanding⟩ := (h.workers worker hmem).1
  have hown : shift.scheduler.Holds worker.request.id worker.request.destination :=
    ⟨_, hstanding, rfl, .inr (h.attributed.bound_of_worker hmem).1⟩
  have hother : shift.scheduler.Holds id standing.destination := ⟨_, hfound, rfl, .inr hbound⟩
  exact h.lodged.content?_of_edits hedits hother (h.lodged.placeOf_ne hother hown hne)

/-- A worker writes to its own file, and only its own messages come in. -/
theorem Minded.write (h : shift.Minded setting) (hmem : worker ∈ shift.world.workers)
    {files : FileSystem} (hedits : FileSystem.Edits shift.scheduler.files files
      (· = shift.scheduler.files.placeOf worker.request.destination)) {inbox : List Message}
    {channel : List (Nat × Message)}
    (hattributed : World.Attributed
      ⟨{ shift.scheduler with files, inbox }, shift.world.workers, channel⟩)
    (hquiet : ∀ id, id ≠ worker.request.id →
      Shift.awaited id channel = Shift.awaited id shift.world.channel)
    (hendings : ∀ entry ∈ channel, entry.2.report = .ended .completed →
      entry ∈ shift.world.channel)
    (hkept : job.Kept setting { shift.scheduler with files, inbox } worker.request.id
      worker.request.destination (Shift.awaited worker.request.id channel)) :
    Minded setting ⟨⟨{ shift.scheduler with files, inbox }, shift.world.workers, channel⟩,
      Function.update shift.job worker.seq (some job)⟩ := by
  have hsynced {id : ItemId} (hne : id ≠ worker.request.id) :
      Synced id shift.scheduler { shift.scheduler with files, inbox }
        (Shift.awaited id shift.world.channel) (Shift.awaited id channel) :=
    .quiet (hquiet id hne) rfl
  refine ⟨hattributed, ?_, fun other hother => ?_, fun entry hentry hreport => ?_,
    fun seq hlt => ?_⟩
  · exact h.lodged.outside hedits.sound (hedits.cwd.trans h.lodged.cwd) inbox _ _ _
  · obtain ⟨⟨last, hfound⟩, hfits⟩ := h.workers other hother
    refine ⟨⟨last, hfound⟩, ?_⟩
    dsimp only
    by_cases heq : other = worker
    · subst heq
      rw [Function.update_self]
      exact hkept
    · have hneSeq : other.seq ≠ worker.seq := fun hsame =>
        heq (h.attributed.worker_eq hmem hother (.inl hsame))
      have hneId : other.request.id ≠ worker.request.id := fun hsame =>
        heq (h.attributed.worker_eq hmem hother (.inr hsame))
      have hsame := h.content?_of_edits hmem hedits hfound
        (h.attributed.bound_of_worker hother).1 hneId
      rw [Function.update_of_ne hneSeq]
      exact hfits.sync (hsynced hneId) fun _ => hsame
  · have hold := hendings entry hentry hreport
    have hending := Site.isEnding_of_report hreport
    have hneId := h.attributed.id_ne_of_ending hmem hold hending
    have hneSeq : entry.1 ≠ worker.seq := fun hsame =>
      hneId ((h.attributed.seq_eq_iff hmem hold).mp hsame)
    obtain ⟨standing, found, hfound, hjob, hover, hfits⟩ := h.endings entry hold hreport
    have hsame := h.content?_of_edits hmem hedits hfound
      (h.attributed.bound_of_ending hold hending) hneId
    exact ⟨standing, found, hfound, (Function.update_of_ne hneSeq _ _).trans hjob, hover,
      hfits.sync (hsynced hneId) fun _ => hsame⟩
  · have hcounted := h.attributed.counted
    have hne : seq ≠ worker.seq := by
      rintro rfl
      have hseq := (h.attributed.bound_of_worker hmem).2
      exact absurd (hcounted ▸ hseq) (Nat.not_le_of_lt hlt)
    exact (Function.update_of_ne hne _ _).trans (h.later seq hlt)

/-- A worker whose fetch has come to its end sends its ending. -/
theorem Minded.dismiss (h : shift.Minded setting) (hmem : worker ∈ shift.world.workers)
    {ending : Ending}
    (hover : ending = .completed → ∃ job, shift.job worker.seq = some job ∧ job.Over) :
    (shift.dismiss worker ending).Minded setting := by
  obtain ⟨before, after, -, hworkers, herase⟩ := List.exists_erase_eq hmem
  have hattributed := h.attributed.finish hworkers ending
  rw [← herase] at hattributed
  have hsame (id : ItemId) := awaited_append_ended id shift.world.channel worker.seq
    worker.request.id ending
  refine ⟨hattributed, ?_, fun other hother => ?_, fun entry hentry hreport => ?_, h.later⟩
  · exact h.lodged.outside h.lodged.sound h.lodged.cwd _ _ _ _
  · obtain ⟨hstanding, hfits⟩ := h.workers other (List.mem_of_mem_erase hother)
    exact ⟨hstanding, hfits.sync (.quiet (hsame _) rfl) fun _ => rfl⟩
  · rcases List.mem_append.mp hentry with hold | hnew
    · obtain ⟨standing, job, hstanding, hjob, hdone, hkept⟩ := h.endings entry hold hreport
      exact ⟨standing, job, hstanding, hjob, hdone,
        hkept.sync (.quiet (hsame _) rfl) fun _ => rfl⟩
    · rw [List.mem_singleton] at hnew
      subst hnew
      obtain ⟨⟨status, hstanding⟩, hfits⟩ := h.workers worker hmem
      obtain ⟨job, hjob, hdone⟩ := hover (Report.ended.inj hreport)
      rw [hjob] at hfits
      exact ⟨_, job, hstanding, hjob, hdone,
        Job.Kept.sync hfits (.quiet (hsame _) rfl) fun _ => rfl⟩

/-- A worker does something to its file and tells of its progress. -/
theorem Minded.put (h : shift.Minded setting) (hmem : worker ∈ shift.world.workers)
    {files : FileSystem} (hedits : FileSystem.Edits shift.scheduler.files files
      (· = shift.scheduler.files.placeOf worker.request.destination)) {reports : List Progress}
    (hkept : job.Kept setting { shift.scheduler with files } worker.request.id
      worker.request.destination
      (Shift.awaited worker.request.id shift.world.channel ++ reports)) :
    ((shift.put worker files job).tell worker reports).Minded setting := by
  have hstep := World.Step.outside shift.world files shift.scheduler.clock shift.scheduler.now
    shift.scheduler.share
  have hattributed := attributed_foldl_send (hstep.attributed h.attributed) hmem reports
  rw [foldl_send] at hattributed
  rw [tell, foldl_send]
  refine h.write hmem hedits hattributed (fun id hne => ?_) (fun entry hentry hreport => ?_) ?_
  · have hnone : Shift.awaited id (reports.map fun report =>
        (worker.seq, ⟨worker.request.id, .progress report⟩)) = [] := by
      refine awaited_of_ne fun entry hentry => ?_
      obtain ⟨report, -, rfl⟩ := List.mem_map.mp hentry
      exact hne.symm
    rw [awaited_append, hnone, List.append_nil]
    rfl
  · rcases List.mem_append.mp hentry with hold | hnew
    · exact hold
    · obtain ⟨report, -, rfl⟩ := List.mem_map.mp hnew
      cases hreport
  · rw [awaited_append, awaited_sent]
    exact hkept.sync (.quiet rfl rfl) fun _ => rfl

/-- A worker goes on without touching its file or telling anything. -/
theorem Minded.proceed (h : shift.Minded setting) (hmem : worker ∈ shift.world.workers)
    (hkept : job.Kept setting shift.scheduler worker.request.id worker.request.destination
      (Shift.awaited worker.request.id shift.world.channel)) :
    (shift.put worker shift.scheduler.files job).Minded setting := by
  have hquiet : job.Kept setting shift.scheduler worker.request.id worker.request.destination
      (Shift.awaited worker.request.id shift.world.channel ++ []) := by
    rw [List.append_nil]
    exact hkept
  exact h.put hmem (.refl h.lodged.sound) hquiet

/-- A fetch that begins takes the record and the file as they are. -/
theorem Minded.begin (h : shift.Minded setting) (hmem : worker ∈ shift.world.workers)
    (hjob : shift.job worker.seq = none) :
    (shift.put worker shift.scheduler.files
      (.start shift.scheduler worker.request)).Minded setting := by
  obtain ⟨⟨status, hstanding⟩, hfits⟩ := h.workers worker hmem
  rw [hjob] at hfits
  have hnone : Shift.awaited worker.request.id shift.world.channel = [] := hfits
  obtain ⟨item, hget, -⟩ := Scheduler.get?_of_standing? hstanding
  have hknown : shift.scheduler.progress? worker.request.id =
      some (item.bytesDownloaded, item.bytesTotal) := by
    rw [Scheduler.progress?, hget]
    rfl
  refine h.proceed hmem ⟨?_, fun _ => ?_, ?_⟩
  · change shift.scheduler.files.fileLength _ = UInt64.ofNat
      ((shift.scheduler.files.content? worker.request.destination).getD []).length
    rw [Scheduler.fileLength_eq]
    cases shift.scheduler.files.content? worker.request.destination <;> rfl
  · exact ⟨rfl, rfl, rfl, .inr ⟨rfl, rfl⟩⟩
  · refine ⟨_, hknown, ?_⟩
    rw [hnone]
    change _ = (shift.scheduler.progress? worker.request.id).getD (0, none)
    rw [hknown]
    rfl

theorem Minded.kept (h : shift.Minded setting) (hmem : worker ∈ shift.world.workers)
    (hjob : shift.job worker.seq = some job) :
    job.Kept setting shift.scheduler worker.request.id worker.request.destination
      (Shift.awaited worker.request.id shift.world.channel) := by
  have hfits := (h.workers worker hmem).2
  rwa [hjob] at hfits

/-- A report is on its way as soon as its effect is carried out. -/
theorem Minded.work (h : shift.Minded setting) (hmem : worker ∈ shift.world.workers)
    (hjob : shift.job worker.seq = some job) : (shift.work worker job).Minded setting := by
  have hkept := h.kept hmem hjob
  obtain ⟨known, hknown, hfold⟩ := hkept.progress
  obtain ⟨status, hstanding⟩ := (h.workers worker hmem).1
  rw [Shift.work]
  split
  · exact h
  · next effect todo htodo =>
    split
    · next run hperform =>
      obtain ⟨hedits, hcontent⟩ :=
        Fetch.perform_ok h.lodged.sound (h.lodged.resolved _ _ hstanding) hperform
      have hreports : run.reports = effect.report?.toList :=
        (Fetch.perform_record hperform).2.2
      refine h.put hmem hedits ⟨hkept.offset, fun hclear => ?_, known, hknown, ?_⟩
      · have hsheet := hkept.sheet hclear
        rw [htodo, List.foldl_cons, ← hcontent] at hsheet
        have hsame : job.reports ++ (effect :: todo).filterMap Fetch.Effect.report? =
            job.reports ++ run.reports ++ todo.filterMap Fetch.Effect.report? := by
          rw [hreports, List.append_assoc]
          cases hreport : effect.report? <;> simp [hreport]
        rwa [hsame] at hsheet
      · rw [List.foldl_append, hfold, ← List.foldl_append]
    · exact h.proceed hmem ⟨hkept.offset, fun _ => trivial, known, hknown, hfold⟩

theorem Minded.learn (h : shift.Minded setting) (hmem : worker ∈ shift.world.workers)
    (hjob : shift.job worker.seq = some job) (signal : Fetch.Signal) (stallSecs : UInt64) :
    (shift.learn worker job signal stallSecs).Minded setting := by
  have hkept := h.kept hmem hjob
  rw [Shift.learn]
  split
  · next htodo =>
    refine h.proceed hmem ⟨hkept.offset, fun hclear => ?_, hkept.progress⟩
    have hsheet := hkept.sheet hclear
    rw [htodo, List.filterMap_nil, List.append_nil] at hsheet
    exact hsheet.step hkept.le_length worker.request stallSecs signal
  · exact h

theorem Minded.conclude (h : shift.Minded setting) (hmem : worker ∈ shift.world.workers)
    (hjob : shift.job worker.seq = some job) : (shift.conclude worker job).Minded setting := by
  rw [Shift.conclude]
  split
  · next result hphase htodo =>
    refine h.dismiss hmem fun hcompleted => ⟨job, hjob, ?_, htodo⟩
    rw [hphase, Site.eq_ok_of_ending hcompleted]
  · exact h

theorem Minded.atWork (h : shift.Minded setting) {seq : Nat} {next : Worker → Job → Shift}
    (hnext : ∀ worker ∈ shift.world.workers, ∀ job, shift.job worker.seq = some job →
      (next worker job).Minded setting) : (shift.atWork seq next).Minded setting := by
  rw [Shift.atWork]
  split
  · next worker job hworker hjob =>
    obtain ⟨hmem, hseq⟩ := of_worker? hworker
    exact hnext worker hmem job (hseq ▸ hjob)
  · exact h

/-- Whatever happens in a session keeps the fetches in step with the record. -/
theorem Minded.move (h : shift.Minded setting) (move : Move) :
    (shift.move move).Minded setting := by
  have hcoherent := h.lodged.coherent
  cases move with
  | operate operation =>
    exact h.chain (Scheduler.chain_operate hcoherent operation)
      (Scheduler.postings_operate hcoherent operation)
  | beginShutdown =>
    exact h.chain (Scheduler.chain_beginShutdown hcoherent)
      (Scheduler.postings_beginShutdown hcoherent)
  | wait clock now share =>
    have hstep := World.Step.outside shift.world shift.scheduler.files clock now share
    refine ⟨hstep.attributed h.attributed, ?_, fun worker hmem => ?_, fun entry hentry hreport => ?_,
      h.later⟩
    · exact h.lodged.outside h.lodged.sound h.lodged.cwd _ clock now share
    · obtain ⟨hstanding, hfits⟩ := h.workers worker hmem
      exact ⟨hstanding, hfits.sync (.quiet rfl rfl) fun _ => rfl⟩
    · obtain ⟨standing, job, hstanding, hjob, hover, hkept⟩ := h.endings entry hentry hreport
      exact ⟨standing, job, hstanding, hjob, hover, hkept.sync (.quiet rfl rfl) fun _ => rfl⟩
  | hear =>
    rw [Shift.move]
    split
    · exact h
    · next hchannel => exact h.hear hchannel
  | begin seq =>
    rw [Shift.move]
    split
    · next worker hworker hjob =>
      obtain ⟨hmem, hseq⟩ := of_worker? hworker
      exact h.begin hmem (hseq ▸ hjob)
    · exact h
  | work seq => exact h.atWork fun worker hmem job hjob => h.work hmem hjob
  | learn seq signal stallSecs =>
    exact h.atWork fun worker hmem job hjob => h.learn hmem hjob signal stallSecs
  | conclude seq => exact h.atWork fun worker hmem job hjob => h.conclude hmem hjob
  | abort seq broken =>
    rw [Shift.move]
    split
    · next worker hworker =>
      refine h.dismiss (of_worker? hworker).1 fun hcompleted => ?_
      cases broken <;> cases hcompleted
    · exact h

/-- A session begins with no fetch. -/
theorem minded_start {config : Config} {table : Table} (hsound : table.Sound)
    (hapart : table.Apart) (hresolved : ∀ item ∈ table.items, item.destination.Resolved)
    {files : FileSystem} (hfiles : files.Sound) (hcwd : files.cwd = setting.cwd)
    (hqueueFile : config.queue.queueFile = setting.queueFile) (now : Timestamp) (share : Float) :
    (Shift.start config table files now share).Minded setting := by
  have hloaded : (Shift.mk ⟨Scheduler.ofTable config table files now share, [], []⟩
      fun _ => none).Minded setting :=
    ⟨World.attributed_ofTable config hsound files now share 0,
      Scheduler.lodged_of_idle hsound rfl hapart hresolved hfiles hcwd hqueueFile,
      fun worker hmem => absurd hmem List.not_mem_nil,
      fun entry hmem => absurd hmem List.not_mem_nil, fun _ _ => rfl⟩
  exact hloaded.chain (Scheduler.chain_restore hsound rfl) (Scheduler.postings_restore hsound rfl)

theorem minded_of_moves {config : Config} {table : Table} (hsound : table.Sound)
    (hapart : table.Apart) (hresolved : ∀ item ∈ table.items, item.destination.Resolved)
    {files : FileSystem} (hfiles : files.Sound) (hcwd : files.cwd = setting.cwd)
    (hqueueFile : config.queue.queueFile = setting.queueFile) (now : Timestamp) (share : Float)
    (moves : List Move) :
    (moves.foldl Shift.move (Shift.start config table files now share)).Minded setting := by
  induction moves using List.reverseRecOn with
  | nil => exact minded_start hsound hapart hresolved hfiles hcwd hqueueFile now share
  | append_singleton moves move ih =>
    rw [List.foldl_append]
    exact ih.move move

end Shift

end DownloadQueue
