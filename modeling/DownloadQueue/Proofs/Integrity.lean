import DownloadQueue.Controller
import DownloadQueue.Proofs.Contents

/-!
# The files of the items through all runs

The scheduler, its workers with their fetches, and the files run on from one start of the queue to
the next. As long as nobody else touches the files, an item that came in without a file has at its
destination nothing or a beginning of the bytes behind its address, and all of them if it is
finished: in every run, whichever order things happen in and wherever fetches break off.
-/

namespace DownloadQueue

inductive Stage
  | spawned
  | fetching (phase : Fetch.Phase) (todo : List Fetch.Effect) (body : List UInt8)

structure Site where
  world : World
  stage : Nat → Stage
  closing : Bool
  fresh : List ItemId

def Scheduler.arrivals (s t : Scheduler) : List ItemId :=
  (t.table.items.filter fun item => !s.table.contains item.id && !item.status.isComplete).map Item.id

def Startup.scheduler? : Startup → Option Scheduler
  | started controller => some controller.scheduler
  | broken scheduler _ => some scheduler
  | refused _ => none
  | exhausted _ => none

namespace Site

abbrev scheduler (site : Site) : Scheduler :=
  site.world.scheduler

def advance (site : Site) (scheduler : Scheduler) : Site :=
  { site with
    world := site.world.advance scheduler
    fresh := site.fresh ++ site.scheduler.arrivals scheduler }

def put (site : Site) (worker : Worker) (files : FileSystem) (stage : Stage) : Site :=
  { site with
    world := { site.world with scheduler := { site.scheduler with files } }
    stage := Function.update site.stage worker.seq stage }

theorem stage_put_self (site : Site) (worker : Worker) (files : FileSystem) (stage : Stage) :
    (site.put worker files stage).stage worker.seq = stage :=
  Function.update_self _ _ _

theorem stage_put_of_ne (site : Site) {worker : Worker} (files : FileSystem) (stage : Stage) {seq : Nat}
    (hne : seq ≠ worker.seq) : (site.put worker files stage).stage seq = site.stage seq :=
  Function.update_of_ne hne _ _

def tell (site : Site) (worker : Worker) (reports : List Progress) : Site :=
  { site with world := reports.foldl (fun world report => world.send worker (.progress report)) site.world }

def boot (scheduler : Scheduler) (fresh : List ItemId) : Site :=
  { world := ⟨scheduler, enlist 1 scheduler.fetches, []⟩
    stage := fun _ => .spawned
    closing := false
    fresh }

def last (site : Site) : Scheduler :=
  site.scheduler.abandonAll

/-- The items that came in without a file and are in the queue file at the end of the run. -/
def remembered (site : Site) : List ItemId :=
  site.fresh.filter fun id => id ∈ (QueueFile.kept site.last.table.items).map Item.id

inductive Step (setting : Setting) : Site → Site → Prop
  | operate (site : Site) (operation : Scheduler.Operation) :
    Step setting site (site.advance (site.scheduler.operate operation))
  | beginShutdown (site : Site) :
    Step setting site { site.advance site.scheduler.beginShutdown with closing := true }
  | wait (site : Site) (clock : Nat) (now : Timestamp) (share : Float) :
    Step setting site
      { site with world := { site.world with scheduler := { site.scheduler with clock, now, share } } }
  | hear {site : Site} {seq : Nat} {message : Message} {rest : List (Nat × Message)}
      (hchannel : site.world.channel = (seq, message) :: rest) :
    Step setting site { site with world := site.world.handle message rest }
  /-- A worker begins with the length of the file, as it was when it was spawned or as it is now. -/
  | begin {site : Site} {worker : Worker} (hmem : worker ∈ site.world.workers)
      (hstage : site.stage worker.seq = .spawned) {offset : UInt64}
      (hoffset : offset = worker.request.resumeOffset ∨
        offset = site.scheduler.files.fileLength worker.request.destination) :
    Step setting site (site.put worker site.scheduler.files
      (.fetching (Fetch.begin offset).1 (Fetch.begin offset).2 []))
  | perform {site : Site} {worker : Worker} (hmem : worker ∈ site.world.workers)
      {phase : Fetch.Phase} {effect : Fetch.Effect} {todo : List Fetch.Effect} {body : List UInt8}
      (hstage : site.stage worker.seq = .fetching phase (effect :: todo) body) {run : Fetch.Run}
      (hperform : Fetch.perform worker.request.destination
        { phase, files := site.scheduler.files } effect = .ok run) :
    Step setting site ((site.put worker run.files (.fetching phase todo body)).tell worker run.reports)
  | refuse {site : Site} {worker : Worker} (hmem : worker ∈ site.world.workers)
      {phase : Fetch.Phase} {effect : Fetch.Effect} {todo : List Fetch.Effect} {body : List UInt8}
      (hstage : site.stage worker.seq = .fetching phase (effect :: todo) body) {error : IoError}
      (hperform : Fetch.perform worker.request.destination
        { phase, files := site.scheduler.files } effect = .error error) :
    Step setting site (site.put worker site.scheduler.files
      (.fetching (.ended (.returned (.error (.io error)))) [] body))
  | learn {site : Site} {worker : Worker} (hmem : worker ∈ site.world.workers)
      {phase : Fetch.Phase} {body rest : List UInt8} {signal : Fetch.Signal}
      (hstage : site.stage worker.seq = .fetching phase [] body)
      (hlearns : Fetch.Learns (setting.origin worker.request.url) phase body signal rest)
      (stallSecs : UInt64) :
    Step setting site (site.put worker site.scheduler.files
      (.fetching (Fetch.step worker.request stallSecs phase signal).1
        (Fetch.step worker.request stallSecs phase signal).2 rest))
  | conclude {site : Site} {worker : Worker} {before after : List Worker}
      (hworkers : site.world.workers = before ++ worker :: after) {result : Fetch.Result}
      {body : List UInt8} (hstage : site.stage worker.seq = .fetching (.ended result) [] body) :
    Step setting site
      { site with
        world := { site.world.send worker (.ended result.ending) with workers := before ++ after } }
  | abort {site : Site} {worker : Worker} {before after : List Worker}
      (hworkers : site.world.workers = before ++ worker :: after) {ending : Ending}
      (hending : ending = .cancelled ∨ ending = .brokenDown) :
    Step setting site
      { site with
        world := { site.world.send worker (.ended ending) with workers := before ++ after } }
  | restart {site : Site} (hclosing : site.closing = true) (hsaved : site.last.persist.2 = .ok ())
      {config : Config} (hqueueFile : config.queue.queueFile = setting.queueFile)
      {around : Surroundings}
      (hfiles : around.files = site.last.concludeShutdown.scheduler.files) {scheduler : Scheduler}
      (hscheduler : (Controller.takeUp config around).scheduler? = some scheduler) :
    Step setting site (boot scheduler site.remembered)

def Reachable (setting : Setting) : Site → Site → Prop :=
  Relation.ReflTransGen (Step setting)

inductive Begins (setting : Setting) : Site → Prop
  | takeUp {config : Config} {around : Surroundings} {scheduler : Scheduler}
      (hsound : around.files.Sound) (hcwd : around.files.cwd = setting.cwd)
      (hqueueFile : config.queue.queueFile = setting.queueFile) {error : IoError}
      (hread : around.files.read setting.queueFile = .error error)
      (hkind : error.kind = .notFound)
      (hscheduler : (Controller.takeUp config around).scheduler? = some scheduler) :
    Begins setting (boot scheduler [])

end Site

/-! ## What every step keeps -/

def Stage.Fits (bytes : List UInt8) (request : FetchRequest) (found : Option (List UInt8)) :
    Stage → Prop
  | .spawned => request.resumeOffset = UInt64.ofNat ((found.map List.length).getD 0)
  | .fetching phase todo body => Fetch.Faithful bytes body found phase todo

namespace Scheduler

variable {s t : Scheduler} {setting : Setting} {exempt : ItemId → Prop} {request : FetchRequest}
variable {stage : Stage}

/-- The worker works on the item that it was spawned for, and its file is what it takes it for. -/
structure Employed (setting : Setting) (s : Scheduler) (request : FetchRequest) (stage : Stage) :
    Prop where
  standing? : ∃ status, s.standing? request.id =
    some ⟨request.id, request.url, request.destination, status⟩
  file : setting.Clear request.destination →
    stage.Fits (setting.origin request.url) request (s.files.content? request.destination)

theorem Employed.of_undisturbed (h : s.Employed setting request stage)
    (hkept : Undisturbed setting s t request.id) : t.Employed setting request stage := by
  obtain ⟨status, hstanding⟩ := h.standing?
  obtain ⟨last, hlast⟩ := hkept.standing? _ hstanding
  refine ⟨⟨last, hlast⟩, fun hclear => ?_⟩
  rw [hkept.content? _ hstanding hclear]
  exact h.file hclear

theorem Assigned.employed (h : s.Assigned setting request) : s.Employed setting request .spawned := by
  refine ⟨h.standing?, fun hclear => ?_⟩
  rw [Stage.Fits, h.measured hclear, fileLength_eq]

/-- What is not about files does not matter for them. -/
theorem Intact.outside (h : s.Intact setting exempt) (inbox : List Message) (clock : Nat)
    (now : Timestamp) (share : Float) :
    ({ s with inbox, clock, now, share } : Scheduler).Intact setting exempt :=
  ⟨h.lodged.outside h.lodged.sound h.lodged.cwd inbox clock now share, h.future, h.part, h.whole⟩

/-- A worker that writes to its own file leaves the files of the other items alone. -/
theorem Intact.write (h : s.Intact setting exempt) (hbound : s.duty? request.id ≠ none)
    (hemployed : s.Employed setting request stage) {files : FileSystem}
    (hedits : FileSystem.Edits s.files files (· = s.files.placeOf request.destination))
    (hpart : setting.Clear request.destination →
      IsPart (setting.origin request.url) (files.content? request.destination)) :
    ({ s with files } : Scheduler).Intact setting exempt ∧
      ∀ id destination, s.Holds id destination → id ≠ request.id →
        files.content? destination = s.files.content? destination := by
  obtain ⟨status, hstanding⟩ := hemployed.standing?
  have hholds : s.Holds request.id request.destination := ⟨_, hstanding, rfl, .inr hbound⟩
  have hother (id : ItemId) (destination : Path) (hholdsOther : s.Holds id destination)
      (hne : id ≠ request.id) : files.content? destination = s.files.content? destination :=
    h.lodged.content?_of_edits hedits hholdsOther (h.lodged.placeOf_ne hholdsOther hholds hne)
  have hlodged : ({ s with files } : Scheduler).Lodged setting :=
    h.lodged.outside hedits.sound (hedits.cwd.trans h.lodged.cwd) s.inbox s.clock s.now s.share
  refine ⟨⟨hlodged, h.future, fun id found hfound hclear hopen => ?_,
    fun id found hfound hclear hcomplete hexempt => ?_⟩, hother⟩
  · change s.standing? id = some found at hfound
    change s.Open id found.status at hopen
    by_cases heq : id = request.id
    · subst heq
      rw [hstanding] at hfound
      cases hfound
      exact hpart hclear
    · rw [hother id _ (Open.holds hfound hopen) heq]
      exact h.part id found hfound hclear hopen
  · change s.standing? id = some found at hfound
    have hne : id ≠ request.id := by
      rintro rfl
      have hpartial := h.lodged.coherent.isComplete_eq_false hbound hfound
      rw [hcomplete] at hpartial
      cases hpartial
    rw [hother id _ (holds_of_isComplete hfound hcomplete) hne]
    exact h.whole id found hfound hclear hcomplete hexempt

/-- New items that are not complete need no exemption. -/
theorem Intact.widen {fresh : List ItemId} (h : s.Intact setting (· ∉ fresh)) (more : List ItemId)
    (hmore : ∀ id ∈ more, ∃ standing, s.standing? id = some standing ∧
      standing.status.isComplete = false) : s.Intact setting (· ∉ fresh ++ more) where
  lodged := h.lodged
  future id hle := by
    rw [List.mem_append, not_or]
    refine ⟨h.future id hle, fun hmem => ?_⟩
    obtain ⟨standing, hstanding, -⟩ := hmore id hmem
    obtain ⟨item, hget, rfl⟩ := get?_of_standing? hstanding
    have hlt := h.lodged.coherent.sound.lt_nextId item (Table.mem_of_get? hget)
    rw [Table.id_of_get? hget] at hlt
    omega
  part := h.part
  whole id standing hstanding hclear hcomplete hexempt := by
    refine h.whole id standing hstanding hclear hcomplete fun hold => hexempt fun hmem => ?_
    rcases List.mem_append.mp hmem with hmem | hmem
    · exact hold hmem
    · obtain ⟨found, hfound, hpartial⟩ := hmore id hmem
      rw [hstanding] at hfound
      cases hfound
      rw [hcomplete] at hpartial
      cases hpartial

theorem Coherent.standing?_of_mem_arrivals (h : t.Coherent) {id : ItemId} (hmem : id ∈ s.arrivals t) :
    ∃ standing, t.standing? id = some standing ∧ standing.status.isComplete = false := by
  obtain ⟨item, hitem, rfl⟩ := List.mem_map.mp hmem
  obtain ⟨hitem, hcondition⟩ := List.mem_filter.mp hitem
  rw [Bool.and_eq_true, Bool.not_eq_true', Bool.not_eq_true'] at hcondition
  exact ⟨item.standing, standing?_of_get? (h.sound.get?_of_mem hitem), hcondition.2⟩

end Scheduler

namespace Site

open Scheduler (Chain Course)

variable {setting : Setting} {site site' : Site} {worker : Worker}

structure Tended (setting : Setting) (site : Site) : Prop where
  intact : site.scheduler.Intact setting (· ∉ site.fresh)
  workers : ∀ worker ∈ site.world.workers,
    site.scheduler.Employed setting worker.request (site.stage worker.seq)
  channel : ∀ entry ∈ site.world.channel, entry.2.report = .ended .completed →
    site.scheduler.Whole setting entry.2.id
  later : ∀ seq, site.scheduler.fetches.length < seq → site.stage seq = .spawned
  closing : site.closing = true → site.scheduler.Stopping

structure Genuine (setting : Setting) (site : Site) : Prop where
  attributed : site.world.Attributed
  tended : site.Tended setting

/-- Time passes, workers come to their end, and messages come in and are taken out. -/
theorem Tended.outside (h : site.Tended setting) (inbox : List Message) (clock : Nat)
    (now : Timestamp) (share : Float) {workers : List Worker} (hworkers : workers ⊆ site.world.workers)
    {channel : List (Nat × Message)}
    (hchannel : ∀ entry ∈ channel, entry.2.report = .ended .completed →
      site.scheduler.Whole setting entry.2.id) :
    ({ site with world := ⟨{ site.scheduler with inbox, clock, now, share }, workers, channel⟩ } :
      Site).Tended setting where
  intact := h.intact.outside inbox clock now share
  workers worker hmem :=
    ⟨(h.workers worker (hworkers hmem)).standing?, (h.workers worker (hworkers hmem)).file⟩
  channel := hchannel
  later := h.later
  closing hclosing := ⟨(h.closing hclosing).closed, (h.closing hclosing).told⟩

/-! ## Steps of the scheduler -/

/-- A course of the scheduler leaves alone what the workers have in hand. -/
theorem Tended.course (h : site.Tended setting) {heard : ItemId → Ending → Prop} {t : Scheduler}
    (hcourse : Course heard site.scheduler t)
    (hwhole : ∀ id, heard id .completed → site.scheduler.Whole setting id)
    (hworkers : ∀ worker ∈ site.world.workers, site.scheduler.duty? worker.request.id ≠ none ∧
      ∀ ending, ¬ heard worker.request.id ending)
    (hchannel : ∀ entry ∈ site.world.channel, entry.2.report = .ended .completed →
      site.scheduler.duty? entry.2.id ≠ none ∧ ∀ ending, ¬ heard entry.2.id ending) :
    ({ site with world := site.world.advance t } : Site).Tended setting := by
  have hlodged := h.intact.lodged
  obtain ⟨begun, hfetches, hassigned⟩ := hcourse.recruits hlodged
  refine ⟨h.intact.course hcourse hwhole, fun worker hmem => ?_, fun entry hmem hreport => ?_,
    fun seq hlt => ?_, fun hclosing => hcourse.stopping (h.closing hclosing)⟩
  · rcases List.mem_append.mp hmem with hold | hnew
    · obtain ⟨hbound, hunheard⟩ := hworkers worker hold
      exact (h.workers worker hold).of_undisturbed (hcourse.undisturbed hlodged hbound hunheard)
    · have hrequest : worker.request ∈ begun := by
        have hmem := request_mem_of_mem_enlist hnew
        rwa [hfetches, List.drop_left] at hmem
      have hspawned : site.stage worker.seq = .spawned := h.later _ (le_of_mem_enlist hnew).1
      dsimp only
      rw [hspawned]
      exact (hassigned _ hrequest).employed
  · obtain ⟨hbound, hunheard⟩ := hchannel entry hmem hreport
    exact (h.channel entry hmem hreport).of_undisturbed
      (hcourse.undisturbed hlodged hbound hunheard)
  · refine h.later seq (Nat.lt_of_le_of_lt ?_ hlt)
    change site.scheduler.fetches.length ≤ t.fetches.length
    rw [hfetches, List.length_append]
    exact Nat.le_add_right _ _

theorem isEnding_of_report {message : Message} {ending : Ending}
    (hreport : message.report = .ended ending) : message.isEnding = true := by
  rw [Message.isEnding, hreport]

theorem Genuine.chain (h : site.Genuine setting) {t : Scheduler}
    (hchain : Chain (fun _ _ => False) site.scheduler t) : (site.advance t).Genuine setting := by
  refine ⟨h.attributed.chain hchain, ?_⟩
  have hfollowed := h.tended.course (Scheduler.course_of_chain hchain)
    (fun _ => False.elim)
    (fun worker hmem => ⟨(h.attributed.bound_of_worker hmem).1, fun _ => not_false⟩)
    fun entry hmem hreport =>
      ⟨h.attributed.bound_of_ending hmem (isEnding_of_report hreport), fun _ => not_false⟩
  have hcoherent := hfollowed.intact.lodged.coherent
  exact ⟨hfollowed.intact.widen _ fun id hmem => hcoherent.standing?_of_mem_arrivals hmem,
    hfollowed.workers, hfollowed.channel, hfollowed.later, hfollowed.closing⟩

/-- The scheduler hears the oldest message; if it is of a complete transfer, the file is whole. -/
theorem Genuine.hear (h : site.Genuine setting) {seq : Nat} {message : Message}
    {rest : List (Nat × Message)} (hchannel : site.world.channel = (seq, message) :: rest) :
    ({ site with world := site.world.handle message rest } : Site).Genuine setting := by
  refine ⟨h.attributed.handle hchannel, ?_⟩
  have hrest (entry : Nat × Message) (hmem : entry ∈ rest) : entry ∈ site.world.channel := by
    rw [hchannel]
    exact List.mem_cons_of_mem _ hmem
  -- First the message is taken off the channel, and nothing else happens.
  have htaken : ({ site with world := ⟨site.world.taken rest, site.world.workers, rest⟩ } :
      Site).Tended setting :=
    h.tended.outside _ _ _ _ (List.Subset.refl _) fun entry hmem => h.tended.channel entry (hrest entry hmem)
  have hcourse := Scheduler.course_handleMessage htaken.intact.lodged.coherent message
  refine htaken.course hcourse (fun id hmessage => ?_) (fun worker hmem => ?_)
    fun entry hmem hreport => ?_
  · subst hmessage
    refine h.tended.channel (seq, ⟨id, .ended .completed⟩) ?_ rfl
    rw [hchannel]
    exact List.mem_cons_self
  · refine ⟨(h.attributed.bound_of_worker hmem).1, fun ending hmessage => ?_⟩
    subst hmessage
    exact (h.attributed.ne_of_ending hchannel).1 worker hmem rfl
  · have hending := isEnding_of_report hreport
    refine ⟨h.attributed.bound_of_ending (hrest entry hmem) hending, fun ending hmessage => ?_⟩
    subst hmessage
    exact (h.attributed.ne_of_ending hchannel).2 entry hmem hending rfl

theorem Genuine.wait (h : site.Genuine setting) (clock : Nat) (now : Timestamp) (share : Float) :
    ({ site with world := { site.world with scheduler := { site.scheduler with clock, now, share } } } :
      Site).Genuine setting := by
  have hstep := World.Step.outside site.world site.scheduler.files clock now share
  exact ⟨hstep.attributed h.attributed,
    h.tended.outside _ _ _ _ (List.Subset.refl _) h.tended.channel⟩

/-! ## Steps of the workers -/

/-- A worker changes its own file only, and no other worker has it. -/
theorem Genuine.put (h : site.Genuine setting) (hmem : worker ∈ site.world.workers)
    {files : FileSystem} (hedits : FileSystem.Edits site.scheduler.files files
      (· = site.scheduler.files.placeOf worker.request.destination))
    {phase : Fetch.Phase} {todo : List Fetch.Effect} {body : List UInt8}
    (hfaithful : setting.Clear worker.request.destination →
      Fetch.Faithful (setting.origin worker.request.url) body
        (files.content? worker.request.destination) phase todo) :
    (site.put worker files (.fetching phase todo body)).Genuine setting := by
  have hstep := World.Step.outside site.world files site.scheduler.clock site.scheduler.now
    site.scheduler.share
  obtain ⟨hbound, hseq⟩ := h.attributed.bound_of_worker hmem
  obtain ⟨hintact, hothers⟩ := h.tended.intact.write hbound (h.tended.workers worker hmem) hedits
    fun hclear => (hfaithful hclear).harmless.isPart
  refine ⟨hstep.attributed h.attributed, hintact, fun other hother => ?_,
    fun entry hentry hreport => ?_, fun seq hlt => ?_, fun hclosing => ?_⟩
  · by_cases heq : other = worker
    · subst heq
      refine ⟨(h.tended.workers other hmem).standing?, fun hclear => ?_⟩
      rw [stage_put_self]
      exact hfaithful hclear
    · have hne : other.seq ≠ worker.seq := fun hsame =>
        heq (h.attributed.worker_eq hmem hother (.inl hsame))
      have hid : other.request.id ≠ worker.request.id := fun hsame =>
        heq (h.attributed.worker_eq hmem hother (.inr hsame))
      obtain ⟨status, hstanding⟩ := (h.tended.workers other hother).standing?
      have hholds : site.scheduler.Holds other.request.id other.request.destination :=
        ⟨_, hstanding, rfl, .inr (h.attributed.bound_of_worker hother).1⟩
      refine ⟨⟨status, hstanding⟩, fun hclear => ?_⟩
      have hcontent := hothers _ _ hholds hid
      rw [stage_put_of_ne site files _ hne]
      change Stage.Fits _ _ (files.content? _) _
      rw [hcontent]
      exact (h.tended.workers other hother).file hclear
  · have hending := isEnding_of_report hreport
    obtain ⟨standing, hstanding, hwhole⟩ := h.tended.channel entry hentry hreport
    have hholds : site.scheduler.Holds entry.2.id standing.destination :=
      ⟨standing, hstanding, rfl, .inr (h.attributed.bound_of_ending hentry hending)⟩
    refine ⟨standing, hstanding, fun hclear => ?_⟩
    exact (hothers _ _ hholds (h.attributed.id_ne_of_ending hmem hentry hending)).trans
      (hwhole hclear)
  · have hcounted := h.attributed.counted
    have hne : seq ≠ worker.seq := by
      rintro rfl
      exact absurd (hcounted ▸ hseq) (Nat.not_le_of_lt hlt)
    rw [stage_put_of_ne site files _ hne]
    exact h.tended.later seq hlt
  · exact ⟨(h.tended.closing hclosing).closed, (h.tended.closing hclosing).told⟩

theorem Genuine.tell (h : site.Genuine setting) (hmem : worker ∈ site.world.workers)
    (reports : List Progress) : (site.tell worker reports).Genuine setting := by
  induction reports generalizing site with
  | nil => exact h
  | cons report reports ih =>
    have hsent : ({ site with world := site.world.send worker (.progress report) } :
        Site).Genuine setting := by
      refine ⟨h.attributed.report hmem report,
        h.tended.outside _ _ _ _ (List.Subset.refl _) fun entry hentry hreport => ?_⟩
      rcases List.mem_append.mp hentry with hold | hnew
      · exact h.tended.channel entry hold hreport
      · rw [List.mem_singleton] at hnew
        subst hnew
        cases hreport
    exact ih hsent hmem

/-- A worker that tells of a complete transfer leaves a whole file. -/
theorem Genuine.finish (h : site.Genuine setting) {before after : List Worker}
    (hworkers : site.world.workers = before ++ worker :: after) {ending : Ending}
    (hwhole : ending = .completed → site.scheduler.Whole setting worker.request.id) :
    ({ site with
        world := { site.world.send worker (.ended ending) with workers := before ++ after } } :
      Site).Genuine setting := by
  have hsub : before ++ after ⊆ site.world.workers := by
    rw [hworkers]
    exact List.append_subset.mpr ⟨List.subset_append_left _ _,
      List.Subset.trans (List.subset_cons_self _ _) (List.subset_append_right _ _)⟩
  refine ⟨h.attributed.finish hworkers ending, h.tended.outside _ _ _ _ hsub fun entry hentry hreport => ?_⟩
  rcases List.mem_append.mp hentry with hold | hnew
  · exact h.tended.channel entry hold hreport
  · rw [List.mem_singleton] at hnew
    subst hnew
    exact hwhole (Report.ended.inj hreport)

/-- Whichever length the worker goes by, it is the length of a beginning. -/
theorem Genuine.begin (h : site.Genuine setting) (hmem : worker ∈ site.world.workers)
    (hstage : site.stage worker.seq = .spawned) {offset : UInt64}
    (hoffset : offset = worker.request.resumeOffset ∨
      offset = site.scheduler.files.fileLength worker.request.destination) :
    (site.put worker site.scheduler.files
      (.fetching (Fetch.begin offset).1 (Fetch.begin offset).2 [])).Genuine setting := by
  have hemployed := h.tended.workers worker hmem
  have hbound := (h.attributed.bound_of_worker hmem).1
  obtain ⟨status, hstanding⟩ := hemployed.standing?
  refine h.put hmem (.refl h.tended.intact.lodged.sound) fun hclear => ?_
  have hmeasured : offset = UInt64.ofNat
      (((site.scheduler.files.content? worker.request.destination).map List.length).getD 0) := by
    rcases hoffset with rfl | rfl
    · have hfile := hemployed.file hclear
      rwa [hstage] at hfile
    · exact Scheduler.fileLength_eq _ _
  subst hmeasured
  have hpart := h.tended.intact.part _ _ hstanding hclear (.inl hbound)
  exact Fetch.faithful_begin (setting.fits worker.request.url) hpart

/-- An effect that is carried out leaves what the next one expects. -/
theorem Genuine.perform (h : site.Genuine setting) (hmem : worker ∈ site.world.workers)
    {phase : Fetch.Phase} {effect : Fetch.Effect} {todo : List Fetch.Effect} {body : List UInt8}
    (hstage : site.stage worker.seq = .fetching phase (effect :: todo) body) {run : Fetch.Run}
    (hperform : Fetch.perform worker.request.destination
      { phase, files := site.scheduler.files } effect = .ok run) :
    ((site.put worker run.files (.fetching phase todo body)).tell worker run.reports).Genuine
      setting := by
  have hemployed := h.tended.workers worker hmem
  have hlodged := h.tended.intact.lodged
  obtain ⟨status, hstanding⟩ := hemployed.standing?
  have hresolved : worker.request.destination.Resolved := hlodged.resolved _ _ hstanding
  obtain ⟨hedits, hcontent⟩ := Fetch.perform_ok hlodged.sound hresolved hperform
  refine Genuine.tell (h.put hmem hedits fun hclear => ?_) hmem _
  have hfile := hemployed.file hclear
  rw [hstage] at hfile
  rw [hcontent]
  exact Fetch.Faithful.perform hfile

theorem Genuine.faithful (h : site.Genuine setting) (hmem : worker ∈ site.world.workers)
    {phase : Fetch.Phase} {todo : List Fetch.Effect} {body : List UInt8}
    (hstage : site.stage worker.seq = .fetching phase todo body)
    (hclear : setting.Clear worker.request.destination) :
    Fetch.Faithful (setting.origin worker.request.url) body
      (site.scheduler.files.content? worker.request.destination) phase todo := by
  have hfile := (h.tended.workers worker hmem).file hclear
  rwa [hstage] at hfile

theorem eq_ok_of_ending {result : Fetch.Result} (h : result.ending = .completed) :
    result = .returned (.ok ()) := by
  cases result with
  | brokeDown overflow => cases h
  | returned result =>
    cases result with
    | ok value => rfl
    | error error => cases error <;> cases h

/-- A fetch that is reported as completed has left the whole file. -/
theorem Genuine.whole (h : site.Genuine setting) (hmem : worker ∈ site.world.workers)
    {result : Fetch.Result} {body : List UInt8}
    (hstage : site.stage worker.seq = .fetching (.ended result) [] body)
    (hending : result.ending = .completed) :
    site.scheduler.Whole setting worker.request.id := by
  obtain ⟨status, hstanding⟩ := (h.tended.workers worker hmem).standing?
  refine ⟨_, hstanding, fun hclear => ?_⟩
  rw [eq_ok_of_ending hending] at hstage
  exact (h.faithful hmem hstage hclear).consistent

end Site

/-! ## From one run to the next -/

theorem Scheduler.files_concludeShutdown (s : Scheduler) :
    s.concludeShutdown.scheduler.files = s.persist.1.files := by
  have hpublish (t : Scheduler) {α : Type} (value : α) :
      (t.publish.andThen fun s () => .done (s.emit .shutdown) value).scheduler.files = t.files := by
    rw [Step.andThen]
    split
    · exact (alike_publish t).files
    · exact (alike_publish t).files
  rw [concludeShutdown]
  generalize s.persist = saved
  obtain ⟨saved, result⟩ := saved
  cases result with
  | ok value => exact hpublish saved _
  | error error => exact hpublish (saved.tellFailure error) _

namespace Controller

variable {config : Config} {around : Surroundings}

/-- The scheduler of a queue that was taken up from its queue file. -/
theorem scheduler_of_takeUp {scheduler : Scheduler} {items : List Item}
    (hload : QueueFile.load around.files config.queue.queueFile = .ok items)
    (h : (takeUp config around).scheduler? = some scheduler) :
    ∃ table, Table.ofItems items = .ok table ∧
      scheduler = ({ Scheduler.ofTable config table around.files around.now around.share with
        clock := around.clock } : Scheduler).launch.scheduler := by
  rw [takeUp, hload] at h
  dsimp only at h
  split at h
  · cases h
  · next table htable =>
    refine ⟨table, htable, ?_⟩
    rw [launch] at h
    split at h
    · cases h
      rfl
    · cases h
      rfl

end Controller

namespace Scheduler

variable {s : Scheduler} {setting : Setting}

/-- The items of a queue file come back as they were saved. -/
theorem Intact.reload {fresh : List ItemId} (h : s.Intact setting (· ∉ fresh)) {config : Config}
    (hqueueFile : config.queue.queueFile = setting.queueFile) {table : Table} (hsound : table.Sound)
    (hitems : table.items = QueueFile.kept s.table.items) (now : Timestamp) (share : Float)
    (clock : Nat) :
    ({ ofTable config table s.files now share with clock } : Scheduler).Intact setting
      (· ∉ fresh.filter fun id => id ∈ (QueueFile.kept s.table.items).map Item.id) := by
  generalize hloaded : ({ ofTable config table s.files now share with clock } : Scheduler) = t
  have hidle : t.active = [] := by rw [← hloaded]; rfl
  have htable : t.table = table := by rw [← hloaded]; rfl
  have hfiles : t.files = s.files := by rw [← hloaded]; rfl
  have hconfig : t.config = config := by rw [← hloaded]; rfl
  have hfree (id : ItemId) : t.duty? id = none := by
    rw [duty?_eq_find?, duties, hidle]
    rfl
  have hstanding (id : ItemId) (standing : Standing) (hfound : t.standing? id = some standing) :
      s.standing? id = some standing ∧ standing.status ≠ .deleted := by
    obtain ⟨item, hget, rfl⟩ := get?_of_standing? hfound
    have hmem := Table.mem_of_get? hget
    rw [htable, hitems] at hmem
    obtain ⟨hmem, hlive⟩ := List.mem_filter.mp hmem
    rw [← Table.id_of_get? hget]
    exact ⟨standing?_of_get? (h.lodged.coherent.sound.get?_of_mem hmem), of_decide_eq_true hlive⟩
  -- nobody is bound yet, so a destination is held by the items that were kept and by no one else
  have hexclusive : t.Exclusive := by
    refine h.lodged.exclusive.mono fun id a hholds => ?_
    obtain ⟨standing, hfound, hdestination, -⟩ := hholds
    obtain ⟨hbefore, hlive⟩ := hstanding id standing hfound
    exact ⟨standing, hbefore, hdestination, .inl hlive⟩
  refine ⟨⟨.of_active_eq_nil (htable ▸ hsound) hidle, hexclusive, hfiles ▸ h.lodged.sound,
    hfiles ▸ h.lodged.cwd, hconfig ▸ hqueueFile, fun id standing hfound => ?_⟩, fun id hle hmem => ?_,
    fun id standing hfound hclear hopen => ?_, fun id standing hfound hclear hcomplete hexempt => ?_⟩
  · exact h.lodged.resolved id standing (hstanding id standing hfound).1
  · have hkept := of_decide_eq_true (List.mem_filter.mp hmem).2
    rw [← hitems] at hkept
    obtain ⟨item, hitem, rfl⟩ := List.mem_map.mp hkept
    have hlt := hsound.lt_nextId item hitem
    rw [htable] at hle
    omega
  · obtain ⟨hbefore, hlive⟩ := hstanding id standing hfound
    rw [hfiles]
    refine h.part id standing hbefore hclear (.inr ?_)
    exact hopen.resolve_left fun hbound => hbound (hfree id)
  · rw [hfiles]
    refine h.whole id standing (hstanding id standing hfound).1 hclear hcomplete fun hold => ?_
    exact hexempt fun hmem => hold (List.mem_filter.mp hmem).1

theorem chain_launch {heard : ItemId → Ending → Prop} (hsound : s.table.Sound)
    (hidle : s.active = []) : Chain heard s s.launch.scheduler := by
  have hrestored : Chain heard s s.restore := chain_restore hsound hidle
  have hcoherent := hrestored.coherent (Coherent.of_active_eq_nil hsound hidle)
  exact (hrestored.trans (chain_tick hcoherent)).trans (chain_commit _)

end Scheduler

namespace Site

variable {setting : Setting} {site site' : Site}

/-- A run begins well if the table is brought into operation while the files are intact. -/
theorem genuine_boot {config : Config} {table : Table} (hsound : table.Sound) {files : FileSystem}
    {now : Timestamp} {share : Float} {clock : Nat} {fresh : List ItemId}
    (hintact : ({ Scheduler.ofTable config table files now share with clock } :
      Scheduler).Intact setting (· ∉ fresh)) :
    (boot ({ Scheduler.ofTable config table files now share with clock } :
      Scheduler).launch.scheduler fresh).Genuine setting := by
  have hattributed := World.attributed_ofTable config hsound files now share clock
  have hchain : Scheduler.Chain (fun _ _ => False) _ _ := Scheduler.chain_launch
    (s := { Scheduler.ofTable config table files now share with clock }) hsound rfl
  have hidle : (Site.mk ⟨{ Scheduler.ofTable config table files now share with clock }, [], []⟩
      (fun _ => .spawned) false fresh).Tended setting :=
    ⟨hintact, fun worker hmem => absurd hmem List.not_mem_nil,
      fun entry hmem => absurd hmem List.not_mem_nil, fun _ _ => rfl, fun hclosing => by cases hclosing⟩
  refine ⟨hattributed.chain hchain, ?_⟩
  exact hidle.course (Scheduler.course_of_chain hchain) (fun _ => False.elim)
    (fun worker hmem => absurd hmem List.not_mem_nil) fun entry hmem => absurd hmem List.not_mem_nil

/-- The first run starts without items, so there is nothing to go wrong yet. -/
theorem Begins.genuine (h : Begins setting site) : site.Genuine setting := by
  cases h with
  | @takeUp config around scheduler hsound hcwd hqueueFile error hread hkind hscheduler =>
    have hload : QueueFile.load around.files config.queue.queueFile = .ok [] := by
      rw [QueueFile.load, hqueueFile, hread]
      exact if_pos hkind
    obtain ⟨table, htable, rfl⟩ := Controller.scheduler_of_takeUp hload hscheduler
    have hnodup : (([] : List Item).map Item.id).Nodup := List.nodup_nil
    obtain ⟨htableSound, hitems⟩ := Table.Sound.ofItems hnodup htable
    refine genuine_boot htableSound ?_
    generalize hloaded : ({ Scheduler.ofTable config table around.files around.now around.share with
      clock := around.clock } : Scheduler) = s
    have hidle : s.active = [] := by rw [← hloaded]; rfl
    have hempty : s.table = table := by rw [← hloaded]; rfl
    have hfiles : s.files = around.files := by rw [← hloaded]; rfl
    have hnone (id : ItemId) : s.standing? id = none := by
      cases hstanding : s.standing? id with
      | none => rfl
      | some standing =>
        obtain ⟨item, hget, -⟩ := Scheduler.get?_of_standing? hstanding
        have hmem := Table.mem_of_get? hget
        rw [hempty, hitems] at hmem
        cases hmem
    -- whatever is to be shown of an item, there is none
    have habsurd {p : Prop} {id : ItemId} {standing : Standing}
        (hstanding : s.standing? id = some standing) : p := by
      rw [hnone] at hstanding
      cases hstanding
    refine ⟨⟨.of_active_eq_nil (hempty ▸ htableSound) hidle, fun id other a b ha => ?_,
      hfiles ▸ hsound, hfiles ▸ hcwd, ?_, fun _ _ => habsurd⟩, fun _ _ => List.not_mem_nil,
      fun _ _ => habsurd, fun _ _ => habsurd⟩
    · obtain ⟨standing, hstanding, -⟩ := ha
      exact habsurd hstanding
    · rw [← hloaded]
      exact hqueueFile

/-- The next run takes over what the last one left. -/
theorem Genuine.restart (h : site.Genuine setting) (hclosing : site.closing = true)
    (hsaved : site.last.persist.2 = .ok ()) {config : Config}
    (hqueueFile : config.queue.queueFile = setting.queueFile) {around : Surroundings}
    (hfiles : around.files = site.last.concludeShutdown.scheduler.files) {scheduler : Scheduler}
    (hscheduler : (Controller.takeUp config around).scheduler? = some scheduler) :
    (boot scheduler site.remembered).Genuine setting := by
  have hchain : Scheduler.Chain (fun _ ending => ending = .cancelled) site.scheduler site.last :=
    Scheduler.chain_abandonAll (fun _ => rfl) h.tended.intact.lodged.coherent
      (h.tended.closing hclosing)
  have hlast := h.tended.intact.chain (by simp) hchain
  have hsave : Scheduler.Chain (fun _ _ => False) site.last site.last.persist.1 :=
    Scheduler.Chain.single (.save site.last)
  have hpersisted := hlast.chain (fun _ => not_false) hsave
  rw [Scheduler.files_concludeShutdown] at hfiles
  have hload : QueueFile.load around.files config.queue.queueFile =
      .ok (QueueFile.kept site.last.table.items) := by
    have hread := (QueueFile.edits_save hlast.lodged.sound site.last.config.queue.queueFile
      site.last.table.items).2 hsaved
    change site.last.persist.1.files.read _ = _ at hread
    rw [hlast.lodged.queueFile] at hread
    rw [QueueFile.load, hfiles, hqueueFile, hread]
    exact QueueFile.parse_render _ hlast.lodged.coherent.sound.nodup
  obtain ⟨table, htable, rfl⟩ := Controller.scheduler_of_takeUp hload hscheduler
  have hnodup : ((QueueFile.kept site.last.table.items).map Item.id).Nodup :=
    hlast.lodged.coherent.sound.nodup.sublist (List.filter_sublist.map _)
  obtain ⟨hsound, hitems⟩ := Table.Sound.ofItems hnodup htable
  rw [hfiles]
  exact genuine_boot hsound (hpersisted.reload hqueueFile hsound hitems _ _ _)

/-- Every step keeps the files what they are taken for. -/
theorem Step.genuine (hstep : Step setting site site') (h : site.Genuine setting) :
    site'.Genuine setting := by
  have hcoherent := h.tended.intact.lodged.coherent
  cases hstep with
  | operate operation => exact h.chain (Scheduler.chain_operate hcoherent operation)
  | beginShutdown =>
    have hshutdown := h.chain (Scheduler.chain_beginShutdown hcoherent)
    exact ⟨hshutdown.attributed, hshutdown.tended.intact, hshutdown.tended.workers,
      hshutdown.tended.channel, hshutdown.tended.later,
      fun _ => Scheduler.stopping_beginShutdown site.scheduler⟩
  | wait clock now share => exact h.wait clock now share
  | hear hchannel => exact h.hear hchannel
  | begin hmem hstage hoffset => exact h.begin hmem hstage hoffset
  | perform hmem hstage hperform => exact h.perform hmem hstage hperform
  | refuse hmem hstage hperform =>
    refine h.put hmem (.refl h.tended.intact.lodged.sound) fun hclear => ?_
    exact (h.faithful hmem hstage hclear).fail _
  | learn hmem hstage hlearns stallSecs =>
    refine h.put hmem (.refl h.tended.intact.lodged.sound) fun hclear => ?_
    exact (h.faithful hmem hstage hclear).step (setting.fits _) hlearns _ stallSecs
  | @conclude worker before after hworkers result body hstage =>
    have hmem : worker ∈ site.world.workers := by
      rw [hworkers]
      exact List.mem_append_right _ List.mem_cons_self
    exact h.finish hworkers (h.whole hmem hstage)
  | abort hworkers hending =>
    refine h.finish hworkers fun hcompleted => ?_
    subst hcompleted
    rcases hending with hending | hending <;> cases hending
  | restart hclosing hsaved hqueueFile hfiles hscheduler =>
    exact h.restart hclosing hsaved hqueueFile hfiles hscheduler

theorem Reachable.genuine (hreach : Reachable setting site site') (h : site.Genuine setting) :
    site'.Genuine setting := by
  induction hreach with
  | refl => exact h
  | tail _ hstep ih => exact hstep.genuine ih

/-- In every run the file of an item that came in without one is missing or a beginning of the bytes
behind its address, and it is all of them when the item is complete. -/
theorem isPart_of_reachable {first : Site} (hbegins : Begins setting first)
    (hreach : Reachable setting first site) {item : Item}
    (hmem : item ∈ site.scheduler.table.items) (hfresh : item.id ∈ site.fresh)
    (hlive : item.status ≠ .deleted) (hclear : setting.Clear item.destination) :
    IsPart (setting.origin item.sourceUrl) (site.scheduler.files.content? item.destination) ∧
      (item.status.isComplete = true →
        site.scheduler.files.content? item.destination = some (setting.origin item.sourceUrl)) := by
  have hintact := (hreach.genuine hbegins.genuine).tended.intact
  have hstanding := Scheduler.standing?_of_get? (hintact.lodged.coherent.sound.get?_of_mem hmem)
  have hwhole (hcomplete : item.status.isComplete = true) :
      site.scheduler.files.content? item.destination = some (setting.origin item.sourceUrl) :=
    hintact.whole item.id item.standing hstanding hclear hcomplete (not_not_intro hfresh)
  refine ⟨?_, hwhole⟩
  cases hcomplete : item.status.isComplete with
  | true =>
    rw [hwhole hcomplete]
    exact isPart_some List.prefix_rfl
  | false => exact hintact.part item.id item.standing hstanding hclear (.inr ⟨hcomplete, hlive⟩)

theorem eq_ok_of_isOk {ε : Type} {result : Except ε Unit} (h : result.isOk = true) :
    result = .ok () := by
  cases result with
  | ok value => rfl
  | error error => cases h

def sampleSetting : Setting :=
  { origin := fun _ => [1, 2, 3], fits := fun _ => by decide, cwd := [], queueFile := ⟨"/q"⟩ }

def sampleConfig : Config :=
  { queue := { queueFile := ⟨"/q"⟩ } }

def sampleStart (files : FileSystem) : Scheduler :=
  (Controller.takeUp sampleConfig ⟨files, 0, .epoch, "", 0⟩).scheduler?.getD
    (.ofTable sampleConfig .empty files .epoch 0)

theorem takeUp_sample {files : FileSystem}
    (h : (Controller.takeUp sampleConfig ⟨files, 0, .epoch, "", 0⟩).scheduler?.isSome = true) :
    (Controller.takeUp sampleConfig ⟨files, 0, .epoch, "", 0⟩).scheduler? =
      some (sampleStart files) := by
  obtain ⟨scheduler, hscheduler⟩ := Option.isSome_iff_exists.mp h
  rw [sampleStart, hscheduler, Option.getD_some]

theorem restart_sample {site : Site} (hclosing : site.closing = true)
    (hsaved : site.last.persist.2.isOk = true)
    (htaken : (Controller.takeUp sampleConfig
      ⟨site.last.concludeShutdown.scheduler.files, 0, .epoch, "", 0⟩).scheduler?.isSome = true) :
    Step sampleSetting site
      (boot (sampleStart site.last.concludeShutdown.scheduler.files) site.remembered) :=
  .restart hclosing (eq_ok_of_isOk hsaved) rfl rfl (takeUp_sample htaken)

theorem begins_sample : Begins sampleSetting (boot (sampleStart .empty) []) := by
  have hsound : FileSystem.empty.Sound := by
    refine ⟨fun place label node hnode => ?_, rfl, fun name hname => absurd hname List.not_mem_nil⟩
    rw [FileSystem.node?_of_ne_nil _ (by simp)] at hnode
    cases hnode
  have hread : FileSystem.empty.read ⟨"/q"⟩ = .error .noEntry := rfl
  exact .takeUp hsound rfl rfl hread rfl (takeUp_sample (by decide +kernel))

theorem mem_workers_put {site : Site} {worker other : Worker} {files : FileSystem} {stage : Stage}
    (h : other ∈ site.world.workers) : other ∈ (site.put worker files stage).world.workers :=
  h

/-- Two of three bytes come in before the item is paused, and then the queue is started again. -/
theorem reachable_paused :
    ∃ site item, Reachable sampleSetting (boot (sampleStart .empty) []) site ∧
      item ∈ site.scheduler.table.items ∧ item.id ∈ site.fresh ∧ item.status = .paused ∧
      item.destination = ⟨"/d/a"⟩ ∧ site.scheduler.files.content? ⟨"/d/a"⟩ = some [1, 2] := by
  let worker : Worker := ⟨1, ⟨⟨1⟩, "http://h/a", ⟨"/d/a"⟩, 0⟩⟩
  let created : FileSystem := ⟨[], [(["d", "a"], .file []), (["d"], .directory)]⟩
  let written : FileSystem := ⟨[], [(["d", "a"], .file [1, 2]), (["d"], .directory)]⟩
  let s₀ := boot (sampleStart .empty) []
  -- What follows does not look into the site with the new item until it comes to the messages.
  obtain ⟨s₁, hs₁⟩ : ∃ s₁, s₁ =
    s₀.advance (s₀.scheduler.operate (.enqueue "http://h/a" ⟨"/d/a"⟩)) := ⟨_, rfl⟩
  have h₁ : Step sampleSetting s₀ s₁ := hs₁ ▸ .operate s₀ (.enqueue "http://h/a" ⟨"/d/a"⟩)
  have hmem₁ : worker ∈ s₁.world.workers := by subst hs₁; decide +kernel
  have hspawned : s₁.stage 1 = .spawned := by subst hs₁; rfl
  have hempty : s₁.scheduler.files = .empty := by subst hs₁; decide +kernel
  let s₂ := s₁.put worker s₁.scheduler.files (.fetching (.waiting 0) [.send none] [])
  have h₂ : Step sampleSetting s₁ s₂ := .begin hmem₁ hspawned (.inl rfl)
  have hmem₂ : worker ∈ s₂.world.workers := mem_workers_put hmem₁
  let s₃ := s₂.put worker s₁.scheduler.files (.fetching (.waiting 0) [] [])
  have h₃ : Step sampleSetting s₂ s₃ := .perform hmem₂ (stage_put_self _ _ _ _) rfl
  have hmem₃ : worker ∈ s₃.world.workers := mem_workers_put hmem₂
  let s₄ := s₃.put worker s₁.scheduler.files
    (.fetching (.receiving (some 3) 0) [.openFresh, .report (.started 0 (some 3))] [1, 2, 3])
  have h₄ : Step sampleSetting s₃ s₄ :=
    .learn hmem₃ (stage_put_self _ _ _ _) (.head [] (.whole none none)) 60
  have hmem₄ : worker ∈ s₄.world.workers := mem_workers_put hmem₃
  have hcreated : Fetch.perform ⟨"/d/a"⟩
      { phase := .receiving (some 3) 0, files := s₁.scheduler.files } .openFresh =
      .ok { phase := .receiving (some 3) 0, files := created } := by
    rw [hempty]
    rfl
  let s₅ := s₄.put worker created
    (.fetching (.receiving (some 3) 0) [.report (.started 0 (some 3))] [1, 2, 3])
  have h₅ : Step sampleSetting s₄ s₅ := .perform hmem₄ (stage_put_self _ _ _ _) hcreated
  have hmem₅ : worker ∈ s₅.world.workers := mem_workers_put hmem₄
  have hreported : Fetch.perform ⟨"/d/a"⟩ { phase := .receiving (some 3) 0, files := created }
      (.report (.started 0 (some 3))) =
      .ok ⟨.receiving (some 3) 0, created, [], [.started 0 (some 3)]⟩ := rfl
  let s₆ := (s₅.put worker created (.fetching (.receiving (some 3) 0) [] [1, 2, 3])).tell worker
    [.started 0 (some 3)]
  have h₆ : Step sampleSetting s₅ s₆ := .perform hmem₅ (stage_put_self s₄ worker created _) hreported
  have hstage₆ : s₆.stage worker.seq = .fetching (.receiving (some 3) 0) [] ([1, 2] ++ [3]) :=
    stage_put_self s₅ worker created _
  have hmem₆ : worker ∈ s₆.world.workers := hmem₅
  let s₇ := s₆.put worker created
    (.fetching (.receiving (some 3) 2) [.append [1, 2], .report (.reached 2 (some 3))] [3])
  have h₇ : Step sampleSetting s₆ s₇ := .learn hmem₆ hstage₆ (.chunk (some 3) 0 [1, 2] [3]) 60
  have hmem₇ : worker ∈ s₇.world.workers := mem_workers_put hmem₆
  have hwritten : Fetch.perform ⟨"/d/a"⟩ { phase := .receiving (some 3) 2, files := created }
      (.append [1, 2]) = .ok { phase := .receiving (some 3) 2, files := written } := by
    rfl
  let s₈ := s₇.put worker written
    (.fetching (.receiving (some 3) 2) [.report (.reached 2 (some 3))] [3])
  have h₈ : Step sampleSetting s₇ s₈ := .perform hmem₇ (stage_put_self s₆ worker created _) hwritten
  let s₉ := s₈.advance (s₈.scheduler.operate (.dispatch (.pause ⟨1⟩) []))
  have h₉ : Step sampleSetting s₈ s₉ := .operate s₈ (.dispatch (.pause ⟨1⟩) [])
  have hworkers : s₉.world.workers = [] ++ worker :: [] := by subst hs₁; decide +kernel
  let s₁₀ : Site :=
    { s₉ with world := { s₉.world.send worker (.ended .cancelled) with workers := [] } }
  have h₁₀ : Step sampleSetting s₉ s₁₀ := .abort hworkers (.inl rfl)
  have hchannel : s₁₀.world.channel =
      [(1, ⟨⟨1⟩, .progress (.started 0 (some 3))⟩), (1, ⟨⟨1⟩, .ended .cancelled⟩)] := by
    subst hs₁
    decide +kernel
  let s₁₁ : Site :=
    { s₁₀ with
      world := s₁₀.world.handle ⟨⟨1⟩, .progress (.started 0 (some 3))⟩
        [(1, ⟨⟨1⟩, .ended .cancelled⟩)] }
  have h₁₁ : Step sampleSetting s₁₀ s₁₁ := .hear hchannel
  let s₁₂ : Site := { s₁₁ with world := s₁₁.world.handle ⟨⟨1⟩, .ended .cancelled⟩ [] }
  have h₁₂ : Step sampleSetting s₁₁ s₁₂ := .hear (rfl : s₁₁.world.channel = _)
  let s₁₃ : Site := { s₁₂.advance s₁₂.scheduler.beginShutdown with closing := true }
  have h₁₃ : Step sampleSetting s₁₂ s₁₃ := .beginShutdown s₁₂
  have hsaved : s₁₃.last.persist.2.isOk = true := by subst hs₁; decide +kernel
  have htaken : (Controller.takeUp sampleConfig
      ⟨s₁₃.last.concludeShutdown.scheduler.files, 0, .epoch, "", 0⟩).scheduler?.isSome = true := by
    subst hs₁
    decide +kernel
  let s₁₄ := boot (sampleStart s₁₃.last.concludeShutdown.scheduler.files) s₁₃.remembered
  have h₁₄ : Step sampleSetting s₁₃ s₁₄ := restart_sample rfl hsaved htaken
  have hitems : (s₁₄.scheduler.table.items.map fun item => (item.id, item.status, item.destination)) =
      [(⟨1⟩, .paused, ⟨"/d/a"⟩)] ∧ s₁₄.fresh = [⟨1⟩] := by
    subst hs₁
    decide +kernel
  have hcontent : s₁₄.scheduler.files.content? ⟨"/d/a"⟩ = some [1, 2] := by subst hs₁; decide +kernel
  obtain ⟨item, hitem, heq⟩ := List.map_eq_singleton_iff.mp hitems.1
  obtain ⟨hid, hstatus, hdestination⟩ : item.id = ⟨1⟩ ∧ item.status = .paused ∧
    item.destination = ⟨"/d/a"⟩ := by simpa using heq
  have hreach : Reachable sampleSetting s₀ s₁₄ :=
    (((((((((((((Relation.ReflTransGen.single h₁).tail h₂).tail h₃).tail h₄).tail h₅).tail h₆).tail
      h₇).tail h₈).tail h₉).tail h₁₀).tail h₁₁).tail h₁₂).tail h₁₃).tail h₁₄
  refine ⟨s₁₄, item, hreach, ?_, ?_, hstatus, hdestination, hcontent⟩
  · rw [hitem]
    exact List.mem_cons_self
  · rw [hitems.2, hid]
    exact List.mem_cons_self

theorem isPart_of_reachable_paused :
    ∃ first site item, Begins sampleSetting first ∧ Reachable sampleSetting first site ∧
      item ∈ site.scheduler.table.items ∧ item.id ∈ site.fresh ∧ item.status ≠ .deleted ∧
      sampleSetting.Clear item.destination ∧
      site.scheduler.files.content? item.destination = some [1, 2] ∧
      IsPart (sampleSetting.origin item.sourceUrl)
        (site.scheduler.files.content? item.destination) := by
  obtain ⟨site, item, hreach, hmem, hfresh, hstatus, hdestination, hcontent⟩ := reachable_paused
  have hlive : item.status ≠ .deleted := by simp [hstatus]
  have hclear : sampleSetting.Clear item.destination := by
    rw [hdestination]
    unfold Setting.Clear QueueFile.Reserved
    decide +kernel
  rw [← hdestination] at hcontent
  exact ⟨_, site, item, begins_sample, hreach, hmem, hfresh, hlive, hclear, hcontent,
    (isPart_of_reachable begins_sample hreach hmem hfresh hlive hclear).1⟩

end Site

end DownloadQueue
