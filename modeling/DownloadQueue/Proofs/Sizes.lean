import DownloadQueue.Proofs.Shifts

/-!
# The size of a finished download

When the fetch of an item has succeeded and all its reports are heard, the item knows the length of
its file. Its total is another matter: it is what the server announced for this fetch. If nothing was
announced, the total that was on record when the fetch began stays there, and only an item without
one takes the length of its file.
-/

namespace DownloadQueue

namespace Fetch

variable {offset start : UInt64} {prior found : Option (List UInt8)} {intake : Intake}
variable {reports : List Progress} {total : Option UInt64} {heights : List UInt64}

theorem reaches_told : Reaches (told start total heights) ↔
    ∀ size, total = some size → size ≤ (start :: heights).getLast (List.cons_ne_nil _ _) := by
  refine ⟨?_, fun hreach => ⟨start, total, heights, rfl, hreach⟩⟩
  rintro ⟨first, announced, rest, heq, hreach⟩
  obtain ⟨hfirst, hrest⟩ := List.cons.inj heq
  cases hfirst
  have hinjective : Function.Injective fun bytes => Progress.reached bytes total :=
    fun low high hsame => (Progress.reached.inj hsame).1
  obtain rfl := List.map_injective_iff.mpr hinjective hrest
  exact hreach

/-- A fetch that succeeded has reported the length of the file that it leaves, which is not below the
size that was announced. -/
theorem Sheet.measured
    (h : Sheet offset prior intake found reports (.ended (.returned (.ok ()))))
    (hoffset : offset = UInt64.ofNat (prior.getD []).length) :
    ∃ start announced heights content, reports = told start announced heights ∧
      found = some content ∧ Climbs start heights content ∧
      ∀ size, announced = some size → size ≤ UInt64.ofNat content.length := by
  obtain ⟨hleaves, hreaches⟩ := h
  cases hleaves with
  | untouched hbody =>
    obtain ⟨start, announced, heights, heq, -⟩ := hreaches
    cases heq
  | complete hbody hne hanswers hstatus htotal =>
    cases prior with
    | none => exact absurd hoffset hne
    | some content =>
      refine ⟨offset, some offset, [], content, rfl, rfl,
        ⟨hoffset, List.pairwise_singleton _ _⟩, ?_⟩
      rintro size ⟨⟩
      rw [hoffset]
      exact UInt64.le_refl _
  | @received start announced heights content hstart hcontent hclimbs =>
    refine ⟨start, announced, heights, content, rfl, rfl, hclimbs, ?_⟩
    rw [← hclimbs.last]
    exact reaches_told.mp hreaches

theorem knownTotal_self (total recorded : Option UInt64) :
    Scheduler.knownTotal total (Scheduler.knownTotal total recorded) =
      Scheduler.knownTotal total recorded := by
  cases total <;> rfl

/-- Reports with rising numbers and one total leave the last number and that total. -/
theorem foldl_onto_reached {low : UInt64} {total recorded : Option UInt64} {heights : List UInt64}
    (hrising : (low :: heights).Pairwise (· ≤ ·)) :
    (heights.map fun bytes => Progress.reached bytes total).foldl Progress.onto
        (low, Scheduler.knownTotal total recorded) =
      ((low :: heights).getLast (List.cons_ne_nil _ _), Scheduler.knownTotal total recorded) := by
  induction heights generalizing low with
  | nil => rfl
  | cons height heights ih =>
    obtain ⟨hlow, hrest⟩ := List.pairwise_cons.mp hrising
    have hnew : ¬ height < low := UInt64.not_lt.mpr (hlow height List.mem_cons_self)
    have hstep : Progress.onto (low, Scheduler.knownTotal total recorded) (.reached height total) =
        (height, Scheduler.knownTotal total recorded) := by
      rw [Progress.onto, if_neg hnew, knownTotal_self]
    rw [List.map_cons, List.foldl_cons, hstep, ih hrest]
    rfl

/-- The reports of a fetch make of any record the last number and the total that was announced. -/
theorem foldl_onto_told {start : UInt64} {total : Option UInt64} {heights : List UInt64}
    (hrising : (start :: heights).Pairwise (· ≤ ·)) (recorded : UInt64 × Option UInt64) :
    (told start total heights).foldl Progress.onto recorded =
      ((start :: heights).getLast (List.cons_ne_nil _ _),
        Scheduler.knownTotal total recorded.2) :=
  foldl_onto_reached hrising

end Fetch

/-- What all the reports of a fetch that succeeded make of the record: the length of the file that it
left, and the total that was announced. -/
theorem Job.Kept.measured {setting : Setting} {s : Scheduler} {id : ItemId} {destination : Path}
    {awaited : List Progress} {job : Job} (h : job.Kept setting s id destination awaited)
    (hover : job.Over) (hclear : setting.Clear destination) :
    ∃ start announced heights content, job.reports = Fetch.told start announced heights ∧
      s.files.content? destination = some content ∧
      (∀ size, announced = some size → size ≤ UInt64.ofNat content.length) ∧
      job.reports.foldl Progress.onto job.recorded =
        (UInt64.ofNat content.length, Scheduler.knownTotal announced job.recorded.2) := by
  have hsheet := h.sheet hclear
  rw [hover.phase, hover.todo, List.filterMap_nil, List.append_nil] at hsheet
  obtain ⟨start, announced, heights, content, hreports, hcontent, hclimbs, hreached⟩ :=
    hsheet.measured h.offset
  refine ⟨start, announced, heights, content, hreports, hcontent, hreached, ?_⟩
  rw [hreports, Fetch.foldl_onto_told hclimbs.rising, hclimbs.last]

namespace Scheduler

variable {s : Scheduler} {id : ItemId} {item later : Item}

/-- If the ending of a fetch finishes an item, its file stays as it is, and a total is written only if
none was known. -/
theorem finished_of_completed (h : s.Coherent) {binding : Binding}
    (hbinding : s.binding? id = some binding) (hget : s.table.get? id = some item)
    (hlater : (s.handleEnding id .completed).scheduler.table.get? id = some later)
    (hfinished : later.status = .finished) :
    (s.handleEnding id .completed).scheduler.files = s.files ∧
      later = turned .finished (totalled item) := by
  have hduty : s.duty? id = some binding.duty := by rw [duty?, hbinding]; rfl
  have hrunning : item.status ≠ .finished := by
    have hopen := h.isComplete_eq_false (by rw [hduty]; simp) (standing?_of_get? hget)
    rintro hstatus
    rw [Item.standing_status, hstatus] at hopen
    cases hopen
  have hfound : (s.unbind id).table.get? id = some item := hget
  have hsettled := (chain_settle hduty .completed trivial :
    Chain (fun _ _ => True) s _).coherent h
  change ((s.unbind id).settle id binding.stop .completed).scheduler.Coherent at hsettled
  rw [handleEnding, hbinding] at hlater ⊢
  dsimp only at hlater ⊢
  by_cases hdelete : binding.stop = some .delete
  · -- a deleted item is not finished
    rw [hdelete] at hlater hsettled
    obtain ⟨after, hafter, hcases⟩ := get?_tick hsettled.sound hfound
    obtain rfl := Option.some.inj (hafter.symm.trans hlater)
    rcases hcases with rfl | ⟨-, rfl⟩
    · exact absurd hfinished hrunning
    · rw [status_turned] at hfinished
      cases hfinished
  · have hsettle : (s.unbind id).settle id binding.stop .completed =
        .done ((s.unbind id).finish id) () := by
      cases hstop : binding.stop with
      | none => rfl
      | some stop =>
        cases stop with
        | delete => exact absurd hstop hdelete
        | _ => rfl
    rw [hsettle] at hlater hsettled ⊢
    have hdone : ((s.unbind id).finish id).table.get? id =
        some (turned .finished (totalled item)) := by
      rw [get?_finish, if_pos rfl, hfound]
      rfl
    obtain ⟨after, hafter, hcases⟩ := get?_tick hsettled.sound hdone
    obtain rfl := Option.some.inj (hafter.symm.trans hlater)
    refine ⟨(files_tick _).trans (files_finish _ id), ?_⟩
    rcases hcases with hsame | ⟨hqueued, -⟩
    · exact hsame
    · rw [status_turned] at hqueued
      cases hqueued

end Scheduler

/-- What a finished download says of its size, by the total that was on record when its last fetch
began and the one that was announced to this fetch. -/
structure Item.Measured (recorded announced : Option UInt64) (content : List UInt8) (item : Item) :
    Prop where
  bytes : item.bytesDownloaded.toNat = content.length
  total : item.bytesTotal = some ((announced.or recorded).getD item.bytesDownloaded)
  reached : ∀ size, announced = some size → size ≤ item.bytesDownloaded
  /-- So it has one size unless a server has spoken of another one. -/
  one : item.bytesTotal = some item.bytesDownloaded ↔
    ∀ size, announced.or recorded = some size → size.toNat = content.length

theorem Item.Measured.of_known {recorded announced : Option UInt64} {content : List UInt8}
    {item : Item} (hbytes : item.bytesDownloaded.toNat = content.length)
    (htotal : item.bytesTotal =
      Scheduler.knownTotal (Scheduler.knownTotal announced recorded) (some item.bytesDownloaded))
    (hannounced : ∀ size, announced = some size → size ≤ item.bytesDownloaded) :
    item.Measured recorded announced content := by
  have hknown : item.bytesTotal = some ((announced.or recorded).getD item.bytesDownloaded) := by
    rw [htotal]
    cases announced <;> cases recorded <;> rfl
  refine ⟨hbytes, hknown, hannounced, ?_⟩
  rw [hknown, ← hbytes]
  cases announced.or recorded with
  | none => simp
  | some size => simp [UInt64.toNat_inj]

namespace Shift

variable {setting : Setting} {shift : Shift} {seq : Nat} {id : ItemId}
variable {rest : List (Nat × Message)}

theorem Minded.awaited_eq_nil (h : shift.Minded setting) {ending : Ending}
    (hchannel : shift.world.channel = (seq, ⟨id, .ended ending⟩) :: rest) :
    Shift.awaited id shift.world.channel = [] := by
  rw [hchannel]
  change Shift.awaited id rest = []
  exact awaited_of_ne fun entry hmem => h.attributed.ne_behind_ending hchannel hmem

/-- When a fetch that succeeded is about to be heard of, its item has heard all the reports. -/
theorem Minded.informed (h : shift.Minded setting)
    (hchannel : shift.world.channel = (seq, ⟨id, .ended .completed⟩) :: rest) :
    ∃ binding item job, shift.scheduler.binding? id = some binding ∧
      shift.scheduler.table.get? id = some item ∧ shift.job seq = some job ∧ job.Over ∧
      job.Kept setting shift.scheduler id item.destination [] ∧
      (item.bytesDownloaded, item.bytesTotal) =
        job.reports.foldl Progress.onto job.recorded := by
  have hentry : (seq, ⟨id, .ended .completed⟩) ∈ shift.world.channel := by
    rw [hchannel]
    exact List.mem_cons_self
  obtain ⟨duty, hduty⟩ := Option.ne_none_iff_exists'.mp (h.attributed.bound_of_ending hentry rfl)
  obtain ⟨binding, hbinding, -⟩ := Option.map_eq_some_iff.mp hduty
  obtain ⟨standing, job, hstanding, hjob, hover, hkept⟩ := h.endings _ hentry rfl
  obtain ⟨item, hget, rfl⟩ := Scheduler.get?_of_standing? hstanding
  rw [h.awaited_eq_nil hchannel] at hkept
  obtain ⟨known, hknown, hfold⟩ := hkept.progress
  rw [Scheduler.progress?, hget] at hknown
  exact ⟨binding, item, job, hbinding, hget, hjob, hover, hkept,
    (Option.some.inj hknown).trans hfold⟩

/-- **The size of a finished download.** In a session with servers that answer whatever they like,
the number of bytes of an item that is finished is the length of its file. Its total is what was
announced for its last fetch, or else what was on record before. -/
theorem measured_of_moves {config : Config} {table : Table} (hsound : table.Sound)
    (hapart : table.Apart) (hresolved : ∀ item ∈ table.items, item.destination.Resolved)
    {files : FileSystem} (hfiles : files.Sound) (hcwd : files.cwd = setting.cwd)
    (hqueueFile : config.queue.queueFile = setting.queueFile) (now : Timestamp) (share : Float)
    (moves : List Move)
    (hshift : shift = moves.foldl Shift.move (Shift.start config table files now share))
    (hchannel : shift.world.channel = (seq, ⟨id, .ended .completed⟩) :: rest) {item : Item}
    (hget : (shift.move .hear).scheduler.table.get? id = some item)
    (hfinished : item.status = .finished) (hclear : setting.Clear item.destination) :
    ∃ job start announced heights content, shift.job seq = some job ∧
      job.reports = Fetch.told start announced heights ∧
      (shift.move .hear).scheduler.files.content? item.destination = some content ∧
      (content.length < UInt64.size → item.Measured job.recorded.2 announced content) := by
  have h : shift.Minded setting :=
    hshift ▸ minded_of_moves hsound hapart hresolved hfiles hcwd hqueueFile now share moves
  obtain ⟨binding, old, job, hbinding, hold, hjob, hover, hkept, hknown⟩ := h.informed hchannel
  have hheard : (shift.move .hear).scheduler =
      ((shift.world.taken rest).handleEnding id .completed).scheduler := by
    rw [Shift.move, hchannel]
    rfl
  have hcoherent : (shift.world.taken rest).Coherent :=
    ⟨h.lodged.coherent.sound, h.lodged.coherent.nodup, h.lodged.coherent.fits⟩
  rw [hheard] at hget ⊢
  obtain ⟨hfilesSame, rfl⟩ := Scheduler.finished_of_completed hcoherent hbinding hold hget hfinished
  have hdestination : (Scheduler.turned .finished (Scheduler.totalled old)).destination =
      old.destination := by
    unfold Scheduler.turned
    split <;> rfl
  rw [hdestination] at hclear ⊢
  obtain ⟨start, announced, heights, content, hreports, hcontent, hreached, hfold⟩ :=
    hkept.measured hover hclear
  refine ⟨job, start, announced, heights, content, hjob, hreports, ?_, fun hfits => ?_⟩
  · rw [hfilesSame]
    exact hcontent
  · obtain ⟨hbytes, htotal⟩ := Scheduler.bytes_turned .finished (Scheduler.totalled old)
    obtain ⟨hlast, hlatest⟩ := Prod.mk.inj (hknown.trans hfold)
    have hlength : (Scheduler.turned .finished (Scheduler.totalled old)).bytesDownloaded =
        UInt64.ofNat content.length := hbytes.trans hlast
    refine .of_known ?_ ?_ ?_
    · rw [hlength, UInt64.toNat_ofNat_of_lt' hfits]
    · rw [htotal, hbytes, ← hlatest]
      rfl
    · rwa [hlength]

/-- The server announces four bytes and the item is paused before any of them came in. Then it is
resumed, and the server sends two bytes without announcing a size. -/
def shrinking : List Move :=
  [.operate (.enqueue "http://h/a" ⟨"/d/a"⟩), .begin 1, .work 1,
    .learn 1 (.head ⟨200, none, some 4⟩) 60, .work 1, .work 1, .hear,
    .operate (.dispatch (.pause ⟨1⟩) []), .learn 1 .cancel 60, .conclude 1, .hear,
    .operate (.dispatch (.resume ⟨1⟩) []), .begin 2, .work 2,
    .learn 2 (.head ⟨200, none, none⟩) 60, .work 2, .work 2, .learn 2 (.chunk [8, 9]) 60, .work 2,
    .work 2, .learn 2 .bodyEnd 60, .conclude 2, .hear, .hear]

def shrunk : Shift :=
  shrinking.foldl Shift.move (Shift.start Site.sampleConfig .empty .empty .epoch 0)

theorem shrunk_eq :
    shrunk.world.channel = [(2, ⟨⟨1⟩, .ended .completed⟩)] ∧
      (shrunk.job 2).map (fun job => (job.recorded.2, job.reports)) =
        some (some 4, Fetch.told 0 none [2]) ∧
      (shrunk.move .hear).scheduler.files.content? ⟨"/d/a"⟩ = some [8, 9] ∧
      ((shrunk.move .hear).scheduler.table.get? ⟨1⟩).map (fun item =>
        (item.status, item.destination, item.bytesDownloaded, item.bytesTotal)) =
        some (.finished, ⟨"/d/a"⟩, 2, some 4) := by
  refine ⟨by decide +kernel, by decide +kernel, by decide +kernel, by decide +kernel⟩

/-- The finished item has two bytes, as many as its file, and the total of four that the server
announced the first time. -/
theorem measured_of_moves_shrinking :
    ∃ job announced item, shrunk.job 2 = some job ∧ job.recorded.2 = some 4 ∧
      (shrunk.move .hear).scheduler.table.get? ⟨1⟩ = some item ∧ item.status = .finished ∧
      (shrunk.move .hear).scheduler.files.content? item.destination = some [8, 9] ∧
      item.bytesTotal = some 4 ∧ item.Measured job.recorded.2 announced [8, 9] := by
  obtain ⟨hchannel, hfetch, hfile, hrecord⟩ := shrunk_eq
  obtain ⟨item, hget, hitem⟩ := Option.map_eq_some_iff.mp hrecord
  obtain ⟨hfinished, hdestination, -, htotal⟩ : item.status = .finished ∧
    item.destination = ⟨"/d/a"⟩ ∧ item.bytesDownloaded = 2 ∧ item.bytesTotal = some 4 := by
    simpa using hitem
  have hclear : Site.sampleSetting.Clear item.destination := by
    rw [hdestination]
    unfold Setting.Clear QueueFile.Reserved
    decide +kernel
  have hempty : FileSystem.empty.Sound := .flat (by simp)
  have hshift : shrunk =
      shrinking.foldl Shift.move (Shift.start Site.sampleConfig .empty .empty .epoch 0) := rfl
  obtain ⟨job, start, announced, heights, content, hjob, -, hcontent, hmeasured⟩ :=
    measured_of_moves .empty List.Pairwise.nil (by simp [Table.empty]) hempty rfl rfl .epoch 0
      shrinking hshift hchannel hget hfinished hclear
  obtain ⟨other, hother, hpair⟩ := Option.map_eq_some_iff.mp hfetch
  obtain rfl := Option.some.inj (hother.symm.trans hjob)
  rw [hdestination, hfile] at hcontent
  cases hcontent
  refine ⟨other, announced, item, hjob, congrArg Prod.fst hpair, hget, hfinished, ?_, htotal,
    hmeasured (by decide)⟩
  rw [hdestination]
  exact hfile

/-- A finished download can have two sizes. -/
theorem not_always_one_size :
    ¬ ∀ (setting : Setting) (config : Config) (table : Table) (files : FileSystem)
      (now : Timestamp) (share : Float) (moves : List Move) (shift : Shift) (seq : Nat)
      (id : ItemId) (rest : List (Nat × Message)) (item : Item),
      table.Sound → table.Apart → (∀ item ∈ table.items, item.destination.Resolved) →
      files.Sound → files.cwd = setting.cwd → config.queue.queueFile = setting.queueFile →
      shift = moves.foldl Shift.move (Shift.start config table files now share) →
      shift.world.channel = (seq, ⟨id, .ended .completed⟩) :: rest →
      (shift.move .hear).scheduler.table.get? id = some item → item.status = .finished →
      setting.Clear item.destination →
      item.bytesTotal = some item.bytesDownloaded ∧
        (shift.move .hear).scheduler.files.fileLength? item.destination =
          some item.bytesDownloaded.toNat := by
  intro hall
  obtain ⟨hchannel, -, -, hrecord⟩ := shrunk_eq
  obtain ⟨item, hget, hitem⟩ := Option.map_eq_some_iff.mp hrecord
  obtain ⟨hfinished, hdestination, hbytes, htotal⟩ : item.status = .finished ∧
    item.destination = ⟨"/d/a"⟩ ∧ item.bytesDownloaded = 2 ∧ item.bytesTotal = some 4 := by
    simpa using hitem
  have hclear : Site.sampleSetting.Clear item.destination := by
    rw [hdestination]
    unfold Setting.Clear QueueFile.Reserved
    decide +kernel
  have hone := (hall Site.sampleSetting Site.sampleConfig .empty .empty .epoch 0 shrinking shrunk 2
    ⟨1⟩ [] item .empty List.Pairwise.nil (by simp [Table.empty]) (.flat (by simp)) rfl rfl rfl
    hchannel hget hfinished hclear).1
  rw [htotal, hbytes] at hone
  cases hone

end Shift

end DownloadQueue
