import DownloadQueue.Proofs.Attribution
import DownloadQueue.Proofs.Destinations
import DownloadQueue.Proofs.Fetch

/-!
# The files of the items

Whatever the scheduler does, it leaves the file of an item alone or removes it, and it removes no
file of an item that is complete or has a worker. So a file that was a beginning of its enclosure
stays one, and the file of a finished item stays whole.
-/

namespace DownloadQueue

/-- What stays the same from one run of the queue to the next. -/
structure Setting where
  origin : String → List UInt8
  /-- Their number can be announced. -/
  fits : ∀ url, (origin url).length < UInt64.size
  cwd : Place
  queueFile : Path

def Setting.Clear (setting : Setting) (destination : Path) : Prop :=
  ¬ QueueFile.Reserved setting.cwd setting.queueFile (Path.fold setting.cwd destination.components)

namespace Scheduler

variable {heard : ItemId → Ending → Prop} {s t : Scheduler} {id other : ItemId} {a b : Path}
variable {setting : Setting} {exempt : ItemId → Prop}

structure Lodged (setting : Setting) (s : Scheduler) : Prop where
  coherent : s.Coherent
  exclusive : s.Exclusive
  sound : s.files.Sound
  cwd : s.files.cwd = setting.cwd
  queueFile : s.config.queue.queueFile = setting.queueFile
  resolved : ∀ id standing, s.standing? id = some standing → standing.destination.Resolved

/-- The files may change as long as they stay a tree; nothing else outside matters. -/
theorem Lodged.outside (h : s.Lodged setting) {files : FileSystem} (hfiles : files.Sound)
    (hcwd : files.cwd = setting.cwd) (inbox : List Message) (clock : Nat) (now : Timestamp)
    (share : Float) : ({ s with files, inbox, clock, now, share } : Scheduler).Lodged setting := by
  have hcoherent : ({ s with files, inbox, clock, now, share } : Scheduler).Coherent :=
    ⟨h.coherent.sound, h.coherent.nodup, h.coherent.fits⟩
  exact ⟨hcoherent, h.exclusive, hfiles, hcwd, h.queueFile, h.resolved⟩

theorem Lodged.resolved_of_holds (h : s.Lodged setting) (hholds : s.Holds id a) : a.Resolved := by
  obtain ⟨standing, hstanding, rfl, -⟩ := hholds
  exact h.resolved id standing hstanding

/-- Items that hold their destinations have their files at different places. -/
theorem Lodged.placeOf_ne (h : s.Lodged setting) (ha : s.Holds id a) (hb : s.Holds other b)
    (hne : id ≠ other) : s.files.placeOf a ≠ s.files.placeOf b := by
  intro heq
  have hsame := h.exclusive id other a b ha hb hne
  rw [(h.resolved_of_holds ha).eq_of_fold (h.resolved_of_holds hb) heq] at hsame
  simp [Path.same] at hsame

theorem Lodged.content?_of_edits (h : s.Lodged setting) {files : FileSystem} {touched : Place → Prop}
    (hedits : FileSystem.Edits s.files files touched) (ha : s.Holds id a)
    (hplace : ¬ touched (s.files.placeOf a)) : files.content? a = s.files.content? a :=
  hedits.content? h.sound (h.resolved_of_holds ha) hplace

theorem Lodged.not_reserved (h : s.Lodged setting) (hclear : setting.Clear a) :
    ¬ QueueFile.Reserved s.files.cwd s.config.queue.queueFile (s.files.placeOf a) := by
  unfold FileSystem.placeOf
  rw [h.cwd, h.queueFile]
  exact hclear

theorem files_setStatus (s : Scheduler) (id : ItemId) (status : Status) :
    (s.setStatus id status).files = s.files := by
  rw [setStatus_eq]

theorem config_setStatus (s : Scheduler) (id : ItemId) (status : Status) :
    (s.setStatus id status).config = s.config := by
  rw [setStatus_eq]

theorem files_startTransfer (s : Scheduler) (id : ItemId) : (s.startTransfer id).files = s.files := by
  unfold startTransfer
  split
  · rfl
  · exact files_setStatus _ _ _

theorem files_fillSlots (ids : List ItemId) (s : Scheduler) : (s.fillSlots ids).files = s.files := by
  induction ids generalizing s with
  | nil => rfl
  | cons id ids ih =>
    rw [fillSlots]
    split
    · rfl
    · rw [ih, files_startTransfer]

theorem files_tick (s : Scheduler) : s.tick.files = s.files := by
  rw [tick]
  split
  · rfl
  · exact files_fillSlots _ s

theorem files_discardPartial {item : Item} (hget : s.table.get? id = some item) :
    (s.discardPartial id).files = (s.files.removePartial item.destination).toOption.getD s.files :=
  (discardPartial_alike hget).files

theorem config_discardPartial (s : Scheduler) (id : ItemId) :
    (s.discardPartial id).config = s.config := by
  cases hget : s.table.get? id with
  | none => rw [discardPartial, hget]
  | some item => exact (discardPartial_alike hget).config

theorem Change.config (hchange : Change heard s t) : t.config = s.config := by
  cases hchange with
  | note halike => exact halike.config
  | engage hget hqueued hfree hroom hopen => rw [startTransfer_eq hget, config_setStatus]
  | stop hduty hstanding hlive hsuits => exact config_setStatus _ _ _
  | shift hstanding hlive hstatus hfree hcomplete => exact config_setStatus _ _ _
  | discard hget hfree hlive hpartial => exact config_discardPartial _ _
  | finish hduty hheard halike hstatus => exact (config_setStatus _ _ _).trans halike.config
  | clear hduty hheard hstop hdiscards => exact config_discardPartial _ _
  | _ => rfl

theorem Coherent.isComplete_eq_false (h : s.Coherent) (hbound : s.duty? id ≠ none)
    {standing : Standing} (hstanding : s.standing? id = some standing) :
    standing.status.isComplete = false := by
  rw [← Bool.not_eq_true]
  exact fun hcomplete => hbound (h.duty?_eq_none hstanding (.inr hcomplete))

/-- A change leaves the files alone, writes the queue file or removes the file of an item that is
not complete. -/
theorem Change.files (hchange : Change heard s t) (h : s.Coherent) :
    t.files = s.files ∨ t.files = s.persist.1.files ∨
      ∃ id standing, s.standing? id = some standing ∧ s.Holds id standing.destination ∧
        t.files = (s.files.removePartial standing.destination).toOption.getD s.files ∧
        standing.status.isComplete = false ∧ t.standing? id = s.standing? id ∧
        (s.duty? id = none ∨ ∃ ending, heard id ending) := by
  cases hchange with
  | note halike => exact .inl halike.files
  | save => exact .inr (.inl rfl)
  | engage hget hqueued hfree hroom hopen => exact .inl (files_startTransfer _ _)
  | stop hduty hstanding hlive hsuits => exact .inl (files_setStatus _ _ _)
  | shift hstanding hlive hstatus hfree hcomplete => exact .inl (files_setStatus _ _ _)
  | @discard id item hget hfree hlive hpartial =>
    have hstanding := standing?_of_get? hget
    refine .inr (.inr ⟨id, item.standing, hstanding, ⟨_, hstanding, rfl, .inl hlive⟩, ?_, hpartial, ?_,
      .inl hfree⟩)
    · exact files_discardPartial hget
    · exact standing?_discardPartial s id id
  | finish hduty hheard halike hstatus =>
    exact .inl ((files_setStatus _ _ _).trans halike.files)
  | @clear id duty hduty ending hheard reason hstop hdiscards =>
    obtain ⟨standing, hstanding, -⟩ := h.fits id duty hduty
    have hbound : s.duty? id ≠ none := by simp [hduty]
    have hpartial := h.isComplete_eq_false hbound hstanding
    obtain ⟨item, hget, rfl⟩ := get?_of_standing? hstanding
    refine .inr (.inr ⟨id, item.standing, hstanding, ⟨_, hstanding, rfl, .inr hbound⟩, ?_, hpartial, ?_,
      .inr ⟨ending, hheard⟩⟩)
    · exact files_discardPartial (s := s.unbind id) hget
    · exact standing?_discardPartial (s.unbind id) id id
  | _ => exact .inl rfl

theorem edits_persist (h : s.files.Sound) :
    FileSystem.Edits s.files s.persist.1.files
      (QueueFile.Reserved s.files.cwd s.config.queue.queueFile) :=
  (QueueFile.edits_save h s.config.queue.queueFile s.table.items).1

theorem Change.edits (hchange : Change heard s t) (hcoherent : s.Coherent) (h : s.files.Sound) :
    t.files.Sound ∧ t.files.cwd = s.files.cwd := by
  rcases hchange.files hcoherent with hfiles | hfiles | ⟨id, standing, -, -, hfiles, -⟩
  · rw [hfiles]
    exact ⟨h, rfl⟩
  · rw [hfiles]
    exact ⟨(edits_persist h).sound, (edits_persist h).cwd⟩
  · rw [hfiles]
    have hedits := (FileSystem.edits_removePartial h standing.destination).1
    exact ⟨hedits.sound, hedits.cwd⟩

/-- The file of an item that holds its destination is left alone, or removed if it is not complete. -/
theorem Change.content? (hchange : Change heard s t) (h : s.Lodged setting) (hholds : s.Holds id a)
    (hclear : setting.Clear a) :
    t.files.content? a = s.files.content? a ∨
      t.files.content? a = none ∧ t.standing? id = s.standing? id ∧
        (∀ standing, s.standing? id = some standing → standing.status.isComplete = false) ∧
        (s.duty? id = none ∨ ∃ ending, heard id ending) := by
  rcases hchange.files h.coherent with
    hfiles | hfiles | ⟨other, standing, hstanding, hother, hfiles, hpartial, hsame, hfree⟩
  · exact .inl (by rw [hfiles])
  · rw [hfiles]
    exact .inl (h.content?_of_edits (edits_persist h.sound) hholds (h.not_reserved hclear))
  · rw [hfiles]
    by_cases heq : id = other
    · subst heq
      obtain ⟨found, hfound, rfl, -⟩ := hholds
      rw [hstanding] at hfound
      cases hfound
      rcases FileSystem.content?_removePartial h.sound (h.resolved id standing hstanding) with
        hnone | hkept
      · refine .inr ⟨hnone, hsame, fun found hfound => ?_, hfree⟩
        rw [hstanding] at hfound
        cases hfound
        exact hpartial
      · exact .inl hkept
    · left
      have hedits := (FileSystem.edits_removePartial h.sound standing.destination).1
      exact h.content?_of_edits hedits hholds (h.placeOf_ne hholds hother heq)

def Open (s : Scheduler) (id : ItemId) (status : Status) : Prop :=
  s.duty? id ≠ none ∨ status.isComplete = false ∧ status ≠ .deleted

def Evolves (heard : ItemId → Ending → Prop) (s t : Scheduler) (id : ItemId) (old new : Status) :
    Prop :=
  new = old ∧ (t.duty? id ≠ none → s.duty? id ≠ none) ∨
    new.isComplete = false ∧ (t.Open id new → s.Open id old) ∨
    new = .finished ∧ heard id .completed ∧ s.duty? id ≠ none

def Traces (heard : ItemId → Ending → Prop) (s t : Scheduler) (id : ItemId) : Prop :=
  ∀ standing, t.standing? id = some standing →
    ∃ old, s.standing? id = some (standing.withStatus old) ∧ Evolves heard s t id old standing.status

theorem Traces.of_eq (hstanding : t.standing? id = s.standing? id)
    (hduty : t.duty? id ≠ none → s.duty? id ≠ none) : Traces heard s t id := by
  intro standing hfound
  rw [hstanding] at hfound
  exact ⟨standing.status, hfound, .inl ⟨rfl, hduty⟩⟩

theorem Traces.of_map (status : Status)
    (hstanding : t.standing? id = (s.standing? id).map (Standing.withStatus status))
    (hevolves : ∀ standing, s.standing? id = some standing →
      Evolves heard s t id standing.status status) : Traces heard s t id := by
  intro standing hfound
  rw [hstanding] at hfound
  obtain ⟨before, hbefore, rfl⟩ := Option.map_eq_some_iff.mp hfound
  exact ⟨before.status, hbefore, hevolves before hbefore⟩

structure Arrives (s t : Scheduler) (item : Item) : Prop where
  new : item.id = ⟨s.table.nextId⟩
  standing? : t.standing? item.id = some item.standing
  resolved : ∃ destination, resolveDestination s.files.cwd s.config.queue.downloadDir destination =
    .ok item.destination
  status : s.files.fileLength? item.destination = none ∨ item.status.isComplete = true
  files : t.files = s.files

/-- Every change traces every item, but for one that it adds. -/
theorem Change.traces (hchange : Change heard s t) (h : s.Coherent) (id : ItemId) :
    Traces heard s t id ∨ ∃ item, item.id = id ∧ Arrives s t item := by
  cases hchange with
  | note halike =>
    refine .inl (.of_eq (halike.standing? id) fun hbound => ?_)
    rwa [halike.duty?] at hbound
  | save => exact .inl (.of_eq rfl fun hbound => hbound)
  | close => exact .inl (.of_eq rfl fun hbound => hbound)
  | relimit => exact .inl (.of_eq rfl fun hbound => hbound)
  | @engage other item hget hqueued hfree hroom hopen =>
    left
    by_cases heq : id = other
    · subst heq
      refine .of_map .downloading ?_ fun standing hstanding => ?_
      · rw [standing?_startTransfer hget, if_pos rfl, standing?_of_get? hget, Option.map_some]
      · rw [standing?_of_get? hget] at hstanding
        cases hstanding
        exact .inr (.inl ⟨rfl, fun _ => .inr (by simp [hqueued, Status.isComplete])⟩)
    · refine .of_eq ?_ fun hbound => ?_
      · rw [standing?_startTransfer hget, if_neg heq]
      · rwa [duty?_startTransfer hget hfree, if_neg heq] at hbound
  | @stop other duty standing hduty hstanding hlive reason status hsuits =>
    left
    by_cases heq : id = other
    · subst heq
      refine .of_map status ?_ fun found hfound => .inr (.inl ⟨?_, fun _ => ?_⟩)
      · rw [standing?_setStatus, if_pos rfl]
        rfl
      -- none of the statuses that go with a stop is a complete one
      · rcases hsuits.1 with rfl | rfl | rfl <;> rfl
      · exact .inl (by simp [hduty])
    · refine .of_eq (standing?_stop_of_ne s reason status heq) fun hbound => ?_
      rw [duty?_setStatus] at hbound
      exact duty?_stopTransfer_eq_none hbound
  | restop hduty hstop hreason => exact .inl (.of_eq rfl duty?_stopTransfer_eq_none)
  | @shift other standing hstanding hlive status hstatus hfree hcomplete =>
    left
    by_cases heq : id = other
    · subst heq
      refine .of_map status ?_ fun found hfound => .inr (.inl ⟨?_, ?_⟩)
      · rw [standing?_setStatus, if_pos rfl]
      · rcases hstatus with rfl | rfl | rfl <;> rfl
      · rw [hstanding] at hfound
        cases hfound
        unfold Open
        rw [duty?_setStatus]
        -- an item that is open without a worker after the change was so before
        refine Or.imp_right fun hpartial => ?_
        exact ⟨hcomplete.resolve_left hpartial.2, hlive⟩
    · refine .of_eq (standing?_setStatus_of_ne s status heq) fun hbound => ?_
      rwa [duty?_setStatus] at hbound
  | discard hget hfree hlive hpartial =>
    refine .inl (.of_eq (standing?_discardPartial _ _ _) fun hbound => ?_)
    rwa [duty?_discardPartial] at hbound
  | @finish u other duty hduty ending hheard halike status hstatus =>
    left
    have hbound : s.duty? other ≠ none := by simp [hduty]
    by_cases heq : id = other
    · subst heq
      refine .of_map status ?_ fun found hfound => ?_
      · rw [standing?_setStatus, if_pos rfl, halike.standing?]
        rfl
      · rcases hstatus with ⟨rfl, rfl, -⟩ | ⟨-, rfl | rfl⟩
        · exact .inr (.inr ⟨rfl, hheard, hbound⟩)
        · exact .inr (.inl ⟨rfl, fun _ => .inl hbound⟩)
        · exact .inr (.inl ⟨rfl, fun _ => .inl hbound⟩)
    · refine .of_eq ?_ fun hbound => ?_
      · rw [standing?_setStatus_of_ne _ _ heq, halike.standing?]
        rfl
      · rwa [duty?_setStatus, halike.duty?, duty?_unbind, if_neg heq] at hbound
  | leave hduty hheard hstop => exact .inl (.of_eq rfl duty?_ne_none_of_unbind)
  | clear hduty hheard hstop hdiscards =>
    refine .inl (.of_eq (standing?_discardPartial _ _ _) fun hbound => ?_)
    rw [duty?_discardPartial] at hbound
    exact duty?_ne_none_of_unbind hbound
  | @add item next hnext hid hresolved htaken hstatus =>
    have hnew : s.standing? item.id = none := hid ▸ standing?_nextId h.sound
    by_cases heq : id = item.id
    · refine .inr ⟨item, heq.symm, hid, ?_, hresolved, hstatus.imp_left And.right, rfl⟩
      rw [standing?_append hnew, if_pos rfl]
    · refine .inl (.of_eq ?_ fun hbound => hbound)
      rw [standing?_append hnew, if_neg heq]
  | @drop keep hkeep =>
    left
    intro standing hfound
    rw [h.standing?_filter] at hfound
    obtain ⟨item, hitem, rfl⟩ := Option.map_eq_some_iff.mp hfound
    have hget := (Option.filter_eq_some_iff.mp hitem).1
    exact ⟨item.status, standing?_of_get? hget, .inl ⟨rfl, fun hbound => hbound⟩⟩

/-! ## Beginnings and whole files -/

/-- The files of the items are beginnings of their enclosures, and those of complete items are
whole. Exempt are items that were complete when they came in. -/
structure Intact (setting : Setting) (exempt : ItemId → Prop) (s : Scheduler) : Prop where
  lodged : s.Lodged setting
  future : ∀ id : ItemId, s.table.nextId.toNat ≤ id.value.toNat → exempt id
  part : ∀ id standing, s.standing? id = some standing → setting.Clear standing.destination →
    s.Open id standing.status →
      IsPart (setting.origin standing.sourceUrl) (s.files.content? standing.destination)
  whole : ∀ id standing, s.standing? id = some standing → setting.Clear standing.destination →
    standing.status.isComplete = true → ¬ exempt id →
      s.files.content? standing.destination = some (setting.origin standing.sourceUrl)

def Whole (setting : Setting) (s : Scheduler) (id : ItemId) : Prop :=
  ∃ standing, s.standing? id = some standing ∧ (setting.Clear standing.destination →
    s.files.content? standing.destination = some (setting.origin standing.sourceUrl))

/-- The next number never falls. -/
theorem Change.nextId_le (hchange : Change heard s t) :
    s.table.nextId.toNat ≤ t.table.nextId.toNat := by
  have hle (heq : t.table.nextId = s.table.nextId) : s.table.nextId.toNat ≤ t.table.nextId.toNat :=
    Nat.le_of_eq (congrArg UInt64.toNat heq.symm)
  cases hchange with
  | note halike => exact hle halike.nextId
  | engage hget hqueued hfree hroom hopen =>
    apply hle
    rw [startTransfer_eq hget, nextId_setStatus]
  | stop hduty hstanding hlive hsuits => exact hle (nextId_setStatus _ _ _)
  | shift hstanding hlive hstatus hfree hcomplete => exact hle (nextId_setStatus _ _ _)
  | discard hget hfree hlive hpartial => exact hle (nextId_discardPartial _ _)
  | finish hduty hheard halike hstatus =>
    exact hle ((nextId_setStatus _ _ _).trans halike.nextId)
  | clear hduty hheard hstop hdiscards => exact hle (nextId_discardPartial _ _)
  | add hnext hid hresolved htaken hstatus =>
    have hsum := (Counter.next64_eq_ok hnext).2
    dsimp only
    omega
  | _ => exact Nat.le_refl _

theorem Lodged.change (h : s.Lodged setting) (hchange : Change heard s t) : t.Lodged setting := by
  obtain ⟨hsound, hcwd⟩ := hchange.edits h.coherent h.sound
  refine ⟨hchange.coherent h.coherent, hchange.exclusive h.coherent h.exclusive, hsound,
    hcwd.trans h.cwd, hchange.config ▸ h.queueFile, fun id standing hstanding => ?_⟩
  rcases hchange.traces h.coherent id with htraces | ⟨item, rfl, harrives⟩
  · obtain ⟨old, hold, -⟩ := htraces standing hstanding
    exact h.resolved id (standing.withStatus old) hold
  · rw [harrives.standing?] at hstanding
    cases hstanding
    obtain ⟨given, hgiven⟩ := harrives.resolved
    exact Path.resolved_of_resolveDestination h.sound.named hgiven

theorem Evolves.open_of_open {old new : Status} (h : Evolves heard s t id old new)
    (hopen : t.Open id new) : s.Open id old := by
  rcases h with ⟨rfl, hbound⟩ | ⟨-, himplies⟩ | ⟨-, -, hbound⟩
  · exact hopen.imp_left hbound
  · exact himplies hopen
  · exact .inl hbound

theorem Open.holds {standing : Standing} (hstanding : s.standing? id = some standing)
    (h : s.Open id standing.status) : s.Holds id standing.destination :=
  ⟨standing, hstanding, rfl, h.elim .inr fun hpartial => .inl hpartial.2⟩

theorem holds_of_isComplete {standing : Standing} (hstanding : s.standing? id = some standing)
    (hcomplete : standing.status.isComplete = true) : s.Holds id standing.destination := by
  refine ⟨standing, hstanding, rfl, .inl fun hdeleted => ?_⟩
  rw [hdeleted] at hcomplete
  cases hcomplete

theorem content?_eq_none_of_fileLength? {files : FileSystem} {path : Path}
    (h : files.fileLength? path = none) : files.content? path = none := by
  unfold FileSystem.fileLength? at h
  unfold FileSystem.content?
  cases hread : files.read path with
  | error error => rfl
  | ok content =>
    rw [hread] at h
    cases h

/-- The file of an unfinished item stays a beginning: a change removes it or leaves it alone. -/
theorem Intact.part_change (h : s.Intact setting exempt) (hchange : Change heard s t)
    {standing : Standing} (hstanding : t.standing? id = some standing)
    (hclear : setting.Clear standing.destination) (hopen : t.Open id standing.status) :
    IsPart (setting.origin standing.sourceUrl) (t.files.content? standing.destination) := by
  have hcoherent := hchange.coherent h.lodged.coherent
  rcases hchange.traces h.lodged.coherent id with htraces | ⟨item, rfl, harrives⟩
  · obtain ⟨old, hold, hevolves⟩ := htraces standing hstanding
    have hopenBefore : s.Open id old := hevolves.open_of_open hopen
    have hpart := h.part id _ hold hclear hopenBefore
    have hholds := Open.holds hold hopenBefore
    rcases hchange.content? h.lodged hholds hclear with hsame | ⟨hnone, -⟩
    · rw [show standing.destination = (standing.withStatus old).destination from rfl, hsame]
      exact hpart
    · rw [show standing.destination = (standing.withStatus old).destination from rfl, hnone]
      exact isPart_none _
  · rw [harrives.standing?] at hstanding
    cases hstanding
    rw [harrives.files]
    rcases harrives.status with hmissing | hcomplete
    · have hnone := content?_eq_none_of_fileLength? hmissing
      change IsPart _ (s.files.content? item.destination)
      rw [hnone]
      exact isPart_none _
    · have hpartial : item.status.isComplete = false :=
        hopen.elim (fun hbound => hcoherent.isComplete_eq_false hbound harrives.standing?) And.left
      rw [hcomplete] at hpartial
      cases hpartial

/-- The file of a complete item stays whole, and one that was just completed is. -/
theorem Intact.whole_change (h : s.Intact setting exempt) (hchange : Change heard s t)
    (hheard : ∀ id, heard id .completed → s.Whole setting id)
    {standing : Standing} (hstanding : t.standing? id = some standing)
    (hclear : setting.Clear standing.destination) (hcomplete : standing.status.isComplete = true)
    (hexempt : ¬ exempt id) :
    t.files.content? standing.destination = some (setting.origin standing.sourceUrl) := by
  rcases hchange.traces h.lodged.coherent id with htraces | ⟨item, rfl, harrives⟩
  · obtain ⟨old, hold, hevolves⟩ := htraces standing hstanding
    -- The file was whole before, and no change removes the file of a complete item.
    have hstays (hwhole : s.files.content? standing.destination =
        some (setting.origin standing.sourceUrl)) (hholds : s.Holds id standing.destination) :
        t.files.content? standing.destination = some (setting.origin standing.sourceUrl) := by
      rcases hchange.content? h.lodged hholds hclear with hsame | ⟨-, hsame, hpartial, -⟩
      · rw [hsame, hwhole]
      · rw [hsame] at hstanding
        rw [hpartial standing hstanding] at hcomplete
        cases hcomplete
    rcases hevolves with ⟨hstatus, -⟩ | ⟨hpartial, -⟩ | ⟨-, hended, hbound⟩
    · have hcompleteBefore : (standing.withStatus old).status.isComplete = true := hstatus ▸ hcomplete
      have hwhole := h.whole id (standing.withStatus old) hold hclear hcompleteBefore hexempt
      have hholds := holds_of_isComplete hold hcompleteBefore
      exact hstays hwhole hholds
    · rw [hpartial] at hcomplete
      cases hcomplete
    · obtain ⟨found, hfound, hwhole⟩ := hheard id hended
      rw [hold] at hfound
      cases hfound
      exact hstays (hwhole hclear) ⟨_, hold, rfl, .inr hbound⟩
  · have hnew : s.table.nextId.toNat = item.id.value.toNat := by rw [harrives.new]
    exact absurd (h.future item.id (Nat.le_of_eq hnew)) hexempt

/-- One change keeps the files, if items whose fetch was completed have theirs as a whole. -/
theorem Intact.change (h : s.Intact setting exempt) (hchange : Change heard s t)
    (hheard : ∀ id, heard id .completed → s.Whole setting id) :
    t.Intact setting exempt where
  lodged := h.lodged.change hchange
  future id hle := h.future id (Nat.le_trans hchange.nextId_le hle)
  part _ _ := h.part_change hchange
  whole _ _ := h.whole_change hchange hheard

theorem Intact.chain (h : s.Intact setting exempt) (hnever : ∀ id, ¬ heard id .completed)
    (hchain : Chain heard s t) : t.Intact setting exempt := by
  induction hchain with
  | refl => exact h
  | tail _ hchange ih =>
    exact ih.change hchange fun id hheard => absurd hheard (hnever id)

/-! ## Items with a worker -/

theorem duty?_stopTransfer_ne_none {reason : StopReason} (h : s.duty? other ≠ none) :
    (s.stopTransfer id reason).duty? other ≠ none := by
  rw [duty?_stopTransfer]
  split
  · next heq =>
    subst heq
    simpa using h
  · exact h

structure Undisturbed (setting : Setting) (s t : Scheduler) (id : ItemId) : Prop where
  bound : t.duty? id ≠ none
  standing? : ∀ standing, s.standing? id = some standing →
    ∃ status, t.standing? id = some (standing.withStatus status)
  content? : ∀ standing, s.standing? id = some standing → setting.Clear standing.destination →
    t.files.content? standing.destination = s.files.content? standing.destination

theorem Undisturbed.trans {u : Scheduler} (h : Undisturbed setting s t id)
    (h' : Undisturbed setting t u id) : Undisturbed setting s u id where
  bound := h'.bound
  standing? standing hstanding := by
    obtain ⟨status, hnext⟩ := h.standing? standing hstanding
    obtain ⟨last, hlast⟩ := h'.standing? _ hnext
    exact ⟨last, hlast⟩
  content? standing hstanding hclear := by
    obtain ⟨status, hnext⟩ := h.standing? standing hstanding
    have hlast := h'.content? _ hnext hclear
    exact hlast.trans (h.content? standing hstanding hclear)

/-- A worker stays bound until its ending is heard, and its item stays in the table. -/
theorem Change.bound (hchange : Change heard s t) (h : s.Coherent) (hbound : s.duty? id ≠ none)
    (hunheard : ∀ ending, ¬ heard id ending) :
    t.duty? id ≠ none ∧ ∀ standing, s.standing? id = some standing →
      ∃ status, t.standing? id = some (standing.withStatus status) := by
  -- a change leaves a standing alone or sets its status; nothing else about it can change
  have hkept (hstanding : t.standing? id = s.standing? id) (standing : Standing)
      (hfound : s.standing? id = some standing) :
      ∃ status, t.standing? id = some (standing.withStatus status) :=
    ⟨standing.status, hstanding.trans hfound⟩
  have hset {u : Scheduler} {other : ItemId} {status : Status}
      (hstanding : u.standing? id = s.standing? id) (standing : Standing)
      (hfound : s.standing? id = some standing) :
      ∃ last, (u.setStatus other status).standing? id = some (standing.withStatus last) := by
    rw [standing?_setStatus]
    split
    · next heq =>
      refine ⟨status, ?_⟩
      rw [← heq, hstanding, hfound]
      rfl
    · exact ⟨standing.status, hstanding.trans hfound⟩
  cases hchange with
  | note halike =>
    rw [halike.duty?]
    exact ⟨hbound, hkept (halike.standing? id)⟩
  | save => exact ⟨hbound, hkept rfl⟩
  | close => exact ⟨hbound, hkept rfl⟩
  | relimit => exact ⟨hbound, hkept rfl⟩
  | @engage other item hget hqueued hfree hroom hopen =>
    have hne : id ≠ other := fun heq => hbound (heq ▸ hfree)
    rw [duty?_startTransfer hget hfree, if_neg hne]
    refine ⟨hbound, hkept ?_⟩
    rw [standing?_startTransfer hget, if_neg hne]
  | stop hduty hstanding hlive hsuits =>
    rw [duty?_setStatus]
    exact ⟨duty?_stopTransfer_ne_none hbound, hset rfl⟩
  | restop hduty hstop hreason => exact ⟨duty?_stopTransfer_ne_none hbound, hkept rfl⟩
  | shift hstanding hlive hstatus hfree hcomplete =>
    rw [duty?_setStatus]
    exact ⟨hbound, hset rfl⟩
  | discard hget hfree hlive hpartial =>
    rw [duty?_discardPartial]
    exact ⟨hbound, hkept (standing?_discardPartial _ _ _)⟩
  | @finish u other duty hduty ending hheard halike status hstatus =>
    -- who loses a worker has been heard of, so it is another item
    have hne : id ≠ other := fun heq => hunheard ending (heq ▸ hheard)
    rw [duty?_setStatus, halike.duty?, duty?_unbind, if_neg hne]
    exact ⟨hbound, hset (halike.standing? id)⟩
  | @leave other duty hduty ending hheard hstop =>
    have hne : id ≠ other := fun heq => hunheard ending (heq ▸ hheard)
    rw [duty?_unbind, if_neg hne]
    exact ⟨hbound, hkept rfl⟩
  | @clear other duty hduty ending hheard reason hstop hdiscards =>
    have hne : id ≠ other := fun heq => hunheard ending (heq ▸ hheard)
    rw [duty?_discardPartial, duty?_unbind, if_neg hne]
    exact ⟨hbound, hkept (standing?_discardPartial _ _ _)⟩
  | @add item next hnext hid hresolved htaken hstatus =>
    have hnew : s.standing? item.id = none := hid ▸ standing?_nextId h.sound
    refine ⟨hbound, fun standing hfound => ⟨standing.status, ?_⟩⟩
    rw [standing?_append hnew, if_neg]
    · exact hfound
    · intro heq
      rw [heq, hnew] at hfound
      cases hfound
  | @drop keep hkeep =>
    refine ⟨hbound, fun standing hfound => ⟨standing.status, ?_⟩⟩
    obtain ⟨item, hget, rfl⟩ := get?_of_standing? hfound
    rw [h.standing?_filter, hget]
    cases hitem : keep item with
    | true =>
      rw [Option.filter_some, if_pos hitem]
      rfl
    | false =>
      have hfree := (hkeep item (Table.mem_of_get? hget) hitem).1
      rw [Table.id_of_get? hget] at hfree
      exact absurd hfree hbound

theorem Change.undisturbed (hchange : Change heard s t) (h : s.Lodged setting)
    (hbound : s.duty? id ≠ none) (hunheard : ∀ ending, ¬ heard id ending) :
    Undisturbed setting s t id := by
  obtain ⟨hstill, hstanding⟩ := hchange.bound h.coherent hbound hunheard
  refine ⟨hstill, hstanding, fun standing hfound hclear => ?_⟩
  rcases hchange.content? h ⟨standing, hfound, rfl, .inr hbound⟩ hclear with
    hsame | ⟨-, -, -, hfree | ⟨ending, hheard⟩⟩
  · exact hsame
  · exact absurd hfree hbound
  · exact absurd hheard (hunheard ending)

theorem Lodged.chain (h : s.Lodged setting) (hchain : Chain heard s t) : t.Lodged setting := by
  induction hchain with
  | refl => exact h
  | tail _ hchange ih => exact ih.change hchange

theorem Chain.undisturbed (hchain : Chain heard s t) (h : s.Lodged setting)
    (hbound : s.duty? id ≠ none) (hunheard : ∀ ending, ¬ heard id ending) :
    Undisturbed setting s t id := by
  induction hchain with
  | refl => exact ⟨hbound, fun standing hfound => ⟨standing.status, hfound⟩, fun _ _ _ => rfl⟩
  | tail hbefore hchange ih => exact ih.trans (hchange.undisturbed (h.chain hbefore) ih.bound hunheard)

theorem Whole.of_undisturbed (h : s.Whole setting id) (hkept : Undisturbed setting s t id) :
    t.Whole setting id := by
  obtain ⟨standing, hstanding, hwhole⟩ := h
  obtain ⟨status, hfound⟩ := hkept.standing? standing hstanding
  exact ⟨_, hfound, fun hclear => (hkept.content? standing hstanding hclear).trans (hwhole hclear)⟩

theorem fileLength_eq (files : FileSystem) (path : Path) :
    files.fileLength path = UInt64.ofNat (((files.content? path).map List.length).getD 0) := by
  unfold FileSystem.fileLength FileSystem.fileLength? FileSystem.content?
  cases files.read path <;> rfl

/-- The worker of the item was asked for this, and its file is as it was then. -/
structure Assigned (setting : Setting) (s : Scheduler) (request : FetchRequest) : Prop where
  bound : s.duty? request.id ≠ none
  standing? : ∃ status, s.standing? request.id =
    some ⟨request.id, request.url, request.destination, status⟩
  measured : setting.Clear request.destination →
    request.resumeOffset = s.files.fileLength request.destination

theorem Assigned.of_undisturbed {request : FetchRequest} (h : s.Assigned setting request)
    (hkept : Undisturbed setting s t request.id) : t.Assigned setting request where
  bound := hkept.bound
  standing? := by
    obtain ⟨status, hstanding⟩ := h.standing?
    obtain ⟨last, hlast⟩ := hkept.standing? _ hstanding
    exact ⟨last, hlast⟩
  measured hclear := by
    obtain ⟨status, hstanding⟩ := h.standing?
    have hcontent := hkept.content? _ hstanding hclear
    dsimp only at hcontent
    rw [h.measured hclear, fileLength_eq, fileLength_eq, hcontent]

theorem assigned_startTransfer {item : Item} (hget : s.table.get? id = some item)
    (hfree : s.duty? id = none) : (s.startTransfer id).Assigned setting (s.fetchOf item.standing) := by
  obtain rfl : item.id = id := Table.id_of_get? hget
  refine ⟨?_, ⟨.downloading, ?_⟩, fun _ => ?_⟩
  · change (s.startTransfer item.id).duty? item.id ≠ none
    rw [duty?_startTransfer hget hfree, if_pos rfl]
    exact Option.some_ne_none _
  · change (s.startTransfer item.id).standing? item.id = _
    rw [standing?_startTransfer hget, if_pos rfl]
    rfl
  · rw [files_startTransfer]
    rfl

def Recruits (setting : Setting) (s t : Scheduler) : Prop :=
  ∃ begun, t.fetches = s.fetches ++ begun ∧ ∀ request ∈ begun, t.Assigned setting request

theorem fetches_discardPartial (s : Scheduler) (id : ItemId) :
    (s.discardPartial id).fetches = s.fetches := by
  cases hget : s.table.get? id with
  | none => rw [discardPartial, hget]
  | some item => exact (discardPartial_alike hget).fetches

/-- A fetch that begins finds the item and its file as the worker is told. -/
theorem Change.recruits (hchange : Change heard s t) : Recruits setting s t := by
  have hnone (heq : t.fetches = s.fetches) : Recruits setting s t :=
    ⟨[], by rw [heq, List.append_nil], fun request hmem => absurd hmem List.not_mem_nil⟩
  cases hchange with
  | note halike => exact hnone halike.fetches
  | engage hget hqueued hfree hroom hopen =>
    refine ⟨_, (grows_startTransfer hget).fetches, fun request hmem => ?_⟩
    rw [List.mem_singleton] at hmem
    subst hmem
    exact assigned_startTransfer hget hfree
  | stop hduty hstanding hlive hsuits => exact hnone (fetches_setStatus _ _ _)
  | shift hstanding hlive hstatus hfree hcomplete => exact hnone (fetches_setStatus _ _ _)
  | discard hget hfree hlive hpartial => exact hnone (fetches_discardPartial _ _)
  | finish hduty hheard halike hstatus =>
    exact hnone ((fetches_setStatus _ _ _).trans halike.fetches)
  | clear hduty hheard hstop hdiscards => exact hnone (fetches_discardPartial _ _)
  | _ => exact hnone rfl

/-- What comes after the admission neither rebinds the worker nor touches its file. -/
theorem Recruits.chain {u : Scheduler} (h : Recruits setting s t) (hlodged : t.Lodged setting)
    (hchain : Chain (fun _ _ => False) t u) : Recruits setting s u := by
  induction hchain with
  | refl => exact h
  | tail hbefore hchange ih =>
    obtain ⟨begun, hbegun, hassigned⟩ := ih
    have hrecruits : Recruits setting _ _ := hchange.recruits
    obtain ⟨more, hmore, hnew⟩ := hrecruits
    refine ⟨begun ++ more, by rw [hmore, hbegun, List.append_assoc], fun request hmem => ?_⟩
    rcases List.mem_append.mp hmem with hold | hmem
    · have hrequest := hassigned request hold
      refine hrequest.of_undisturbed ?_
      exact hchange.undisturbed (hlodged.chain hbefore) hrequest.bound fun _ => not_false
    · exact hnew request hmem

/-! ## Courses -/

def Course (heard : ItemId → Ending → Prop) (s t : Scheduler) : Prop :=
  ∃ u, Change heard s u ∧ Chain (fun _ _ => False) u t

theorem course_of_chain (hchain : Chain (fun _ _ => False) s t) :
    Course (fun _ _ => False) s t :=
  ⟨s, .note (Alike.refl s), hchain⟩

/-- Of a message the scheduler hears one ending at most. -/
theorem course_handleMessage (h : s.Coherent) (message : Message) :
    Course (fun id ending => message = ⟨id, .ended ending⟩) s
      (s.handleMessage message).scheduler := by
  obtain ⟨id, report⟩ := message
  cases report with
  | progress progress =>
    exact ⟨_, .note (alike_handleProgress s id progress), Relation.ReflTransGen.refl⟩
  | ended ending =>
    change Course _ s (s.handleEnding id ending).scheduler
    rw [handleEnding]
    split
    · exact ⟨s, .note (Alike.refl s), Relation.ReflTransGen.refl⟩
    · next binding hbinding =>
      have hduty : s.duty? id = some binding.duty := by rw [duty?, hbinding]; rfl
      obtain ⟨t, hchange, halike⟩ :
          ∃ t, Change (fun other last => Message.mk id (.ended ending) = ⟨other, .ended last⟩) s t ∧
            Alike t ((s.unbind id).settle id binding.stop ending).scheduler :=
        change_settle hduty ending rfl
      have hcoherent := (hchange.coherent h).of_alike halike
      refine ⟨t, hchange, (Chain.note halike).trans ?_⟩
      exact reach_andThen Relation.ReflTransGen.refl fun _ _ => chain_tick hcoherent

theorem Course.stopping (hcourse : Course heard s t) (h : s.Stopping) : t.Stopping := by
  obtain ⟨u, hchange, hchain⟩ := hcourse
  exact hchain.trail.stopping (hchange.stopping h)

theorem Course.recruits (hcourse : Course heard s t) (h : s.Lodged setting) :
    Recruits setting s t := by
  obtain ⟨u, hchange, hchain⟩ := hcourse
  exact hchange.recruits.chain (h.change hchange) hchain

theorem Course.undisturbed (hcourse : Course heard s t) (h : s.Lodged setting)
    (hbound : s.duty? id ≠ none) (hunheard : ∀ ending, ¬ heard id ending) :
    Undisturbed setting s t id := by
  obtain ⟨u, hchange, hchain⟩ := hcourse
  have hfirst := hchange.undisturbed h hbound hunheard
  exact hfirst.trans (hchain.undisturbed (h.change hchange) hfirst.bound fun _ => not_false)

theorem Intact.course (h : s.Intact setting exempt) (hcourse : Course heard s t)
    (hheard : ∀ id, heard id .completed → s.Whole setting id) : t.Intact setting exempt := by
  obtain ⟨u, hchange, hchain⟩ := hcourse
  exact (h.change hchange hheard).chain (fun _ => not_false) hchain

end Scheduler

end DownloadQueue
