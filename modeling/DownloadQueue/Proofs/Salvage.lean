import DownloadQueue.Proofs.AtomicSave
import DownloadQueue.Proofs.Complete
import DownloadQueue.Proofs.FileSystem.Apart
import DownloadQueue.Proofs.Startup

/-!
# Queue files that cannot be used

A queue file that does not load is moved aside when the queue starts. From then on its new name is
that of a file that is there: an item that is given it as its destination is found complete, and a
complete file is neither fetched again nor removed. A save touches the queue file and the temporary
file only, and later starts move files to other names. So the bytes are there after every later run.

Where the file cannot be moved, the start only says so and goes on. The file stays for as long as no
save succeeds; the first one that does puts the new queue in its place.
-/

namespace DownloadQueue

namespace FileSystem

variable {fs : FileSystem}

theorem fileAt_of_read {path : Path} {content : List UInt8} (hread : fs.read path = .ok content) :
    fs.fileAt (fs.placeOf path) = some content := by
  have hcontent : fs.content? path = some content := by
    rw [content?, hread]
    rfl
  exact fileAt_eq_some_iff.mpr (node?_of_content? hcontent).1

end FileSystem

namespace QueueFile

open FileSystem

variable {fs : FileSystem} {path : Path} {stamp : String}

def Plain (stamp : String) : Prop :=
  '/' ∉ stamp.toList

instance (stamp : String) : Decidable (Plain stamp) :=
  inferInstanceAs (Decidable ('/' ∉ stamp.toList))

/-- Where a queue file is moved depends on the stamp, and it is no place that a save writes to. -/
theorem placeOf_asidePath (fs : FileSystem) (path : Path) (hstamp : Plain stamp) :
    ¬ Reserved fs.cwd path (fs.placeOf (asidePath path stamp)) ∧
      ∀ other, Plain other → other ≠ stamp →
        ¬ fs.placeOf (asidePath path other) <+: fs.placeOf (asidePath path stamp) := by
  obtain ⟨directory, name, hsuffix⟩ := placeOf_withSuffix fs path
  have hlength (stamp : String) : 9 ≤ (".corrupt-" ++ stamp).length := by
    rw [String.length_append]
    exact Nat.le_add_right 9 stamp.length
  have haside {stamp : String} (hstamp : Plain stamp) :
      fs.placeOf (asidePath path stamp) = directory ++ [name ++ (".corrupt-" ++ stamp)] ∧
        fs.placeOf path ≠ directory ++ [name ++ (".corrupt-" ++ stamp)] := by
    refine hsuffix _ ?_ (Nat.lt_of_lt_of_le (by decide) (hlength stamp))
    rw [String.toList_append, List.mem_append, not_or]
    exact ⟨by decide, hstamp⟩
  obtain ⟨hplace, hne⟩ := haside hstamp
  rw [hplace]
  refine ⟨?_, fun other hother hdiffers hunder => hdiffers ?_⟩
  · rintro (hsame | hsame)
    · exact hne hsame.symm
    · have heq := hsame.trans (hsuffix ".tmp" (by decide) (by decide)).1
      have hsuffixes : ".corrupt-" ++ stamp = ".tmp" := by simpa using heq
      have hlonger := hlength stamp
      rw [hsuffixes] at hlonger
      exact absurd hlonger (by decide)
  · rw [(haside hother).1] at hunder
    have heq := hunder.eq_of_length (by simp)
    simpa using heq

/-- A queue file is moved as a whole or stays where it is. -/
theorem moveAside_cases (h : fs.Sound) (hstamp : Plain stamp) {bytes : List UInt8}
    (hfile : fs.fileAt (fs.placeOf path) = some bytes) :
    (∃ error, (moveAside fs path stamp).2 = .error error) ∧ (moveAside fs path stamp).1 = fs ∨
      (moveAside fs path stamp).2 = .ok (asidePath path stamp) ∧
        (moveAside fs path stamp).1.node? (fs.placeOf path) = none ∧
        (moveAside fs path stamp).1.fileAt (fs.placeOf (asidePath path stamp)) = some bytes := by
  have hne : fs.placeOf path ≠ fs.placeOf (asidePath path stamp) := by
    intro heq
    exact (placeOf_asidePath fs path hstamp).1 (.inl heq.symm)
  rw [moveAside]
  cases hrename : fs.rename path (asidePath path stamp) with
  | error error => exact .inl ⟨⟨_, rfl⟩, rfl⟩
  | ok other =>
    refine .inr ⟨rfl, h.node?_rename hne hrename, ?_⟩
    obtain ⟨hedits, hread⟩ := h.rename hfile hrename
    have hplace : other.placeOf (asidePath path stamp) = fs.placeOf (asidePath path stamp) := by
      rw [placeOf, hedits.cwd, placeOf]
    rw [← hplace]
    exact fileAt_of_read hread

/-- Whatever stands in the place of the queue file, all that stands outside of its old and its new
place is left alone. -/
theorem moveAside_leaves (h : fs.Sound) (hstamp : Plain stamp)
    (hhome : ¬ fs.placeOf path <+: fs.cwd) :
    (moveAside fs path stamp).1.Sound ∧ (moveAside fs path stamp).1.cwd = fs.cwd ∧
      ((moveAside fs path stamp).1 = fs ∨
        (moveAside fs path stamp).1.node? (fs.placeOf path) = none) ∧
      ∀ place, ¬ fs.placeOf path <+: place → ¬ fs.placeOf (asidePath path stamp) <+: place →
        (moveAside fs path stamp).1.fileAt place = fs.fileAt place := by
  have hne : fs.placeOf path ≠ fs.placeOf (asidePath path stamp) := by
    intro heq
    exact (placeOf_asidePath fs path hstamp).1 (.inl heq.symm)
  rw [moveAside]
  cases hrename : fs.rename path (asidePath path stamp) with
  | error error => exact ⟨h, rfl, .inl rfl, fun _ _ _ => rfl⟩
  | ok other =>
    have hgone := h.node?_rename hne hrename
    obtain ⟨node, directory, label, closed, hnode, -, -, hparent, htarget, -, hcases⟩ :=
      h.rename_eq_ok hrename
    rcases hcases with ⟨hsame, -⟩ | ⟨hmovable, hkind, rfl⟩
    · exact absurd (hsame.trans htarget.symm) hne
    · refine ⟨hmovable.sound h hparent hhome fun hold => ?_, rfl, .inr hgone, ?_⟩
      · rw [hnode, hkind hold]
      · intro place hold hnew
        rw [fileAt, hmovable.node?_move_of_outside hold (htarget ▸ hnew), fileAt]

end QueueFile

namespace Scheduler

open FileSystem (Fits)

variable {heard : ItemId → Ending → Prop} {s t : Scheduler} {setting : Setting} {place : Place}
variable {bytes : List UInt8} {stamp : String}

/-! ## What a change does to the file at a place -/

/-- A save changes no file but the queue file, and the one that it writes it to first. -/
theorem fileAt_persist (h : s.files.Sound)
    (hne : place ≠ s.files.placeOf (QueueFile.temporary s.config.queue.queueFile)) :
    s.persist.1.files.fileAt place = s.files.fileAt place ∨
      place = s.files.placeOf s.config.queue.queueFile ∧
        s.persist.1.files.fileAt place = some (QueueFile.render s.table.items) := by
  rcases QueueFile.save_cases h s.config.queue.queueFile s.table.items with
    ⟨-, hedits, hread⟩ | ⟨-, hedits⟩
  · by_cases heq : place = s.files.placeOf s.config.queue.queueFile
    · right
      refine ⟨heq, ?_⟩
      have hplace : s.persist.1.files.placeOf s.config.queue.queueFile = place := by
        rw [heq, FileSystem.placeOf, FileSystem.placeOf]
        exact congrArg (Path.fold · _) hedits.cwd
      rw [← hplace]
      exact FileSystem.fileAt_of_read hread
    · exact .inl (hedits.fileAt place fun hreserved => hreserved.elim heq hne)
  · exact .inl (hedits.fileAt place hne)

/-- A change leaves the file at a place alone, saves the queue there or removes the file of an item
that may still be removed. -/
theorem Change.fileAt (hchange : Change heard s t) (h : s.Lodged setting)
    (hne : place ≠ s.files.placeOf (QueueFile.temporary s.config.queue.queueFile)) :
    t.files.fileAt place = s.files.fileAt place ∨
      (place = s.files.placeOf s.config.queue.queueFile ∧
        t.files.fileAt place = some (QueueFile.render s.table.items)) ∨
      t.files.fileAt place = none ∧ ∃ id standing, s.standing? id = some standing ∧
        s.Open id standing.status ∧ s.files.placeOf standing.destination = place ∧
        s.files.content? standing.destination ≠ none := by
  rcases hchange.files h.coherent with
    hfiles | hfiles | ⟨id, standing, hstanding, hholds, hfiles, hpartial, -⟩
  · exact .inl (by rw [hfiles])
  · rw [hfiles]
    exact (fileAt_persist h.sound hne).imp_right .inl
  · -- where no file is found, nothing is removed, whatever stands at the place of the destination
    by_cases hcontent : s.files.content? standing.destination = none
    · have hkept : s.files.without standing.destination = s.files := by
        rw [FileSystem.without_eq, hcontent]
        rfl
      exact .inl (by rw [hfiles, ← FileSystem.without, hkept])
    · obtain ⟨hedits, hgone⟩ := FileSystem.edits_removePartial h.sound standing.destination
      rw [hfiles]
      by_cases heq : place = s.files.placeOf standing.destination
      · rcases hgone with hgone | hkept
        · refine .inr (.inr ⟨heq ▸ hgone, id, standing, hstanding, ?_, heq.symm, hcontent⟩)
          obtain ⟨found, hfound, -, hclaim⟩ := hholds
          rw [hstanding] at hfound
          cases hfound
          exact hclaim.elim (fun hlive => .inr ⟨hpartial, hlive⟩) .inl
        · exact .inl (by rw [hkept])
      · exact .inl (hedits.fileAt place heq)

structure Harbours (setting : Setting) (place : Place) (s : Scheduler) : Prop where
  lodged : s.Lodged setting
  named : ∀ name ∈ place, Path.IsName name
  file : s.files.fileAt place ≠ none
  sealed : Fits place → Sealed (.ofNames place) s

theorem Harbours.content? (h : s.Harbours setting place) (hfits : Fits place) :
    s.files.content? (.ofNames place) ≠ none := by
  obtain ⟨content, hfile⟩ := Option.ne_none_iff_exists'.mp h.file
  simp [(h.lodged.sound.content?_ofNames h.named).mpr ⟨hfits, hfile⟩]

theorem Harbours.eq_ofNames (h : s.Harbours setting place) {id : ItemId} {standing : Standing}
    (hstanding : s.standing? id = some standing)
    (hplace : s.files.placeOf standing.destination = place) :
    standing.destination = .ofNames place := by
  have hsame : s.files.placeOf standing.destination = s.files.placeOf (.ofNames place) :=
    hplace.trans (FileSystem.placeOf_ofNames s.files h.named).symm
  exact (h.lodged.resolved id standing hstanding).eq_of_fold ⟨place, h.named, rfl⟩ hsame

theorem Harbours.content?_eq_none (h : s.Harbours setting place) {id : ItemId}
    {standing : Standing} (hstanding : s.standing? id = some standing)
    (hopen : s.Open id standing.status) (hplace : s.files.placeOf standing.destination = place) :
    s.files.content? standing.destination = none := by
  have hsame := h.eq_ofNames hstanding hplace
  rw [Option.eq_none_iff_forall_ne_some, hsame]
  intro content hcontent
  obtain ⟨hfits, -⟩ := (h.lodged.sound.content?_ofNames h.named).mp hcontent
  exact h.sealed hfits id standing hstanding hopen hsame

theorem Harbours.openPlace_ne (h : s.Harbours setting place) {id : ItemId} {standing : Standing}
    (hstanding : s.standing? id = some standing) (hbound : s.duty? id ≠ none)
    (content : List UInt8) : s.files.openPlace standing.destination ≠ .ok (place, content) := by
  intro hopened
  obtain ⟨directory, label, hlocate, hlabel, -, -, hplace, -⟩ := h.lodged.sound.openPlace hopened
  have hsame := h.eq_ofNames hstanding hplace.symm
  rw [hsame] at hlocate
  have hfits := h.lodged.sound.fits_of_locate h.named hlocate hlabel
  exact h.sealed hfits id standing hstanding (.inl hbound) hsame

/-- As long as the queue is not saved there, the file at the place stays as it is. -/
theorem Harbours.change (h : s.Harbours setting place)
    (hne : place ≠ Path.fold setting.cwd (QueueFile.temporary setting.queueFile).components)
    (hchange : Change heard s t) :
    t.Harbours setting place ∧ (t.files.fileAt place = s.files.fileAt place ∨
      place = Path.fold setting.cwd setting.queueFile.components ∧
        t.files.fileAt place = some (QueueFile.render s.table.items)) := by
  have hlodged := h.lodged.change hchange
  have hsealed (hfits : Fits place) : Sealed (.ofNames place) t :=
    hchange.sealed h.lodged.coherent (h.sealed hfits) (h.content? hfits)
  rw [← h.lodged.cwd, ← h.lodged.queueFile] at hne ⊢
  rcases hchange.fileAt h.lodged hne with hkept | ⟨hqueue, hsaved⟩ |
    ⟨-, id, standing, hstanding, hopen, hplace, hcontent⟩
  · exact ⟨⟨hlodged, h.named, by rw [hkept]; exact h.file, hsealed⟩, .inl hkept⟩
  · exact ⟨⟨hlodged, h.named, by simp [hsaved], hsealed⟩, .inr ⟨hqueue, hsaved⟩⟩
  · exact absurd (h.content?_eq_none hstanding hopen hplace) hcontent

theorem Harbours.progress (h : s.Harbours setting place)
    (hne : place ≠ Path.fold setting.cwd (QueueFile.temporary setting.queueFile).components)
    (hprogress : Progresses s t) :
    t.Harbours setting place ∧ (t.files.fileAt place = s.files.fileAt place ∨
      place = Path.fold setting.cwd setting.queueFile.components ∧
        t.files.fileAt place = some (QueueFile.render s.table.items)) := by
  rcases hprogress with hchange | ⟨inbox, rfl⟩
  · exact h.change hne hchange
  · exact ⟨⟨h.lodged.inbox inbox, h.named, h.file, h.sealed⟩, .inl rfl⟩

def queuePlace (s : Scheduler) : Place :=
  s.files.placeOf s.config.queue.queueFile

def asidePlace (s : Scheduler) (stamp : String) : Place :=
  s.files.placeOf (QueueFile.asidePath s.config.queue.queueFile stamp)

/-- Others leave a tree and the working directory, and only a worker that can open the file at the
place changes it. -/
structure Considerate (place : Place) (s : Scheduler) (files : FileSystem) : Prop where
  sound : files.Sound
  cwd : files.cwd = s.files.cwd
  file : (∀ id standing content, s.standing? id = some standing → s.duty? id ≠ none →
    s.files.openPlace standing.destination ≠ .ok (place, content)) →
      files.fileAt place = s.files.fileAt place

def Action.Considerate (place : Place) (s : Scheduler) : Action → Prop
  | .outside files _ _ _ _ => s.Considerate place files
  | _ => True

theorem Harbours.outside (h : s.Harbours setting place) {files : FileSystem}
    (hconsiderate : s.Considerate place files) (inbox : List Message) (clock : Nat)
    (now : Timestamp) (share : Float) :
    ({ s with files, inbox, clock, now, share } : Scheduler).Harbours setting place ∧
      files.fileAt place = s.files.fileAt place := by
  have hkept := hconsiderate.file fun id standing content hstanding hbound =>
    h.openPlace_ne hstanding hbound content
  have hcwd := hconsiderate.cwd.trans h.lodged.cwd
  refine ⟨⟨h.lodged.outside hconsiderate.sound hcwd inbox clock now share, h.named, ?_, h.sealed⟩,
    hkept⟩
  exact hkept ▸ h.file

/-! ## The queue file that is moved aside -/

structure Settled (place : Place) (items : List Item) : Prop where
  apart : (QueueFile.kept items).Pairwise fun a b => a.destination.same b.destination = false
  resolved : ∀ item ∈ items, item.destination.Resolved
  complete : Fits place → ∀ item ∈ items, item.destination = .ofNames place →
    item.status = .deleted ∨ item.status.isComplete = true

theorem settled_nil (place : Place) : Settled place [] where
  apart := List.Pairwise.nil
  resolved _ hmem := absurd hmem List.not_mem_nil
  complete _ _ hmem := absurd hmem List.not_mem_nil

/-- What a queue would save now can be taken up again without a danger to the file. -/
theorem Harbours.settled (h : s.Harbours setting place) :
    Settled place (QueueFile.kept s.table.items) where
  apart := by
    rw [kept_kept]
    exact h.lodged.exclusive.apart h.lodged.coherent.sound
  resolved item hmem := by
    have hget := h.lodged.coherent.sound.get?_of_mem (List.mem_filter.mp hmem).1
    exact h.lodged.resolved item.id item.standing (standing?_of_get? hget)
  complete hfits item hmem hsame := by
    obtain ⟨hitem, hlive⟩ := List.mem_filter.mp hmem
    have hget := h.lodged.coherent.sound.get?_of_mem hitem
    right
    by_contra hpartial
    rw [Bool.not_eq_true] at hpartial
    exact h.sealed hfits item.id item.standing (standing?_of_get? hget)
      (.inr ⟨hpartial, of_decide_eq_true hlive⟩) hsame

structure Retreat (setting : Setting) (stamp : String) (place : Place) : Prop where
  plain : QueueFile.Plain stamp
  place_eq : place =
    Path.fold setting.cwd (QueueFile.asidePath setting.queueFile stamp).components
  outside : ¬ Path.fold setting.cwd setting.queueFile.components <+: place
  home : ¬ Path.fold setting.cwd setting.queueFile.components <+: setting.cwd

theorem Retreat.clear (h : Retreat setting stamp place) :
    ¬ QueueFile.Reserved setting.cwd setting.queueFile place := by
  have hplace := h.place_eq
  have haside := QueueFile.placeOf_asidePath ⟨setting.cwd, []⟩ setting.queueFile h.plain
  rw [FileSystem.placeOf, ← hplace] at haside
  exact haside.1

/-- A file with these bytes is out of reach, also for a queue that is taken up again from the queue
file. -/
structure Salvaged (setting : Setting) (place : Place) (bytes : List UInt8) (s : Scheduler) :
    Prop extends Harbours setting place s where
  bytes : s.files.fileAt place = some bytes
  filed : ∀ content items,
    s.files.fileAt (Path.fold setting.cwd setting.queueFile.components) = some content →
      QueueFile.parse setting.queueFile content = .ok items → Settled place items

/-- What the queue file holds can be taken up again without a danger to the file. -/
theorem Salvaged.settled_of_load (h : s.Salvaged setting place bytes) {items : List Item}
    (hload : QueueFile.load s.files s.config.queue.queueFile = .ok items) : Settled place items := by
  rw [QueueFile.load] at hload
  split at hload
  · next content hread =>
    have hcontent := FileSystem.fileAt_of_read hread
    rw [FileSystem.placeOf, h.lodged.cwd, h.lodged.queueFile] at hcontent
    rw [h.lodged.queueFile] at hload
    exact h.filed content items hcontent hload
  · split at hload
    · cases hload
      exact settled_nil place
    · cases hload

/-- The file is not the queue's to write to or to remove, whatever changes. -/
theorem Salvaged.progress (h : s.Salvaged setting place bytes)
    (hclear : ¬ QueueFile.Reserved setting.cwd setting.queueFile place)
    (hprogress : Progresses s t) : t.Salvaged setting place bytes := by
  obtain ⟨hharbours, hfile⟩ := h.toHarbours.progress (fun heq => hclear (.inr heq)) hprogress
  have hkept := hfile.resolve_right fun hsaved => hclear (.inl hsaved.1)
  refine ⟨hharbours, hkept.trans h.bytes, ?_⟩
  rcases hprogress with hchange | ⟨inbox, rfl⟩
  · have hne := QueueFile.placeOf_temporary_ne s.files s.config.queue.queueFile
    have hfiled := h.filed
    rw [← h.lodged.cwd, ← h.lodged.queueFile] at hfiled ⊢
    intro content items hcontent hparse
    rcases hchange.fileAt h.lodged hne.symm with hsame | ⟨-, hsaved⟩ | ⟨hgone, -⟩
    · exact hfiled content items (hsame ▸ hcontent) hparse
    · obtain rfl : QueueFile.render s.table.items = content :=
        Option.some.inj (hsaved.symm.trans hcontent)
      rw [QueueFile.parse_render _ h.lodged.coherent.sound.nodup] at hparse
      cases hparse
      exact h.settled
    · have hnone := hgone.symm.trans hcontent
      cases hnone
  · exact h.filed

theorem Salvaged.progresses (h : s.Salvaged setting place bytes)
    (hclear : ¬ QueueFile.Reserved setting.cwd setting.queueFile place)
    (hprogress : Relation.ReflTransGen Progresses s t) : t.Salvaged setting place bytes := by
  induction hprogress with
  | refl => exact h
  | tail _ hstep ih => exact ih.progress hclear hstep

theorem Salvaged.act (h : s.Salvaged setting place bytes)
    (hclear : ¬ QueueFile.Reserved setting.cwd setting.queueFile place) {action : Action}
    (hconsiderate : action.Considerate place s)
    (hqueue : ∀ content items, (s.found action).fileAt s.queuePlace = some content →
      QueueFile.parse s.config.queue.queueFile content = .ok items →
        s.files.fileAt s.queuePlace = some content) :
    (s.act action).Salvaged setting place bytes := by
  rcases act_cases h.lodged.coherent action with
    ⟨-, hprogress⟩ | ⟨files, inbox, clock, now, share, rfl⟩
  · exact h.progresses hclear hprogress
  · obtain ⟨hharbours, hkept⟩ := h.toHarbours.outside hconsiderate inbox clock now share
    refine ⟨hharbours, hkept.trans h.bytes, fun content items hcontent hparse => ?_⟩
    refine h.filed content items ?_ hparse
    rw [← h.lodged.cwd, ← h.lodged.queueFile] at hcontent ⊢
    rw [← h.lodged.queueFile] at hparse
    exact hqueue content items hcontent hparse

/-- The base case: items are loaded, and nobody works for them yet. -/
theorem harbours_of_idle (hsound : s.table.Sound) (hidle : s.active = [])
    (hsettled : Settled place s.table.items) (hfiles : s.files.Sound)
    (hcwd : s.files.cwd = setting.cwd) (hqueueFile : s.config.queue.queueFile = setting.queueFile)
    (hnamed : ∀ name ∈ place, Path.IsName name) (hfile : s.files.fileAt place = some bytes) :
    s.Harbours setting place where
  lodged := lodged_of_idle hsound hidle hsettled.apart hsettled.resolved hfiles hcwd hqueueFile
  named := hnamed
  file := by simp [hfile]
  sealed hfits id standing hstanding hopen hsame := by
    obtain ⟨item, hget, rfl⟩ := get?_of_standing? hstanding
    obtain ⟨hpartial, hlive⟩ : item.status.isComplete = false ∧ item.status ≠ .deleted := by
      refine hopen.resolve_left fun hbound => hbound ?_
      rw [duty?_eq_find?, duties, hidle]
      rfl
    rcases hsettled.complete hfits item (Table.mem_of_get? hget) hsame with hdeleted | hcomplete
    · exact hlive hdeleted
    · rw [hcomplete] at hpartial
      cases hpartial

theorem progresses_launch (hsound : s.table.Sound) (hidle : s.active = []) :
    Relation.ReflTransGen Progresses s s.launch.scheduler :=
  progresses_of_chain (chain_launch hsound hidle)

end Scheduler

namespace Controller

open Scheduler (Settled Salvaged opening)

variable {config : Config} {around : Surroundings} {s t : Scheduler} {setting : Setting}
variable {place : Place} {bytes : List UInt8} {stamp : String}

theorem files_launch_empty (config : Config) (around : Surroundings) :
    (opening config around .empty).launch.scheduler.files = around.files := by
  have hticked : (opening config around .empty).restore.tick = opening config around .empty := by
    rw [Scheduler.tick]
    split <;> rfl
  rw [Scheduler.launch, hticked]
  exact (Scheduler.alike_publish (opening config around .empty)).files

theorem salvaged_launch {table : Table} (htable : table.Sound)
    (hsettled : Settled place table.items) (hsound : around.files.Sound)
    (hcwd : around.files.cwd = setting.cwd)
    (hqueueFile : config.queue.queueFile = setting.queueFile)
    (hnamed : ∀ name ∈ place, Path.IsName name)
    (hclear : ¬ QueueFile.Reserved setting.cwd setting.queueFile place)
    (hbytes : around.files.fileAt place = some bytes)
    (hfiled : ∀ content items,
      around.files.fileAt (Path.fold setting.cwd setting.queueFile.components) = some content →
        QueueFile.parse setting.queueFile content = .ok items → Settled place items) :
    (opening config around table).launch.scheduler.Salvaged setting place bytes := by
  have hopened : (opening config around table).Salvaged setting place bytes :=
    ⟨Scheduler.harbours_of_idle htable rfl hsettled hsound hcwd hqueueFile hnamed hbytes, hbytes,
      hfiled⟩
  exact hopened.progresses hclear (Scheduler.progresses_launch htable rfl)

/-- A new start under another stamp keeps the file out of reach. -/
theorem salvaged_of_takeUp (h : s.Salvaged setting place bytes)
    (hretreat : Scheduler.Retreat setting stamp place)
    (hqueueFile : config.queue.queueFile = s.config.queue.queueFile)
    (hfiles : around.files = s.files) (hstamp : QueueFile.Plain around.stamp)
    (hdiffers : around.stamp ≠ stamp)
    (hstart : (takeUp config around).scheduler? = some t) : t.Salvaged setting place bytes := by
  have hsound : around.files.Sound := hfiles ▸ h.lodged.sound
  have hcwd : around.files.cwd = setting.cwd := hfiles ▸ h.lodged.cwd
  have hsame : config.queue.queueFile = setting.queueFile := hqueueFile.trans h.lodged.queueFile
  have hbytes : around.files.fileAt place = some bytes := hfiles ▸ h.bytes
  have hqueue : around.files.placeOf config.queue.queueFile =
      Path.fold setting.cwd setting.queueFile.components := by
    rw [FileSystem.placeOf, hcwd, hsame]
  cases hload : QueueFile.load around.files config.queue.queueFile with
  | error error =>
    -- what is there now is moved aside too, but to the place under its own stamp
    rw [takeUp_of_load_error hload] at hstart
    cases hstart
    have hhome : ¬ around.files.placeOf config.queue.queueFile <+: around.files.cwd := by
      rw [hqueue, hcwd]
      exact hretreat.home
    have hother : ¬ around.files.placeOf (QueueFile.asidePath config.queue.queueFile around.stamp) <+:
        place := by
      rw [hretreat.place_eq, ← hcwd, ← hsame]
      exact (QueueFile.placeOf_asidePath around.files config.queue.queueFile hretreat.plain).2 _ hstamp
        hdiffers
    obtain ⟨hleft, hhere, hgone, hkept⟩ := QueueFile.moveAside_leaves hsound hstamp hhome
    refine salvaged_launch .empty (Scheduler.settled_nil place) hleft (hhere.trans hcwd) hsame h.named
      hretreat.clear ?_ ?_
    · rw [← hbytes]
      exact hkept place (hqueue ▸ hretreat.outside) hother
    · intro content items hcontent
      rcases hgone with hstays | hgone
      · refine h.filed content items ?_
        rw [← hfiles, ← hstays]
        exact hcontent
      · rw [hqueue] at hgone
        rw [FileSystem.fileAt_eq_none_iff.mpr (.inl hgone)] at hcontent
        cases hcontent
  | ok items =>
    -- what loads was saved here while the file was out of reach, or there is no queue file
    obtain ⟨table, htable, rfl⟩ := scheduler_of_takeUp hload hstart
    obtain ⟨htableSound, rfl⟩ := Table.Sound.ofItems (QueueFile.nodup_of_load hload) htable
    rw [hfiles, hqueueFile] at hload
    refine salvaged_launch htableSound (h.settled_of_load hload) hsound hcwd hsame h.named
      hretreat.clear hbytes ?_
    rw [hfiles]
    exact h.filed

end Controller

namespace Scheduler

/-! ## Later runs -/

/-- What may happen after the queue file was moved aside under a stamp: the queue acts while others
are considerate of the moved file and put no other queue in the place of the queue file, or it is
started again under another stamp, at whatever point it was. -/
inductive Sequel (stamp : String) : Scheduler → Scheduler → Prop
  | act {s : Scheduler} {action : Action}
      (hconsiderate : action.Considerate (s.asidePlace stamp) s)
      (hqueue : ∀ content items, (s.found action).fileAt s.queuePlace = some content →
        QueueFile.parse s.config.queue.queueFile content = .ok items →
          s.files.fileAt s.queuePlace = some content) : Sequel stamp s (s.act action)
  | start {s t : Scheduler} {config : Config} {around : Surroundings}
      (hqueueFile : config.queue.queueFile = s.config.queue.queueFile)
      (hfiles : around.files = s.files) (hstamp : QueueFile.Plain around.stamp)
      (hdiffers : around.stamp ≠ stamp)
      (hstart : (Controller.takeUp config around).scheduler? = some t) : Sequel stamp s t

variable {s t : Scheduler} {setting : Setting} {place : Place} {bytes : List UInt8} {stamp : String}

def Action.Own : Action → Prop
  | .outside _ _ _ _ _ => False
  | _ => True

/-- What the queue does of its own accord may always happen. -/
theorem sequels_foldl_act (stamp : String) (s : Scheduler) {actions : List Action}
    (hown : ∀ action ∈ actions, action.Own) :
    Relation.ReflTransGen (Sequel stamp) s (actions.foldl act s) := by
  induction actions generalizing s with
  | nil => exact .refl
  | cons action actions ih =>
    have hfirst : Sequel stamp s (s.act action) := by
      have howned := hown action List.mem_cons_self
      cases action with
      | outside files inbox clock now share => exact howned.elim
      | _ => exact .act trivial fun _ _ hcontent _ => hcontent
    exact .head hfirst (ih (s.act action) fun later hmem => hown later (List.mem_cons_of_mem _ hmem))

theorem Sequel.salvaged (hsequel : Sequel stamp s t) (hretreat : Retreat setting stamp place)
    (h : s.Salvaged setting place bytes) : t.Salvaged setting place bytes := by
  cases hsequel with
  | act hconsiderate hqueue =>
    have hplace : s.asidePlace stamp = place := by
      rw [hretreat.place_eq, ← h.lodged.cwd, ← h.lodged.queueFile]
      rfl
    rw [hplace] at hconsiderate
    exact h.act hretreat.clear hconsiderate hqueue
  | start hqueueFile hfiles hstamp hdiffers hstart =>
    exact Controller.salvaged_of_takeUp h hretreat hqueueFile hfiles hstamp hdiffers hstart

theorem salvaged_of_sequels (hsequels : Relation.ReflTransGen (Sequel stamp) s t)
    (hretreat : Retreat setting stamp place) (h : s.Salvaged setting place bytes) :
    t.Salvaged setting place bytes := by
  induction hsequels with
  | refl => exact h
  | tail _ hsequel ih => exact hsequel.salvaged hretreat ih

/-! ## The queue file that stays -/

structure Endures (setting : Setting) (place : Place) (bytes : List UInt8) (s : Scheduler) :
    Prop extends Harbours setting place s where
  content : s.files.fileAt place = some bytes ∨
    ∃ items, s.files.fileAt place = some (QueueFile.render items)

theorem Endures.progress (h : s.Endures setting place bytes)
    (hne : place ≠ Path.fold setting.cwd (QueueFile.temporary setting.queueFile).components)
    (hprogress : Progresses s t) : t.Endures setting place bytes := by
  obtain ⟨hharbours, hkept | ⟨-, hsaved⟩⟩ := h.toHarbours.progress hne hprogress
  · refine ⟨hharbours, ?_⟩
    rw [hkept]
    exact h.content
  · exact ⟨hharbours, .inr ⟨_, hsaved⟩⟩

theorem Endures.progresses (h : s.Endures setting place bytes)
    (hne : place ≠ Path.fold setting.cwd (QueueFile.temporary setting.queueFile).components)
    (hprogress : Relation.ReflTransGen Progresses s t) : t.Endures setting place bytes := by
  induction hprogress with
  | refl => exact h
  | tail _ hstep ih => exact ih.progress hne hstep

theorem Endures.act (h : s.Endures setting place bytes)
    (hne : place ≠ Path.fold setting.cwd (QueueFile.temporary setting.queueFile).components)
    {action : Action} (hconsiderate : action.Considerate place s) :
    (s.act action).Endures setting place bytes := by
  rcases act_cases h.lodged.coherent action with
    ⟨-, hprogress⟩ | ⟨files, inbox, clock, now, share, rfl⟩
  · exact h.progresses hne hprogress
  · obtain ⟨hharbours, hkept⟩ := h.toHarbours.outside hconsiderate inbox clock now share
    refine ⟨hharbours, ?_⟩
    change files.fileAt place = some bytes ∨
      ∃ items, files.fileAt place = some (QueueFile.render items)
    rw [hkept]
    exact h.content

def Handles (s t : Scheduler) : Prop :=
  ∃ action : Action, action.Considerate s.queuePlace s ∧ t = s.act action

/-- As long as nothing is saved the file at the path of the queue file stays. -/
theorem endures_of_handles (hhandles : Relation.ReflTransGen Handles s t)
    (hplace : place = Path.fold setting.cwd setting.queueFile.components)
    (h : s.Endures setting place bytes) : t.Endures setting place bytes := by
  induction hhandles with
  | refl => exact h
  | @tail u v _ hstep ih =>
    obtain ⟨action, hconsiderate, rfl⟩ := hstep
    have hsame : u.queuePlace = place := by
      rw [hplace, ← ih.lodged.cwd, ← ih.lodged.queueFile]
      rfl
    rw [hsame] at hconsiderate
    refine ih.act ?_ hconsiderate
    rw [hplace, ← ih.lodged.cwd, ← ih.lodged.queueFile]
    exact (QueueFile.placeOf_temporary_ne u.files u.config.queue.queueFile).symm

end Scheduler

namespace Controller

open Scheduler (Sequel Handles)

variable {config : Config} {around : Surroundings} {bytes : List UInt8} {error : PersistenceError}

/-- **Queue files that cannot be used.** A queue file that does not load is told of at the start. If
it can be moved aside, its bytes are there under the new name after every later run. If it cannot be
moved, the start leaves it alone, and it stays as it is until a save has put a queue in its place. -/
theorem kept_of_load_error (hvalid : config.validate = .ok ()) (hsound : around.files.Sound)
    (hstamp : QueueFile.Plain around.stamp)
    (hread : around.files.read config.queue.queueFile = .ok bytes)
    (hrejected : QueueFile.parse config.queue.queueFile bytes = .error error) :
    ∃ c, start config around = .started c ∧ c.startupError = some error ∧
      ((QueueFile.moveAside around.files config.queue.queueFile around.stamp).2 =
            .ok (QueueFile.asidePath config.queue.queueFile around.stamp) ∧
          (∀ s, Relation.ReflTransGen (Sequel around.stamp) c.scheduler s →
            s.files.fileAt (around.files.placeOf
              (QueueFile.asidePath config.queue.queueFile around.stamp)) = some bytes) ∨
        (∃ failure, (QueueFile.moveAside around.files config.queue.queueFile around.stamp).2 =
            .error failure) ∧
          c.scheduler.files = around.files ∧
          ∀ s, Relation.ReflTransGen Handles c.scheduler s →
            s.files.fileAt (around.files.placeOf config.queue.queueFile) = some bytes ∨
              ∃ items, s.files.fileAt (around.files.placeOf config.queue.queueFile) =
                some (QueueFile.render items)) := by
  have hfile := FileSystem.fileAt_of_read hread
  have hload : QueueFile.load around.files config.queue.queueFile = .error error := by
    rw [QueueFile.load, hread]
    exact hrejected
  -- no enclosure is looked at, so any bytes will do for them
  obtain ⟨setting, hcwd, hqueueFile⟩ : ∃ setting : Setting,
      around.files.cwd = setting.cwd ∧ config.queue.queueFile = setting.queueFile :=
    ⟨⟨fun _ => [], fun _ => by decide, _, _⟩, rfl, rfl⟩
  have hnamed (path : Path) : ∀ name ∈ around.files.placeOf path, Path.IsName name :=
    Path.isName_of_mem_fold hsound.named fun label hmem => Path.isName_of_mem_components hmem
  have hqueue : around.files.placeOf config.queue.queueFile =
      Path.fold setting.cwd setting.queueFile.components := by
    rw [FileSystem.placeOf, hcwd, hqueueFile]
  refine ⟨_, (start_of_validate hvalid).trans (takeUp_of_load_error hload), rfl, ?_⟩
  have hhome := hsound.not_prefix_of_directory (FileSystem.fileAt_eq_some_iff.mp hfile) hsound.home
  obtain ⟨hleft, hhere, -, -⟩ := QueueFile.moveAside_leaves hsound hstamp hhome
  rcases QueueFile.moveAside_cases hsound hstamp hfile with
    ⟨hfailed, hkept⟩ | ⟨hmoved, hgone, haside⟩
  · right
    rw [hkept]
    refine ⟨hfailed, files_launch_empty config around, fun s hrun => ?_⟩
    have hopened : (Scheduler.opening config around .empty).Endures setting
        (around.files.placeOf config.queue.queueFile) bytes :=
      ⟨Scheduler.harbours_of_idle .empty rfl (Scheduler.settled_nil _) hsound hcwd hqueueFile
        (hnamed _) hfile, .inl hfile⟩
    have hne := QueueFile.placeOf_temporary_ne around.files config.queue.queueFile
    rw [hqueue, FileSystem.placeOf, hcwd, hqueueFile] at hne
    have hlaunched := hopened.progresses (hqueue ▸ hne.symm) (Scheduler.progresses_launch .empty rfl)
    exact (Scheduler.endures_of_handles hrun hqueue hlaunched).content
  · left
    refine ⟨hmoved, fun s hrun => ?_⟩
    have hretreat : Scheduler.Retreat setting around.stamp (around.files.placeOf
        (QueueFile.asidePath config.queue.queueFile around.stamp)) := by
      refine ⟨hstamp, by rw [FileSystem.placeOf, hcwd, hqueueFile], ?_, ?_⟩
      · rw [← hqueue]
        exact hleft.not_prefix_of_missing hgone (FileSystem.fileAt_eq_some_iff.mp haside)
      · rw [← hqueue, ← hcwd]
        exact hhome
    refine (Scheduler.salvaged_of_sequels hrun hretreat ?_).bytes
    refine salvaged_launch .empty (Scheduler.settled_nil _) hleft (hhere.trans hcwd) hqueueFile
      (hnamed _) hretreat.clear haside fun content items hcontent => ?_
    rw [← hqueue, FileSystem.fileAt_eq_none_iff.mpr (.inl hgone)] at hcontent
    cases hcontent

open Scheduler (roomyConfig act)

def spoilt : List UInt8 :=
  [0x7b]

def spoiltAround (others : List (Place × Node)) : Surroundings :=
  ⟨⟨[], (["q"], .file spoilt) :: others⟩, 0, .epoch, "20240101000000", 0⟩

theorem sound_spoiltAround {others : List (Place × Node)}
    (h : ∀ entry ∈ others, entry.1.length = 1) : (spoiltAround others).files.Sound :=
  .flat (List.forall_mem_cons.mpr ⟨rfl, h⟩)

theorem parse_spoilt : QueueFile.parse roomyConfig.queue.queueFile spoilt =
    .error (.corrupt ⟨"/q"⟩ (.malformed "not a queue document")) := by
  rfl

def spoiltLaunch : Scheduler :=
  (Scheduler.opening roomyConfig { spoiltAround [] with files := (QueueFile.moveAside
    (spoiltAround []).files ⟨"/q"⟩ (spoiltAround []).stamp).1 } .empty).launch.scheduler

/-- The moved file is given to an item as its destination, and that is deleted before the queue is
shut down. -/
def intruding : List Scheduler.Action :=
  [.operation (.enqueue "http://h/a" ⟨"/q.corrupt-20240101000000"⟩),
    .operation (.dispatch (.delete ⟨1⟩) []), .operation .commit, .shutdown]

/-- Even an item that is given the moved file as its destination does not reach it. -/
theorem kept_of_load_error_intruding :
    roomyConfig.validate = .ok () ∧ (spoiltAround []).files.Sound ∧
      QueueFile.Plain (spoiltAround []).stamp ∧
      (spoiltAround []).files.read roomyConfig.queue.queueFile = .ok spoilt ∧
      ∃ c t, start roomyConfig (spoiltAround []) = .started c ∧
        (takeUp roomyConfig ⟨(intruding.foldl act c.scheduler).files, 0, .epoch, "20240101000001",
          0⟩).scheduler? = some t ∧
        t.files.fileAt ["q.corrupt-20240101000000"] = some spoilt := by
  have hvalid : roomyConfig.validate = .ok () := by decide +kernel
  have hsound : (spoiltAround []).files.Sound := sound_spoiltAround (by simp)
  have hplain : QueueFile.Plain (spoiltAround []).stamp := by decide +kernel
  have hread : (spoiltAround []).files.read roomyConfig.queue.queueFile = .ok spoilt := rfl
  refine ⟨hvalid, hsound, hplain, hread, ?_⟩
  obtain ⟨c, hstarted, -, ⟨-, hkept⟩ | ⟨⟨failure, hfailed⟩, -⟩⟩ :=
    kept_of_load_error hvalid hsound hplain hread parse_spoilt
  · obtain rfl : c = ⟨spoiltLaunch, true, _⟩ := Startup.started.inj (hstarted.symm.trans
      ((start_of_validate hvalid).trans (takeUp_of_load_error parse_spoilt)))
    have hown : ∀ action ∈ intruding, action.Own := by simp [intruding, Scheduler.Action.Own]
    have hrun := Scheduler.sequels_foldl_act (spoiltAround []).stamp spoiltLaunch hown
    have hrestarts : (takeUp roomyConfig ⟨(intruding.foldl act spoiltLaunch).files, 0, .epoch,
        "20240101000001", 0⟩).scheduler?.isSome = true := by
      decide +kernel
    obtain ⟨t, hrestarted⟩ := Option.isSome_iff_exists.mp hrestarts
    have hplace : (spoiltAround []).files.placeOf (QueueFile.asidePath roomyConfig.queue.queueFile
        (spoiltAround []).stamp) = ["q.corrupt-20240101000000"] := by
      decide +kernel
    rw [hplace] at hkept
    refine ⟨_, t, hstarted, hrestarted, hkept t (hrun.tail (.start ?_ rfl ?_ ?_ hrestarted))⟩
    · decide +kernel
    · decide +kernel
    · decide +kernel
  · have hmoved : (QueueFile.moveAside (spoiltAround []).files roomyConfig.queue.queueFile
        (spoiltAround []).stamp).2.isOk = true := by
      decide +kernel
    rw [hfailed] at hmoved
    cases hmoved

def blockedAround : Surroundings :=
  spoiltAround [(["q.corrupt-20240101000000"], .directory)]

def blockedEnd : Scheduler :=
  [.enqueue "http://h/a" ⟨"/a"⟩, .commit].foldl Scheduler.operate
    (Scheduler.opening roomyConfig { blockedAround with files := (QueueFile.moveAside
      blockedAround.files ⟨"/q"⟩ blockedAround.stamp).1 } .empty).launch.scheduler

/-- A queue file that cannot be moved is lost with the first save. -/
theorem not_always_kept :
    (∃ failure, (QueueFile.moveAside blockedAround.files ⟨"/q"⟩ blockedAround.stamp).2 =
        .error failure) ∧
      (∀ file ∈ blockedEnd.files.files, file.2 ≠ spoilt) ∧
      ¬ ∀ (config : Config) (around : Surroundings) (bytes : List UInt8) (error : PersistenceError)
        (c : Controller) (operations : List Scheduler.Operation), config.validate = .ok () →
        around.files.Sound → QueueFile.Plain around.stamp →
        around.files.read config.queue.queueFile = .ok bytes →
        QueueFile.parse config.queue.queueFile bytes = .error error →
        start config around = .started c →
        let files := (operations.foldl Scheduler.operate c.scheduler).files
        files.fileAt (around.files.placeOf config.queue.queueFile) = some bytes ∨
          files.fileAt (around.files.placeOf
            (QueueFile.asidePath config.queue.queueFile around.stamp)) = some bytes := by
  have hlost : ∀ file ∈ blockedEnd.files.files, file.2 ≠ spoilt := by decide +kernel
  have hblocked : (QueueFile.moveAside blockedAround.files ⟨"/q"⟩ blockedAround.stamp).2.isOk =
      false := by
    decide +kernel
  refine ⟨?_, hlost, fun hkept => ?_⟩
  · cases hmoved : (QueueFile.moveAside blockedAround.files ⟨"/q"⟩ blockedAround.stamp).2 with
    | error failure => exact ⟨failure, rfl⟩
    | ok path =>
      rw [hmoved] at hblocked
      cases hblocked
  · have hvalid : roomyConfig.validate = .ok () := by decide +kernel
    have hsound : blockedAround.files.Sound := sound_spoiltAround (by simp)
    have hload : QueueFile.load blockedAround.files roomyConfig.queue.queueFile = .error _ :=
      parse_spoilt
    have hstarted := (start_of_validate hvalid).trans (takeUp_of_load_error hload)
    rcases hkept roomyConfig blockedAround spoilt _ _ [.enqueue "http://h/a" ⟨"/a"⟩, .commit] hvalid
      hsound (by decide +kernel) rfl parse_spoilt hstarted with hqueue | haside
    · have hgone : blockedEnd.files.fileAt ["q"] ≠ some spoilt := by decide +kernel
      exact hgone hqueue
    · have hgone : blockedEnd.files.fileAt ["q.corrupt-20240101000000"] ≠ some spoilt := by
        decide +kernel
      exact hgone haside

end Controller

end DownloadQueue
