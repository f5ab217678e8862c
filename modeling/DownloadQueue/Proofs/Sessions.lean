import DownloadQueue.Proofs.Numbering
import DownloadQueue.Proofs.Salvage

namespace DownloadQueue

def Ascending (items : List Item) : Prop :=
  items.Pairwise fun a b => a.id.value < b.id.value

theorem ascending_iff {items : List Item} :
    Ascending items ↔ (items.map Item.id).Pairwise fun a b => a.value < b.value := by
  rw [List.pairwise_map, Ascending]

theorem Ascending.of_sublist {items others : List Item} (h : Ascending items)
    (hsublist : (others.map Item.id).Sublist (items.map Item.id)) : Ascending others :=
  ascending_iff.mpr ((ascending_iff.mp h).sublist hsublist)

/-- A new item goes behind all others. -/
theorem Ascending.append {table : Table} (h : Ascending table.items) (hsound : table.Sound)
    {items : List Item}
    (hids : items.map Item.id = table.items.map Item.id ++ [⟨table.nextId⟩]) : Ascending items := by
  rw [ascending_iff, hids, List.pairwise_append]
  refine ⟨ascending_iff.mp h, List.pairwise_singleton _ _, fun id hmem last hlast => ?_⟩
  obtain ⟨item, hitem, rfl⟩ := List.mem_map.mp hmem
  rw [List.mem_singleton.mp hlast]
  exact UInt64.lt_iff_toNat_lt.mpr (hsound.lt_nextId item hitem)

namespace Scheduler

variable {heard : ItemId → Ending → Prop} {s t : Scheduler} {place : Place}

theorem ids_discardPartial (s : Scheduler) (id : ItemId) :
    (s.discardPartial id).table.items.map Item.id = s.table.items.map Item.id := by
  cases hget : s.table.get? id with
  | none => rw [discardPartial, hget]
  | some item => exact (discardPartial_alike hget).ids

/-- Items leave the table or stay where they are, and one that comes gets the next number. -/
theorem Change.ids (hchange : Change heard s t) :
    (t.table.items.map Item.id).Sublist (s.table.items.map Item.id) ∨
      t.table.items.map Item.id = s.table.items.map Item.id ++ [⟨s.table.nextId⟩] := by
  have hkept (hids : t.table.items.map Item.id = s.table.items.map Item.id) :
      (t.table.items.map Item.id).Sublist (s.table.items.map Item.id) ∨
        t.table.items.map Item.id = s.table.items.map Item.id ++ [⟨s.table.nextId⟩] :=
    .inl (hids ▸ List.Sublist.refl _)
  cases hchange with
  | note halike => exact hkept halike.ids
  | engage hget hqueued hfree hroom hopen => exact hkept (ids_startTransfer _ _)
  | stop hduty hstanding hlive hsuits => exact hkept (ids_setStatus _ _ _)
  | shift hstanding hlive hstatus hfree hcomplete => exact hkept (ids_setStatus _ _ _)
  | discard hget hfree hlive hpartial => exact hkept (ids_discardPartial _ _)
  | finish hduty hheard halike hstatus => exact hkept ((ids_setStatus _ _ _).trans halike.ids)
  | clear hduty hheard hstop hdiscards => exact hkept (ids_discardPartial _ _)
  | @add item next hnext hid hresolved htaken hstatus =>
    right
    rw [List.map_append, List.map_cons, List.map_nil, hid]
  | drop hkeep => exact .inl (List.filter_sublist.map _)
  | _ => exact hkept rfl

/-- A change leaves the file at a place alone, saves the queue there or removes it. -/
theorem Change.fileAt_cases (hchange : Change heard s t) (h : s.Coherent) (hsound : s.files.Sound)
    (hne : place ≠ s.files.placeOf (QueueFile.temporary s.config.queue.queueFile)) :
    t.files.fileAt place = s.files.fileAt place ∨
      t.files.fileAt place = some (QueueFile.render s.table.items) ∨
      t.files.fileAt place = none := by
  rcases hchange.files h with hfiles | hfiles | ⟨id, standing, -, -, hfiles, -⟩
  · exact .inl (by rw [hfiles])
  · rw [hfiles]
    exact (fileAt_persist hsound hne).imp_right fun hsaved => .inl hsaved.2
  · obtain ⟨hedits, hgone⟩ := FileSystem.edits_removePartial hsound standing.destination
    rw [hfiles]
    by_cases heq : place = s.files.placeOf standing.destination
    · rw [heq]
      rcases hgone with hgone | hkept
      · exact .inr (.inr hgone)
      · exact .inl (by rw [hkept])
    · exact .inl (hedits.fileAt place heq)

structure Rising (s : Scheduler) : Prop where
  coherent : s.Coherent
  sound : s.files.Sound
  table : Ascending s.table.items
  filed : ∀ content items, s.files.fileAt s.queuePlace = some content →
    QueueFile.parse s.config.queue.queueFile content = .ok items → Ascending items

/-- New items come at the end under larger numbers, and nobody changes places. -/
theorem Rising.change (h : s.Rising) (hchange : Change heard s t) : t.Rising := by
  obtain ⟨hsound, hcwd⟩ := hchange.edits h.coherent h.sound
  have hplace : t.queuePlace = s.queuePlace := by
    rw [queuePlace, queuePlace, hchange.config, FileSystem.placeOf, FileSystem.placeOf, hcwd]
  refine ⟨hchange.coherent h.coherent, hsound, ?_, fun content items hcontent hparse => ?_⟩
  · rcases hchange.ids with hsublist | hids
    · exact h.table.of_sublist hsublist
    · exact h.table.append h.coherent.sound hids
  · rw [hplace] at hcontent
    rw [hchange.config] at hparse
    have hne := QueueFile.placeOf_temporary_ne s.files s.config.queue.queueFile
    rcases hchange.fileAt_cases h.coherent h.sound hne.symm with hkept | hsaved | hgone
    · exact h.filed content items (hkept.symm.trans hcontent) hparse
    · obtain rfl := Option.some.inj (hsaved.symm.trans hcontent)
      rw [QueueFile.parse_render _ h.coherent.sound.nodup] at hparse
      cases hparse
      exact h.table.of_sublist (List.filter_sublist.map _)
    · cases hgone.symm.trans hcontent

theorem Rising.progresses (h : s.Rising) (hprogress : Relation.ReflTransGen Progresses s t) :
    t.Rising := by
  induction hprogress with
  | refl => exact h
  | tail _ hstep ih =>
    rcases hstep with hchange | ⟨inbox, rfl⟩
    · exact ih.change hchange
    · exact ⟨⟨ih.coherent.sound, ih.coherent.nodup, ih.coherent.fits⟩, ih.sound, ih.table, ih.filed⟩

/-- Others leave a tree with the working directory, and no queue but the one that was there stands in
the place of the queue file. -/
def Action.Abstains (s : Scheduler) : Action → Prop
  | .outside files _ _ _ _ => files.Sound ∧ files.cwd = s.files.cwd ∧
    ∀ content items, files.fileAt s.queuePlace = some content →
      QueueFile.parse s.config.queue.queueFile content = .ok items →
        s.files.fileAt s.queuePlace = some content
  | _ => True

/-- The step lemma, the queue file included. -/
theorem Rising.act (h : s.Rising) {action : Action} (habstains : action.Abstains s) :
    (s.act action).Rising := by
  rcases act_cases h.coherent action with ⟨-, hprogress⟩ | ⟨files, inbox, clock, now, share, rfl⟩
  · exact h.progresses hprogress
  · obtain ⟨hsound, hcwd, hqueue⟩ := habstains
    have hplace : (s.act (.outside files inbox clock now share)).queuePlace = s.queuePlace := by
      rw [queuePlace, queuePlace, FileSystem.placeOf, FileSystem.placeOf, ← hcwd]
      rfl
    refine ⟨⟨h.coherent.sound, h.coherent.nodup, h.coherent.fits⟩, hsound, h.table, ?_⟩
    intro content items hcontent hparse
    rw [hplace] at hcontent
    exact h.filed content items (hqueue content items hcontent hparse) hparse

end Scheduler

namespace Controller

open Scheduler (opening)

variable {config : Config} {around : Surroundings} {s : Scheduler}

structure Startable (config : Config) (around : Surroundings) : Prop where
  sound : around.files.Sound
  plain : QueueFile.Plain around.stamp
  home : ¬ around.files.placeOf config.queue.queueFile <+: around.files.cwd

theorem rising_launch {table : Table} (htable : table.Sound) (hascending : Ascending table.items)
    (hsound : around.files.Sound)
    (hfiled : ∀ content items,
      around.files.fileAt (around.files.placeOf config.queue.queueFile) = some content →
        QueueFile.parse config.queue.queueFile content = .ok items → Ascending items) :
    (opening config around table).launch.scheduler.Rising := by
  have hopened : (opening config around table).Rising :=
    ⟨.of_active_eq_nil htable rfl, hsound, hascending, hfiled⟩
  exact hopened.progresses (Scheduler.progresses_launch htable rfl)

/-- A session that starts from a queue file in order is in order. -/
theorem rising_of_takeUp (hstartable : Startable config around)
    (hfiled : ∀ content items,
      around.files.fileAt (around.files.placeOf config.queue.queueFile) = some content →
        QueueFile.parse config.queue.queueFile content = .ok items → Ascending items)
    (hstart : (takeUp config around).scheduler? = some s) : s.Rising := by
  cases hload : QueueFile.load around.files config.queue.queueFile with
  | error error =>
    -- the file is moved aside or stays where it is, and the session starts without items
    rw [takeUp_of_load_error hload] at hstart
    cases hstart
    obtain ⟨hleft, hhere, hgone, -⟩ :=
      QueueFile.moveAside_leaves hstartable.sound hstartable.plain hstartable.home
    refine rising_launch .empty List.Pairwise.nil hleft fun content items hcontent => ?_
    rw [FileSystem.placeOf, hhere] at hcontent
    rcases hgone with hstays | hgone
    · refine hfiled content items ?_
      rw [← hcontent, hstays]
      rfl
    · have hnever : none = some content :=
        (FileSystem.fileAt_eq_none_iff.mpr (.inl hgone)).symm.trans hcontent
      cases hnever
  | ok items =>
    obtain ⟨table, htable, rfl⟩ := scheduler_of_takeUp hload hstart
    obtain ⟨htableSound, hitems⟩ := Table.Sound.ofItems (QueueFile.nodup_of_load hload) htable
    refine rising_launch htableSound ?_ hstartable.sound hfiled
    rw [hitems]
    rw [QueueFile.load] at hload
    split at hload
    · next content hread => exact hfiled content items (FileSystem.fileAt_of_read hread) hload
    · split at hload
      · cases hload
        exact List.Pairwise.nil
      · cases hload

end Controller

namespace Scheduler

/-- A queue that was begun without items and got them by requests alone, in this session or in
earlier ones. -/
inductive Built : Scheduler → Prop
  | begin {config : Config} {around : Surroundings} {s : Scheduler}
      (hstartable : Controller.Startable config around)
      (hnone : ∀ content items,
        around.files.fileAt (around.files.placeOf config.queue.queueFile) = some content →
          QueueFile.parse config.queue.queueFile content = .ok items → items = [])
      (hstart : (Controller.takeUp config around).scheduler? = some s) : Built s
  | act {s : Scheduler} (h : Built s) {action : Action} (habstains : action.Abstains s) :
    Built (s.act action)
  | again {s t : Scheduler} (h : Built s) {config : Config} {around : Surroundings}
      (hqueueFile : config.queue.queueFile = s.config.queue.queueFile)
      (hfiles : around.files = s.files) (hstartable : Controller.Startable config around)
      (hstart : (Controller.takeUp config around).scheduler? = some t) : Built t

/-- The run lemma, over sessions that start from what the one before has saved. -/
theorem Built.rising {s : Scheduler} (h : Built s) : s.Rising := by
  induction h with
  | begin hstartable hnone hstart =>
    refine Controller.rising_of_takeUp hstartable (fun content items hcontent hparse => ?_) hstart
    rw [hnone content items hcontent hparse]
    exact List.Pairwise.nil
  | act _ habstains ih => exact ih.act habstains
  | again _ hqueueFile hfiles hstartable hstart ih =>
    refine Controller.rising_of_takeUp hstartable ?_ hstart
    rw [hfiles, hqueueFile]
    exact ih.filed

end Scheduler

namespace Table

open Scheduler (roomyConfig act)

/-- **Numbers of items.** Whatever is done to a table that was read from a queue file, its numbers are
distinct, a number that is given away is larger than all that were known, and every edit leaves all
other items where they are. The numbers of a queue that got all its items by requests rise from the
first to the last, over any number of sessions. -/
theorem numbers_of_edits {fs : FileSystem} {path : Path} {items : List Item} {table : Table}
    (hload : QueueFile.load fs path = .ok items) (htable : ofItems items = .ok table)
    {edits : List Edit} {ledger : Ledger}
    (hedits : edits.foldlM Ledger.edit ⟨table, items.map Item.id⟩ = .ok ledger) :
    ledger.Orderly ∧ ∀ s, Scheduler.Built s → Ascending s.table.items :=
  ⟨((Ledger.sound_of_load hload htable).edits hedits).orderly, fun _ hbuilt => hbuilt.rising.table⟩

def bareAround : Surroundings :=
  ⟨⟨[], []⟩, 0, .epoch, "", 0⟩

def bareLaunch : Scheduler :=
  (Scheduler.opening roomyConfig bareAround .empty).launch.scheduler

def firstSession : Scheduler :=
  [.enqueue "http://h/a" ⟨"/a"⟩, .enqueue "http://h/b" ⟨"/b"⟩, .commit].foldl Scheduler.operate
    bareLaunch

theorem built_firstSession : Scheduler.Built firstSession := by
  have hload : QueueFile.load bareAround.files roomyConfig.queue.queueFile = .ok [] := rfl
  have hstarts : (Controller.takeUp roomyConfig bareAround).scheduler?.isSome = true := by
    decide +kernel
  obtain ⟨s, hstart⟩ := Option.isSome_iff_exists.mp hstarts
  obtain ⟨table, htable, rfl⟩ := Controller.scheduler_of_takeUp hload hstart
  cases htable
  have hstartable : Controller.Startable roomyConfig bareAround := by
    refine ⟨.flat fun entry hmem => absurd hmem List.not_mem_nil, ?_, ?_⟩ <;> decide +kernel
  have hbegun : Scheduler.Built bareLaunch :=
    .begin hstartable (fun content items hcontent => by cases hcontent) hstart
  have hfirst : Scheduler.Built (act bareLaunch (.operation (.enqueue "http://h/a" ⟨"/a"⟩))) :=
    hbegun.act trivial
  have hsecond : Scheduler.Built (act _ (.operation (.enqueue "http://h/b" ⟨"/b"⟩))) :=
    hfirst.act trivial
  have hsaved : Scheduler.Built (act _ (.operation .commit)) := hsecond.act trivial
  exact hsaved

def numbered (n : UInt64) : Item :=
  .new ⟨n⟩ "http://h/a" ⟨"/a"⟩ .epoch

def spread : List Edit :=
  [.takeId, .upsert (numbered 1), .upsert (numbered 9), .takeId, .upsert (numbered 4), .remove ⟨1⟩]

theorem numbers_of_edits_spread :
    QueueFile.load bareAround.files ⟨"/q"⟩ = .ok [] ∧ ofItems [] = .ok empty ∧
      ∃ ledger, spread.foldlM Ledger.edit ⟨empty, []⟩ = .ok ledger ∧
        ledger.table.items.map Item.id = [⟨9⟩, ⟨4⟩] ∧ ledger.Orderly ∧
        ∃ t, (Controller.takeUp roomyConfig { bareAround with files := firstSession.files }).scheduler? =
          some t ∧ t.table.items.map Item.id = [⟨1⟩, ⟨2⟩] ∧ Ascending t.table.items := by
  have hload : QueueFile.load bareAround.files ⟨"/q"⟩ = .ok [] := rfl
  have hedits : spread.foldlM Ledger.edit ⟨empty, []⟩ =
      .ok ⟨⟨[numbered 9, numbered 4], 11⟩, [⟨4⟩, ⟨10⟩, ⟨9⟩, ⟨1⟩, ⟨1⟩]⟩ := rfl
  obtain ⟨horderly, hascending⟩ := numbers_of_edits hload (rfl : ofItems [] = .ok empty) hedits
  have hids : (Controller.takeUp roomyConfig
      { bareAround with files := firstSession.files }).scheduler?.map
        (fun t => t.table.items.map Item.id) = some [⟨1⟩, ⟨2⟩] := by
    decide +kernel
  obtain ⟨t, hstart, hitems⟩ := Option.map_eq_some_iff.mp hids
  refine ⟨hload, rfl, _, hedits, rfl, horderly, t, hstart, hitems, hascending t ?_⟩
  refine .again built_firstSession rfl rfl ⟨?_, ?_, ?_⟩ hstart
  · exact built_firstSession.rising.sound
  · decide +kernel
  · decide +kernel

end Table

end DownloadQueue
