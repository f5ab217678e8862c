import DownloadQueue.Proofs.Saturation

/-!
# The queue file mirrors the queue

The mark `dirty` is set by hand wherever the table changes. Here it is shown to be set whenever the
queue file has fallen behind: what a round does is noted, and a commit writes what was noted or says
that it could not. So after every round the queue file holds the items of the table that are not
deleted, apart from their progress, or a failure was told.

Two things stay as they are by design. A deleted item that the queue file held at the start stays in
it until the first save, and the last write of a shutdown does not look at the mark.
-/

namespace DownloadQueue

namespace QueueFile

theorem map_record_kept (items : List Item) :
    (kept items).map Item.record =
      (items.map Item.record).filter fun item => item.status ≠ .deleted := by
  rw [kept, List.filter_map]
  rfl

theorem kept_filter {keep : Item → Bool} {items : List Item}
    (h : ∀ item ∈ items, keep item = false → item.status = .deleted) :
    kept (items.filter keep) = kept items := by
  rw [kept, kept, List.filter_filter]
  refine List.filter_congr fun item hmem => ?_
  cases hkeep : keep item with
  | true => simp
  | false => simp [h item hmem hkeep]

def Spares (path : Path) (fs other : FileSystem) : Prop :=
  fs.Sound → other.Sound ∧ other.cwd = fs.cwd ∧
    ∀ items, load fs path = .ok items → load other path = .ok items

theorem Spares.refl (path : Path) (fs : FileSystem) : Spares path fs fs :=
  fun hsound => ⟨hsound, rfl, fun _ hload => hload⟩

theorem Spares.trans {path : Path} {fs other third : FileSystem} (h : Spares path fs other)
    (h' : Spares path other third) : Spares path fs third := by
  intro hsound
  obtain ⟨hother, hcwd, hload⟩ := h hsound
  obtain ⟨hthird, hcwd', hload'⟩ := h' hother
  exact ⟨hthird, hcwd'.trans hcwd, fun items hitems => hload' items (hload items hitems)⟩

end QueueFile

namespace Scheduler

open QueueFile (Spares)

variable {s t u : Scheduler} {id : ItemId}

/-- What the queue file is to say: the items that are not deleted, apart from their progress. -/
def ledger (s : Scheduler) : List Item :=
  (QueueFile.kept s.table.items).map Item.record

def destinations (s : Scheduler) : List Path :=
  s.table.items.map Item.destination

/-! ## Changes that are noted -/

structure Frame (s t : Scheduler) : Prop where
  config : t.config = s.config
  events : s.events <+: t.events
  files : Spares s.config.queue.queueFile s.files t.files

theorem Frame.refl (s : Scheduler) : Frame s s :=
  ⟨rfl, List.prefix_rfl, .refl _ _⟩

theorem Frame.trans (h : Frame s t) (h' : Frame t u) : Frame s u where
  config := h'.config.trans h.config
  events := h.events.trans h'.events
  files := h.files.trans (h.config ▸ h'.files)

def Noted (s t : Scheduler) : Prop :=
  t.dirty = true ∨ t.dirty = s.dirty ∧ t.ledger = s.ledger

theorem Noted.trans (h : Noted s t) (h' : Noted t u) : Noted s u := by
  rcases h' with hdirty | ⟨hdirty, hledger⟩
  · exact .inl hdirty
  · rcases h with hmarked | ⟨hsame, hkept⟩
    · exact .inl (hdirty.trans hmarked)
    · exact .inr ⟨hdirty.trans hsame, hledger.trans hkept⟩

structure Tame (s t : Scheduler) : Prop extends Frame s t where
  noted : Noted s t
  destinations : t.destinations ⊆ s.destinations

theorem Tame.refl (s : Scheduler) : Tame s s :=
  ⟨Frame.refl s, .inr ⟨rfl, rfl⟩, List.Subset.refl _⟩

theorem Tame.trans (h : Tame s t) (h' : Tame t u) : Tame s u :=
  ⟨h.toFrame.trans h'.toFrame, h.noted.trans h'.noted,
    List.Subset.trans h'.destinations h.destinations⟩

theorem Tame.of_eq (hconfig : t.config = s.config) (hevents : s.events <+: t.events)
    (hdirty : t.dirty = s.dirty) (htable : t.table = s.table) (hfiles : t.files = s.files) :
    Tame s t where
  config := hconfig
  events := hevents
  files := hfiles ▸ .refl _ _
  noted := .inr ⟨hdirty, by rw [ledger, ledger, htable]⟩
  destinations := by rw [Scheduler.destinations, htable]; exact List.Subset.refl _

theorem Tame.of_aside (h : Aside s t) : Tame s t :=
  .of_eq h.config h.events h.dirty h.table h.files

theorem tame_markDirty (s : Scheduler) : Tame s s.markDirty :=
  ⟨⟨rfl, List.prefix_rfl, .refl _ _⟩, .inl rfl, List.Subset.refl _⟩

theorem frame_modifyItem (s : Scheduler) (id : ItemId) (change : Item → Item) :
    Frame s (s.modifyItem id change) :=
  ⟨rfl, List.prefix_rfl, .refl _ _⟩

theorem destinations_modifyItem (s : Scheduler) (id : ItemId) {change : Item → Item}
    (h : ∀ item, (change item).destination = item.destination) :
    (s.modifyItem id change).destinations = s.destinations :=
  Table.map_replaceFirst Item.destination id change h s.table.items

/-- Progress is not part of what the queue file has to follow. -/
theorem tame_modifyItem (s : Scheduler) (id : ItemId) {change : Item → Item}
    (h : ∀ item, (change item).record = item.record) : Tame s (s.modifyItem id change) where
  toFrame := frame_modifyItem s id change
  noted := by
    refine .inr ⟨rfl, ?_⟩
    have hrecords := Table.map_replaceFirst Item.record id change h s.table.items
    rw [ledger, ledger, QueueFile.map_record_kept, QueueFile.map_record_kept]
    exact congrArg _ hrecords
  destinations := by
    have hdestination (item : Item) : (change item).destination = item.destination := by
      calc
        (change item).destination = (change item).record.destination := rfl
        _ = item.record.destination := by rw [h]
        _ = item.destination := rfl
    rw [destinations_modifyItem s id hdestination]
    exact List.Subset.refl _

/-- Once the mark is set, any change is noted. -/
theorem tame_modifyItem_of_dirty (hdirty : s.dirty = true) (id : ItemId) {change : Item → Item}
    (h : ∀ item, (change item).destination = item.destination) : Tame s (s.modifyItem id change) where
  toFrame := frame_modifyItem s id change
  noted := .inl hdirty
  destinations := by
    rw [destinations_modifyItem s id h]
    exact List.Subset.refl _

theorem tame_setStatus (s : Scheduler) (id : ItemId) (status : Status) :
    Tame s (s.setStatus id status) := by
  rw [setStatus]
  split
  · exact Tame.refl s
  · split
    · exact Tame.refl s
    · refine ⟨⟨rfl, List.prefix_append _ _, .refl _ _⟩, .inl rfl, ?_⟩
      have hsame : (s.modifyItem id (withStatus status)).destinations = s.destinations :=
        destinations_modifyItem s id fun _ => rfl
      exact fun destination hmem => hsame ▸ hmem

theorem dirty_setStatus {item : Item} (hget : s.table.get? id = some item) {status : Status}
    (hne : item.status ≠ status) : (s.setStatus id status).dirty = true := by
  rw [setStatus, hget]
  dsimp only
  rw [if_neg hne]
  rfl

theorem tame_cancelTimer (s : Scheduler) (id : ItemId) : Tame s (s.cancelTimer id) := by
  rw [cancelTimer]
  split
  · exact Tame.refl s
  · exact .of_eq rfl List.prefix_rfl rfl rfl rfl

def Clear (s : Scheduler) : Prop :=
  ∀ destination ∈ s.destinations,
    ¬ QueueFile.Reserved s.files.cwd s.config.queue.queueFile (s.files.placeOf destination)

instance (s : Scheduler) : Decidable s.Clear :=
  inferInstanceAs (Decidable (∀ destination ∈ s.destinations,
    ¬ (s.files.placeOf destination = Path.fold s.files.cwd s.config.queue.queueFile.components ∨
      s.files.placeOf destination =
        Path.fold s.files.cwd (QueueFile.temporary s.config.queue.queueFile).components)))

theorem Clear.of_tame (h : s.Clear) (hsound : s.files.Sound) (htame : Tame s t) : t.Clear := by
  obtain ⟨-, hcwd, -⟩ := htame.files hsound
  intro destination hmem
  rw [htame.config, FileSystem.placeOf, hcwd]
  exact h destination (htame.destinations hmem)

theorem Clear.placeOf_ne (h : s.Clear) {item : Item} (hget : s.table.get? id = some item) :
    s.files.placeOf s.config.queue.queueFile ≠ s.files.placeOf item.destination := by
  intro heq
  exact h item.destination (List.mem_map_of_mem (Table.mem_of_get? hget)) (.inl heq.symm)

/-- A partial file is not the queue file, so its removal leaves the saved queue alone. -/
theorem tame_discardPartial (h : s.Clear) (id : ItemId) : Tame s (s.discardPartial id) := by
  cases hget : s.table.get? id with
  | none =>
    rw [discardPartial, hget]
    exact Tame.refl s
  | some item =>
    have hfiles : Spares s.config.queue.queueFile s.files
        ((s.files.removePartial item.destination).toOption.getD s.files) := by
      intro hsound
      obtain ⟨hedits, -⟩ := FileSystem.edits_removePartial hsound item.destination
      exact ⟨hedits.sound, hedits.cwd,
        fun items hload => QueueFile.load_removePartial hsound (h.placeOf_ne hget) hload⟩
    rw [discardPartial, hget]
    refine Tame.trans ?_ (tame_markDirty _)
    refine Tame.trans ?_ (tame_modifyItem _ id fun _ => rfl)
    exact ⟨⟨rfl, List.prefix_rfl, hfiles⟩, .inr ⟨rfl, rfl⟩, List.Subset.refl _⟩

variable {may : Deed → Prop}

/-- The number of attempts grows before the new status sets the mark. -/
theorem tame_again {item : Item} (hget : s.table.get? id = some item)
    (hfailed : item.status = .failed) (attempts : UInt32) :
    Tame s ((s.modifyItem id fun item => { item with attempts }).setStatus id .queued) := by
  have hmodified : (s.table.modify id fun item => { item with attempts }).get? id =
      some { item with attempts } := by
    rw [Table.get?_modify_self s.table id (fun item => { item with attempts }) fun _ => rfl, hget,
      Option.map_some]
  have hsame : (s.modifyItem id fun item => { item with attempts }).destinations = s.destinations :=
    destinations_modifyItem s id fun _ => rfl
  have hframe := frame_modifyItem s id fun item => { item with attempts }
  change (s.modifyItem id fun item => { item with attempts }).table.get? id = _ at hmodified
  generalize (s.modifyItem id fun item => { item with attempts }) = t at hmodified hsame hframe ⊢
  have hstatus := tame_setStatus t id .queued
  exact ⟨hframe.trans hstatus.toFrame, .inl (dirty_setStatus hmodified (by simp [hfailed])),
    hsame ▸ hstatus.destinations⟩

/-- No stroke changes what the queue file is to say without the mark being set. -/
theorem Stroke.tame (hstroke : Stroke may s t) (hclear : may .discard → s.Clear) : Tame s t := by
  cases hstroke with
  | aside haside => exact .of_aside haside
  | mark => exact tame_markDirty s
  | measure _ _ h => exact tame_modifyItem s _ h
  | shift h => exact tame_setStatus s _ _
  | drop h =>
    -- deleted items are left out of the queue file
    refine ⟨⟨rfl, List.prefix_rfl, .refl _ _⟩, .inr ⟨rfl, ?_⟩, (List.filter_sublist.map _).subset⟩
    exact congrArg (List.map Item.record) (QueueFile.kept_filter h)
  | clear keep => exact ⟨⟨rfl, List.prefix_rfl, .refl _ _⟩, .inl rfl, (List.filter_sublist.map _).subset⟩
  | halt => exact tame_cancelTimer s _
  | haltAll => exact .of_eq rfl List.prefix_rfl rfl rfl rfl
  | discard hmay => exact tame_discardPartial (hclear hmay) _
  | @fail _ id hmay item hget hstatus reason =>
    -- the reason comes in after the new status has set the mark
    have hdirty := dirty_setStatus hget hstatus
    exact (tame_setStatus s id .failed).trans (tame_modifyItem_of_dirty hdirty id fun _ => rfl)
  | @schedule id hmay delay =>
    exact (tame_cancelTimer s id).trans (.of_eq rfl List.prefix_rfl rfl rfl rfl)
  | forget => exact .of_eq rfl List.prefix_rfl rfl rfl rfl
  | again hmay hget hstatus attempts => exact tame_again hget hstatus attempts

/-- Where files are thrown away, the queue file must not be among them. -/
theorem Strokes.tame (hstrokes : Strokes may s t) (hsound : s.files.Sound)
    (hclear : may .discard → s.Clear) : Tame s t := by
  induction hstrokes with
  | refl => exact Tame.refl s
  | tail _ hstroke ih =>
    exact ih.trans (hstroke.tame fun hmay => (hclear hmay).of_tame hsound ih)

theorem tame_handleMessage (hcoherent : s.Coherent) (hclear : s.Clear) (hsound : s.files.Sound)
    (message : Message) : Tame s (s.handleMessage message).scheduler := by
  have hstrokes : Strokes (fun _ => True) s (s.handleMessage message).scheduler :=
    strokes_handleMessage hcoherent trivial message fun _ => trivial
  exact hstrokes.tame hsound fun _ => hclear

theorem tame_inbox (s : Scheduler) (inbox : List Message) : Tame s { s with inbox } :=
  .of_eq rfl List.prefix_rfl rfl rfl rfl

theorem tame_drain (horderly : s.Orderly) (hclear : s.Clear) (hsound : s.files.Sound)
    {ended : List ItemId} (hdrain : s.drain = .done u ended) : Tame s u := by
  have hboth : u.Orderly ∧ Tame s u := by
    refine drain_induction (p := fun u => u.Orderly ∧ Tame s u) ?_ ?_ hdrain
      ⟨horderly, Tame.refl s⟩
    · exact fun u inbox hu => ⟨orderly_inbox hu.1 inbox, hu.2.trans (tame_inbox u inbox)⟩
    · intro u v message hu hdone
      have hmessage := tame_handleMessage hu.1.coherent (hclear.of_tame hsound hu.2)
        (hu.2.files hsound).1 message
      rw [hdone] at hmessage
      exact ⟨orderly_handleMessage hu.1 hdone, hu.2.trans hmessage⟩
  exact hboth.2

theorem frame_addItem (s : Scheduler) (url : String) (destination : Path) (status : Option Status) :
    Frame s (s.addItem url destination status).scheduler := by
  rw [addItem]
  split
  · exact Frame.refl s
  · dsimp only
    split <;> exact ⟨rfl, List.prefix_append _ _, .refl _ _⟩

theorem frame_addEntries (entries : List TextQueue.Entry) (count : Nat) (s : Scheduler) :
    Frame s (s.addEntries count entries).scheduler := by
  induction entries generalizing s count with
  | nil => exact Frame.refl s
  | cons entry entries ih =>
    rw [addEntries]
    split
    · exact ih count s
    · next resolved _ =>
      have hadd := frame_addItem s entry.url resolved entry.status
      rw [Step.andThen]
      split
      · exact hadd.trans (ih _ _)
      · exact hadd

/-- An admission throws nothing away. -/
theorem tame_tick (hsound : s.files.Sound) (htable : s.table.Sound) : Tame s s.tick := by
  have hstrokes : Strokes (fun _ => False) s s.tick := strokes_tick htable
  exact hstrokes.tame hsound False.elim

/-- New items are followed by the mark. -/
theorem noted_markDirty_tick (h : Frame s t) (hsound : s.files.Sound) (htable : t.table.Sound) :
    Frame s t.markDirty.tick ∧ Noted s t.markDirty.tick := by
  have htick : Tame t.markDirty t.markDirty.tick :=
    tame_tick (s := t.markDirty) (h.files hsound).1 htable
  refine ⟨(h.trans (tame_markDirty t).toFrame).trans htick.toFrame, .inl ?_⟩
  rcases htick.noted with hdirty | ⟨hdirty, -⟩
  · exact hdirty
  · exact hdirty

theorem noted_enqueue (hcoherent : s.Coherent) (hsound : s.files.Sound) {url : String}
    {destination : Path} {result : Except QueueError ItemId}
    (hdone : s.enqueue url destination = .done u result) : Frame s u ∧ Noted s u := by
  rw [enqueue] at hdone
  split at hdone
  · obtain ⟨rfl, -⟩ := Step.eq_done_iff.mp hdone
    exact ⟨Frame.refl _, .inr ⟨rfl, rfl⟩⟩
  · next resolved hnew =>
    have hadd := frame_addItem s url resolved none
    have hchain : Chain (fun _ _ => True) s (s.addItem url resolved none).scheduler :=
      chain_addItem hcoherent url hnew (.inl rfl)
    obtain ⟨v, id, hadded, hticked⟩ := Step.andThen_eq_done.mp hdone
    rw [hadded] at hadd hchain
    obtain ⟨rfl, -⟩ := Step.eq_done_iff.mp hticked
    exact noted_markDirty_tick hadd hsound (hchain.coherent hcoherent).sound

/-- However many entries are accepted, the mark is set before the round saves. -/
theorem noted_addAll (hcoherent : s.Coherent) (hsound : s.files.Sound)
    {entries : List TextQueue.Entry} (hplain : ∀ entry ∈ entries, entry.Plain) {count : Nat}
    (hdone : s.addAll entries = .done u count) : Frame s u ∧ Noted s u := by
  have hadd := frame_addEntries entries 0 s
  have hchain : Chain (fun _ _ => True) s (s.addEntries 0 entries).scheduler :=
    chain_addEntries hcoherent 0 entries hplain
  obtain ⟨v, added, hadded, hrest⟩ := Step.andThen_eq_done.mp hdone
  rw [hadded] at hadd hchain
  obtain ⟨rfl, -⟩ := Step.eq_done_iff.mp hrest
  change Frame s (if 0 < added then v.markDirty.tick else v) ∧
    Noted s (if 0 < added then v.markDirty.tick else v)
  by_cases hsome : 0 < added
  · rw [if_pos hsome]
    exact noted_markDirty_tick hadd hsound (hchain.coherent hcoherent).sound
  · rw [if_neg hsome, (addEntries_eq_done hadded).2 (by omega)]
    exact ⟨Frame.refl s, .inr ⟨rfl, rfl⟩⟩

/-- What a round does before it commits is noted. -/
theorem Effort.noted (heffort : Effort s u) (horderly : s.Orderly) (hclear : s.Clear)
    (hsound : s.files.Sound) : Frame s u ∧ Noted s u := by
  have htame {v : Scheduler} (h : Tame s v) : Frame s v ∧ Noted s v := ⟨h.toFrame, h.noted⟩
  have hafter {v w : Scheduler} (h : Tame s v) (h' : Frame v w ∧ Noted v w) :
      Frame s w ∧ Noted s w := ⟨h.toFrame.trans h'.1, h.noted.trans h'.2⟩
  have hdrained {v : Scheduler} {ended : List ItemId} (hdrain : s.drain = .done v ended) :
      Tame s v ∧ v.Coherent ∧ v.files.Sound := by
    have htame := tame_drain horderly hclear hsound hdrain
    exact ⟨htame, (orderly_drain horderly hdrain).coherent, (htame.files hsound).1⟩
  cases heffort with
  | @message message messages u hinbox hdone =>
    have htaken := tame_inbox s messages
    have hhandled := tame_handleMessage (orderly_inbox horderly messages).coherent
      (hclear.of_tame hsound htaken) hsound message
    rw [hdone] at hhandled
    exact htame (htaken.trans hhandled)
  | @retry id ids u hretries hdone =>
    have htaken : Tame s { s with retries := ids } := .of_eq rfl List.prefix_rfl rfl rfl rfl
    have hcoherent : ({ s with retries := ids } : Scheduler).Coherent :=
      ⟨horderly.coherent.sound, horderly.coherent.nodup, horderly.coherent.fits⟩
    have hstrokes : Strokes (fun deed => deed = .again id) { s with retries := ids }
        (({ s with retries := ids } : Scheduler).handleRetry id).scheduler :=
      strokes_handleRetry hcoherent rfl
    have hhandled := hstrokes.tame hsound (fun hdiscard => by cases hdiscard)
    rw [hdone] at hhandled
    exact htame (htaken.trans hhandled)
  | enqueue hdrain hdone =>
    obtain ⟨hbefore, hcoherent, hfiles⟩ := hdrained hdrain
    exact hafter hbefore (noted_enqueue hcoherent hfiles hdone)
  | addAll hdrain hplain hdone =>
    obtain ⟨hbefore, hcoherent, hfiles⟩ := hdrained hdrain
    exact hafter hbefore (noted_addAll hcoherent hfiles hplain hdone)
  | @dispatch v w ended hdrain command verdict hdone =>
    obtain ⟨hbefore, hcoherent, hfiles⟩ := hdrained hdrain
    obtain ⟨x, verdict, happlied, hjudged⟩ := Step.andThen_eq_done.mp hdone
    obtain ⟨rfl, -⟩ := Step.eq_done_iff.mp hjudged
    have hstrokes : Strokes (fun _ => True) v (v.apply command).scheduler :=
      strokes_apply hcoherent (fun _ _ => trivial) fun _ _ => trivial
    rw [happlied] at hstrokes
    exact htame (hbefore.trans (hstrokes.tame hfiles fun _ => hclear.of_tame hsound hbefore))

/-! ## Commits -/

def TellsFailure (s t : Scheduler) : Prop :=
  ∃ told message, t.events = s.events ++ told ∧ Event.persistenceFailed message ∈ told

/-- The queue file holds what it is to say. It holds no deleted items, unless it is still as it was
when it was opened. -/
def Mirrors (opened : List Item) (s : Scheduler) : Prop :=
  ∃ items, QueueFile.load s.files s.config.queue.queueFile = .ok items ∧
    (QueueFile.kept items).map Item.record = s.ledger ∧
    (QueueFile.kept items = items ∨ items = opened)

/-- Where the mark is not set, the queue file has not fallen behind. -/
structure Backed (opened : List Item) (s : Scheduler) : Prop where
  sound : s.files.Sound
  mirrors : s.dirty = false → s.Mirrors opened

variable {opened : List Item}

theorem TellsFailure.mono (hevents : s.events <+: t.events) (h : TellsFailure t u) :
    TellsFailure s u := by
  obtain ⟨told, message, hu, hmem⟩ := h
  obtain ⟨before, ht⟩ := hevents
  refine ⟨before ++ told, message, ?_, List.mem_append_right before hmem⟩
  rw [hu, ← ht, List.append_assoc]

theorem Backed.of_noted (h : s.Backed opened) (hframe : Frame s t) (hnoted : Noted s t) :
    t.Backed opened := by
  obtain ⟨hsound, -, hkept⟩ := hframe.files h.sound
  refine ⟨hsound, fun hclean => ?_⟩
  rcases hnoted with hdirty | ⟨hdirty, hledger⟩
  · rw [hdirty] at hclean
    cases hclean
  · obtain ⟨items, hload, hrecords, hopened⟩ := h.mirrors (hdirty ▸ hclean)
    refine ⟨items, ?_, hrecords.trans hledger.symm, hopened⟩
    rw [hframe.config]
    exact hkept items hload

theorem kept_kept (items : List Item) : QueueFile.kept (QueueFile.kept items) = QueueFile.kept items := by
  rw [QueueFile.kept, List.filter_eq_self]
  exact fun item hmem => (List.mem_filter.mp hmem).2

theorem dirty_dropDeleted (s : Scheduler) : s.dropDeleted.2.dirty = s.dirty := by
  have hemit (entries : List Item) (t : Scheduler) :
      (entries.foldl (fun s item => s.emit (.removed item.id)) t).dirty = t.dirty := by
    induction entries generalizing t with
    | nil => rfl
    | cons item entries ih => exact ih _
  exact hemit _ _

/-- What was written is what the queue file is to say. -/
theorem mirrors_persist (hsound : s.files.Sound) (hnodup : s.table.Sound)
    (hsaved : s.persist.2 = .ok ()) : s.persist.1.Mirrors opened := by
  have hread := (QueueFile.edits_save hsound s.config.queue.queueFile s.table.items).2 hsaved
  refine ⟨QueueFile.kept s.table.items, QueueFile.load_of_read hnodup.nodup hread, ?_, .inl ?_⟩
  · rw [kept_kept]
    rfl
  · exact kept_kept _

theorem sound_persist (hsound : s.files.Sound) : s.persist.1.files.Sound :=
  (QueueFile.edits_save hsound s.config.queue.queueFile s.table.items).1.sound

/-- Pending changes are written, or it is told that they could not be and they stay pending. -/
theorem durable_saveChanges (h : s.Backed opened) (hnodup : s.table.Sound) :
    s.saveChanges.Backed opened ∧
      (TellsFailure s s.saveChanges ∧ s.saveChanges.dirty = true ∨ s.saveChanges.Mirrors opened) := by
  rw [saveChanges]
  by_cases hdirty : s.dirty = true
  · rw [if_pos hdirty]
    have hsound := sound_persist h.sound
    have hwritten : s.persist.2 = .ok () → s.persist.1.Mirrors opened :=
      mirrors_persist h.sound hnodup
    have hevents : s.persist.1.events = s.events := rfl
    have hmarked : s.persist.1.dirty = true := hdirty
    generalize s.persist = saved at hsound hwritten hevents hmarked
    obtain ⟨v, result⟩ := saved
    cases result with
    | ok value =>
      have hclean : ({ v with dirty := false } : Scheduler).Backed opened :=
        ⟨hsound, fun _ => hwritten rfl⟩
      have hstrokes : Strokes (fun _ => False) { v with dirty := false } _ := strokes_dropDeleted _
      have hdrop := hstrokes.tame hsound False.elim
      have hbacked := hclean.of_noted hdrop.toFrame hdrop.noted
      exact ⟨hbacked, .inr (hbacked.mirrors (dirty_dropDeleted _))⟩
    | error error =>
      have htold : (v.tellFailure error).events =
          s.events ++ [.persistenceFailed (QueueError.persistence error).message] := by
        rw [← hevents]
        rfl
      refine ⟨⟨hsound, fun hclean => ?_⟩, .inl ⟨⟨_, _, htold, List.mem_cons_self⟩, hmarked⟩⟩
      change v.dirty = false at hclean
      rw [hmarked] at hclean
      cases hclean
  · rw [if_neg hdirty]
    exact ⟨h, .inr (h.mirrors (by simpa using hdirty))⟩

theorem durable_commit (h : s.Backed opened) (hnodup : s.table.Sound)
    (hdone : s.commit = .done t ()) :
    t.Backed opened ∧ (TellsFailure s t ∧ t.dirty = true ∨ t.Mirrors opened) := by
  obtain ⟨snapshot, -, rfl⟩ := publish_eq_done hdone
  obtain ⟨hbacked, houtcome⟩ := durable_saveChanges h hnodup
  exact ⟨⟨hbacked.sound, hbacked.mirrors⟩, houtcome⟩

theorem tame_beginShutdown (h : s.Coherent) (hsound : s.files.Sound) : Tame s s.beginShutdown := by
  have hstrokes : Strokes (fun _ => False) s s.beginShutdown := strokes_beginShutdown h
  exact hstrokes.tame hsound False.elim

theorem tame_awaitWorkers (horderly : s.Orderly) (hclear : s.Clear) (hsound : s.files.Sound)
    {messages : List Message} (hdone : s.awaitWorkers messages = .done u ()) :
    u.Orderly ∧ Tame s u := by
  refine awaitWorkers_induction (p := fun u => u.Orderly ∧ Tame s u) ?_ ?_ hdone
    ⟨horderly, Tame.refl s⟩
  · exact fun u inbox hu => ⟨orderly_inbox hu.1 inbox, hu.2.trans (tame_inbox u inbox)⟩
  · intro u v message hu hdone
    have hmessage := tame_handleMessage hu.1.coherent (hclear.of_tame hsound hu.2)
      (hu.2.files hsound).1 message
    rw [hdone] at hmessage
    exact ⟨orderly_handleMessage hu.1 hdone, hu.2.trans hmessage⟩

theorem tame_abandonAll (h : s.Coherent) (hstopping : s.Stopping) (hsound : s.files.Sound) :
    Tame s s.abandonAll ∧ s.abandonAll.table.Sound := by
  have hstrokes : Strokes (fun _ => False) s s.abandonAll := strokes_abandonAll h hstopping
  exact ⟨hstrokes.tame hsound False.elim, hstrokes.sound h.sound⟩

/-- The last write succeeds, or it is told that it failed. -/
theorem durable_concludeShutdown (hsound : s.files.Sound) (hnodup : s.table.Sound)
    {result : Except QueueError Unit} (hdone : s.concludeShutdown = .done t result) :
    TellsFailure s t ∨ t.Mirrors opened := by
  have hwritten : s.persist.2 = .ok () → s.persist.1.Mirrors opened := mirrors_persist hsound hnodup
  have hevents : s.persist.1.events = s.events := rfl
  rw [concludeShutdown] at hdone
  generalize s.persist = saved at hwritten hevents hdone
  obtain ⟨v, saved⟩ := saved
  cases saved with
  | ok value =>
    obtain ⟨w, ⟨⟩, hpublished, hrest⟩ := Step.andThen_eq_done.mp hdone
    obtain ⟨snapshot, -, rfl⟩ := publish_eq_done hpublished
    obtain ⟨rfl, -⟩ := Step.eq_done_iff.mp hrest
    exact .inr (hwritten rfl)
  | error error =>
    obtain ⟨w, ⟨⟩, hpublished, hrest⟩ := Step.andThen_eq_done.mp hdone
    obtain ⟨snapshot, -, rfl⟩ := publish_eq_done hpublished
    obtain ⟨rfl, -⟩ := Step.eq_done_iff.mp hrest
    have htold : (v.tellFailure error).events ++ [.shutdown] = s.events ++
        [.persistenceFailed (QueueError.persistence error).message, .shutdown] := by
      rw [← hevents]
      exact List.append_assoc _ _ _
    exact .inl ⟨_, _, htold, List.mem_cons_self⟩

/-- A shutdown saves whether or not the mark is set, and tells of it if it cannot. -/
theorem durable_shutdown (horderly : s.Orderly) (hclear : s.Clear) (hsound : s.files.Sound)
    {result : Except QueueError Unit} (hdone : s.shutdown = .done t result) :
    TellsFailure s t ∨ t.Mirrors opened := by
  obtain ⟨u, hawait, hconclude⟩ := shutdown_eq_done hdone
  have hbegin := tame_beginShutdown horderly.coherent hsound
  have hbegun : s.beginShutdown.Orderly :=
    .of_chain (chain_beginShutdown horderly.coherent) horderly
  obtain ⟨hheard, hawaited⟩ := tame_awaitWorkers hbegun (hclear.of_tame hsound hbegin)
    (hbegin.files hsound).1 hawait
  have htrail : Trail (fun _ _ => True) s.beginShutdown
      (s.beginShutdown.awaitWorkers s.beginShutdown.inbox).scheduler :=
    trail_awaitWorkers (fun _ _ => trivial) hbegun.coherent _
  rw [hawait] at htrail
  have hstopping : u.Stopping := htrail.stopping (stopping_beginShutdown s)
  obtain ⟨habandon, hnodup⟩ := tame_abandonAll hheard.coherent hstopping
    ((hbegin.trans hawaited).files hsound).1
  have htame : Tame s u.abandonAll := (hbegin.trans hawaited).trans habandon
  exact (durable_concludeShutdown (htame.files hsound).1 hnodup hconclude).imp_left
    (TellsFailure.mono htame.events)

/-! ## Runs -/

def Unwritten (path : Path) (fs other : FileSystem) : Prop :=
  other.Sound ∧ other.cwd = fs.cwd ∧ other.read path = fs.read path

/-- A run in which nobody else writes the queue file, and no item is to be put in its place. -/
abbrev ClearRun : Scheduler → Scheduler → Prop :=
  Relation.ReflTransGen fun s t =>
    s.Clear ∧ Turn s t ∨ Outside (Unwritten s.config.queue.queueFile) s t

/-- One round: what it changed was saved at its end, or a failure was told and the mark stays. -/
theorem Turn.durable (hturn : Turn s t) (horderly : s.Orderly) (hclear : s.Clear)
    (h : s.Backed opened) :
    (t.shuttingDown = false → t.Backed opened) ∧
      (TellsFailure s t ∧ (t.dirty = true ∨ t.shuttingDown = true) ∨ t.Mirrors opened) := by
  rcases hturn.cases with ⟨u, heffort, hcommit⟩ | ⟨u, ended, result, hdrain, hshutdown⟩
  · obtain ⟨hframe, hnoted⟩ := heffort.noted horderly hclear h.sound
    obtain ⟨hbacked, houtcome⟩ := durable_commit (h.of_noted hframe hnoted)
      (heffort.orderly horderly).coherent.sound hcommit
    refine ⟨fun _ => hbacked, houtcome.imp_left fun hfailed => ?_⟩
    exact ⟨hfailed.1.mono hframe.events, .inl hfailed.2⟩
  · have hdrained := tame_drain horderly hclear h.sound hdrain
    have hdrainedOrderly := orderly_drain horderly hdrain
    have hclosed := (stopping_shutdown hdrainedOrderly.coherent hshutdown).closed
    have houtcome : TellsFailure u t ∨ t.Mirrors opened :=
      durable_shutdown hdrainedOrderly (hclear.of_tame h.sound hdrained) (hdrained.files h.sound).1
        hshutdown
    refine ⟨fun hopen => ?_, houtcome.imp_left fun hfailed => ?_⟩
    · rw [hclosed] at hopen
      cases hopen
    · exact ⟨hfailed.mono hdrained.events, .inr hclosed⟩

theorem Outside.backed (houtside : Outside (Unwritten s.config.queue.queueFile) s t)
    (h : s.Backed opened) : t.Backed opened := by
  obtain ⟨⟨hsound, -, hread⟩⟩ := houtside
  refine ⟨hsound, fun hclean => ?_⟩
  obtain ⟨items, hload, hrecords, hopened⟩ := h.mirrors hclean
  refine ⟨items, ?_, hrecords, hopened⟩
  rw [QueueFile.load] at hload ⊢
  rwa [hread]

theorem ClearRun.backed (hrun : ClearRun s t) (horderly : s.Orderly) (h : s.Backed opened) :
    t.Orderly ∧ (t.shuttingDown = false → t.Backed opened) := by
  induction hrun with
  | refl => exact ⟨horderly, fun _ => h⟩
  | tail _ hstep ih =>
    rcases hstep with ⟨hclear, hturn⟩ | houtside
    · refine ⟨hturn.orderly ih.1, (hturn.durable ih.1 hclear (ih.2 ?_)).1⟩
      cases hturn <;> assumption
    · refine ⟨houtside.orderly ih.1, fun hopen => houtside.backed (ih.2 ?_)⟩
      cases houtside
      exact hopen

/-- The base case: the queue file says what was loaded, and what the start changed was saved unless
a failure was told. -/
theorem durable_start {config : Config} {around : Surroundings} {c : Controller}
    (hsound : around.files.Sound)
    (hload : QueueFile.load around.files config.queue.queueFile = .ok opened)
    (hstart : Controller.start config around = .started c) :
    c.scheduler.Backed opened ∧
      ((∃ message, .persistenceFailed message ∈ c.scheduler.events) ∧ c.scheduler.dirty = true ∨
        c.scheduler.Mirrors opened) := by
  obtain ⟨files, table, hnodup, hlaunch, hopened⟩ := Controller.scheduler_of_start hstart
  obtain ⟨rfl, hitems⟩ := hopened opened hload
  generalize hfirst : ({ Scheduler.ofTable config table around.files around.now around.share with
    clock := around.clock } : Scheduler) = s at hlaunch
  have htable : s.table = table := by rw [← hfirst]; rfl
  have hevents : s.events = [] := by rw [← hfirst]; rfl
  have hidle : s.active = [] := by rw [← hfirst]; rfl
  have hbacked : s.Backed opened := by
    rw [← hfirst]
    refine ⟨hsound, fun _ => ⟨opened, hload, ?_, .inr rfl⟩⟩
    exact congrArg (fun items => (QueueFile.kept items).map Item.record) hitems.symm
  rw [← htable] at hnodup
  have hrestored := orderly_restore hnodup hidle
  have hstrokes : Strokes (fun _ => False) s s.restore.tick :=
    (strokes_restore hnodup hidle).tick hnodup
  have hbegun := hstrokes.tame hbacked.sound False.elim
  have hticked : s.restore.tick.Orderly :=
    .of_chain (chain_tick hrestored.coherent) hrestored
  obtain ⟨hafter, houtcome⟩ := durable_commit (hbacked.of_noted hbegun.toFrame hbegun.noted)
    hticked.coherent.sound hlaunch
  refine ⟨hafter, houtcome.imp_left fun hfailed => ⟨?_, hfailed.2⟩⟩
  obtain ⟨told, message, htold, hmem⟩ := hfailed.1.mono hbegun.events
  rw [hevents, List.nil_append] at htold
  exact ⟨message, htold ▸ hmem⟩

/-- After the start and after every round the queue file holds the items of the table that are not
deleted, apart from their progress, or a failure to write it was told and the changes stay pending.
Whatever a round changes in those items is noted before its commit. -/
theorem mirrors_of_run {config : Config} {around : Surroundings} {c : Controller}
    (hsound : around.files.Sound)
    (hload : QueueFile.load around.files config.queue.queueFile = .ok opened)
    (hstart : Controller.start config around = .started c) :
    ((∃ message, .persistenceFailed message ∈ c.scheduler.events) ∧ c.scheduler.dirty = true ∨
        c.scheduler.Mirrors opened) ∧
      ∀ s, ClearRun c.scheduler s → s.shuttingDown = false → s.Clear →
        (∀ u, Effort s u → u.ledger ≠ s.ledger → u.dirty = true) ∧
        ∀ t, Turn s t →
          TellsFailure s t ∧ (t.dirty = true ∨ t.shuttingDown = true) ∨ t.Mirrors opened := by
  obtain ⟨hbacked, hstarted⟩ := durable_start hsound hload hstart
  refine ⟨hstarted, fun s hrun hopen hclear => ?_⟩
  obtain ⟨horderly, hkept⟩ := ClearRun.backed hrun (Controller.orderly_of_start hstart) hbacked
  refine ⟨fun u heffort hchanged => ?_, fun t hturn => ?_⟩
  · obtain ⟨-, hnoted⟩ := heffort.noted horderly hclear (hkept hopen).sound
    exact hnoted.resolve_right fun hsame => hchanged hsame.2
  · exact (hturn.durable horderly hclear (hkept hopen)).2

/-- The cancelled transfer of the roomy queue is written down. -/
theorem mirrors_of_run_roomy :
    roomyFiles.Sound ∧ QueueFile.load roomyFiles ⟨"/q"⟩ = .ok [cutOff] ∧
      Controller.start roomyConfig ⟨roomyFiles, 0, .epoch, "", 0⟩ =
        .started ⟨roomyLaunch.scheduler, true, none⟩ ∧
      roomyLaunch.scheduler.Clear ∧ Turn roomyLaunch.scheduler roomyCancel.scheduler ∧
      roomyCancel.scheduler.ledger = [{ cutOff with status := .queued, bytesDownloaded := 0 }] ∧
      roomyCancel.scheduler.Mirrors [cutOff] := by
  have hsound : roomyFiles.Sound := .flat (by simp)
  obtain ⟨hstart, hturn⟩ := roomyCancel_turn
  have hclear : roomyLaunch.scheduler.Clear := by decide +kernel
  have hledger : roomyCancel.scheduler.ledger =
      [{ cutOff with status := .queued, bytesDownloaded := 0 }] := by decide +kernel
  have hclean : roomyCancel.scheduler.dirty = false ∧ roomyCancel.scheduler.shuttingDown = false := by
    decide +kernel
  have hmirrors := @mirrors_of_run [cutOff] roomyConfig ⟨roomyFiles, 0, .epoch, "", 0⟩ _ hsound
    load_roomyFiles hstart
  have hrun := hmirrors.2 _ .refl (by decide +kernel) hclear
  refine ⟨hsound, load_roomyFiles, hstart, hclear, hturn, hledger, (hrun.2 _ hturn).resolve_left ?_⟩
  rintro ⟨-, hdirty | hclosed⟩
  · rw [hclean.1] at hdirty
    cases hdirty
  · rw [hclean.2] at hclosed
    cases hclosed

/-! ## Where the queue file stays behind -/

def gone : Item :=
  { Item.new ⟨3⟩ "http://h/a" ⟨"/d/a"⟩ .epoch with status := .deleted }

def goneFiles : FileSystem :=
  ⟨[], [(["q"], .file (Json.encodeUtf8
    (QueueFile.Document.toJson ⟨QueueFile.formatVersion, [gone]⟩).pretty))]⟩

def goneLaunch : Step Unit :=
  (Scheduler.ofTable roomyConfig ⟨[gone], 4⟩ goneFiles .epoch 0).launch

def steepConfig : Config :=
  { queue := { queueFile := ⟨"/a/.."⟩ } }

def steepLaunch : Step Unit :=
  (Scheduler.ofTable steepConfig .empty .empty .epoch 0).launch

def steepShutdown : Step (Except QueueError Reply) :=
  steepLaunch.scheduler.request .shutdown

theorem load_goneFiles : QueueFile.load goneFiles ⟨"/q"⟩ = .ok [gone] := by
  have hread : goneFiles.read ⟨"/q"⟩ = .ok (Json.encodeUtf8
      (QueueFile.Document.toJson ⟨QueueFile.formatVersion, [gone]⟩).pretty) := rfl
  rw [QueueFile.load, hread]
  have hnodup : ([gone].map Item.id).Nodup := List.nodup_singleton gone.id
  exact QueueFile.parse_pretty _ hnodup

theorem dispatch_purge (s : Scheduler) (ended : List ItemId) :
    s.dispatch .purge ended =
      .done s.dropDeleted.2 (.ok (.removed (UInt64.ofNat s.dropDeleted.1))) :=
  rfl

/-- A deleted item of the opened file stays there until the first save; it leaves the table without
a note; and the last write of a shutdown may fail while nothing is pending. -/
theorem not_exactly_kept :
    (¬ ∀ (config : Config) (around : Surroundings) (c : Controller) (opened : List Item),
      around.files.Sound → QueueFile.load around.files config.queue.queueFile = .ok opened →
      Controller.start config around = .started c →
      (∃ message, .persistenceFailed message ∈ c.scheduler.events) ∧ c.scheduler.dirty = true ∨
        ∃ items, QueueFile.load c.scheduler.files config.queue.queueFile = .ok items ∧
          items.map Item.record = c.scheduler.ledger) ∧
    (∃ u, Effort goneLaunch.scheduler u ∧ u.table.items ≠ goneLaunch.scheduler.table.items ∧
      u.dirty = false) ∧
    ∃ t, Turn steepLaunch.scheduler t ∧ t.dirty = false ∧
      (QueueFile.load t.files steepConfig.queue.queueFile).isOk = false := by
  have hlaunch : goneLaunch.result.isOk = true := by decide +kernel
  have hstart : Controller.start roomyConfig ⟨goneFiles, 0, .epoch, "", 0⟩ =
      .started ⟨goneLaunch.scheduler, true, none⟩ :=
    Controller.start_eq_started (by decide +kernel) load_goneFiles rfl (Step.eq_done_of_isOk hlaunch)
  refine ⟨fun hexact => ?_, ?_, ?_⟩
  · have hsound : goneFiles.Sound := .flat (by simp)
    have hclean : goneLaunch.scheduler.dirty = false := by decide +kernel
    have hledger : goneLaunch.scheduler.ledger = [] := by decide +kernel
    have hfiles : goneLaunch.scheduler.files = goneFiles := by rfl
    rcases hexact roomyConfig ⟨goneFiles, 0, .epoch, "", 0⟩ _ [gone] hsound load_goneFiles hstart with
      ⟨-, hdirty⟩ | ⟨items, hload, hrecords⟩
    · rw [hclean] at hdirty
      cases hdirty
    · rw [hfiles] at hload
      change QueueFile.load goneFiles ⟨"/q"⟩ = _ at hload
      rw [load_goneFiles] at hload
      cases hload
      rw [hledger] at hrecords
      cases hrecords
  · have hdrained : goneLaunch.scheduler.drain.result.isOk = true := by decide +kernel
    obtain ⟨ended, hdrain⟩ := Step.exists_eq_done_of_isOk hdrained
    exact ⟨_, .dispatch hdrain (dispatch_purge _ ended), by decide +kernel, by decide +kernel⟩
  · have hended : steepShutdown.result.isOk = true := by decide +kernel
    obtain ⟨reply, hshutdown⟩ := Step.exists_eq_done_of_isOk hended
    have hplain : Request.Plain .shutdown := trivial
    have hturn : Turn steepLaunch.scheduler steepShutdown.scheduler :=
      .request (by decide +kernel) hplain hshutdown
    exact ⟨_, hturn, by decide +kernel, by decide +kernel⟩

end Scheduler

end DownloadQueue
