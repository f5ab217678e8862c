import DownloadQueue.Proofs.Binding
import DownloadQueue.Proofs.QueueFile
import Mathlib.Data.List.Pairwise

/-!
# One writer for each destination

An item holds its destination while it is not deleted, and longer if its worker is still stopping. No
two items ever hold one destination, so no two workers write to one file, and the queue removes no
file that a worker writes to.
-/

namespace DownloadQueue

theorem Path.same_comm (a b : Path) : a.same b = b.same a := by
  simp only [Path.same, eq_comm]

def Table.Apart (table : Table) : Prop :=
  (QueueFile.kept table.items).Pairwise fun a b => a.destination.same b.destination = false

namespace Scheduler

variable {heard : ItemId → Ending → Prop} {s t : Scheduler} {id other : ItemId} {a b : Path}

def Holds (s : Scheduler) (id : ItemId) (destination : Path) : Prop :=
  ∃ standing, s.standing? id = some standing ∧ standing.destination = destination ∧
    (standing.status ≠ .deleted ∨ s.duty? id ≠ none)

def Exclusive (s : Scheduler) : Prop :=
  ∀ id other a b, s.Holds id a → s.Holds other b → id ≠ other → a.same b = false

theorem Exclusive.mono (h : s.Exclusive) (hholds : ∀ id a, t.Holds id a → s.Holds id a) :
    t.Exclusive :=
  fun id other a b ha hb => h id other a b (hholds id a ha) (hholds other b hb)

/-- A change that concerns one item keeps the claims of the others; its own is to be looked at. -/
theorem Exclusive.of_others (h : s.Exclusive) (id : ItemId)
    (hstanding : ∀ other, other ≠ id → t.standing? other = s.standing? other)
    (hduty : ∀ other, other ≠ id → t.duty? other ≠ none → s.duty? other ≠ none)
    (hself : ∀ a, t.Holds id a → s.Holds id a) : t.Exclusive := by
  refine h.mono fun other a hholds => ?_
  by_cases heq : other = id
  · subst heq
    exact hself a hholds
  · obtain ⟨standing, hfound, hdestination, hclaim⟩ := hholds
    rw [hstanding other heq] at hfound
    exact ⟨standing, hfound, hdestination, hclaim.imp_right (hduty other heq)⟩

theorem Holds.of_alike (halike : Alike s t) (h : t.Holds id a) : s.Holds id a := by
  obtain ⟨standing, hstanding, hdestination, hclaim⟩ := h
  rw [halike.standing?] at hstanding
  rw [halike.duty?] at hclaim
  exact ⟨standing, hstanding, hdestination, hclaim⟩

/-- A new status leaves the destination as it was. -/
theorem holds_of_setStatus {status : Status} (hlive : ∀ standing, s.standing? id = some standing →
      standing.status ≠ .deleted ∨ s.duty? id ≠ none)
    (h : (s.setStatus id status).Holds id a) : s.Holds id a := by
  obtain ⟨standing, hstanding, hdestination, -⟩ := h
  rw [standing?_setStatus, if_pos rfl] at hstanding
  obtain ⟨before, hbefore, rfl⟩ := Option.map_eq_some_iff.mp hstanding
  exact ⟨before, hbefore, hdestination, hlive before hbefore⟩

theorem Exclusive.setStatus {status : Status} (h : s.Exclusive)
    (hlive : ∀ standing, s.standing? id = some standing →
      standing.status ≠ .deleted ∨ s.duty? id ≠ none) : (s.setStatus id status).Exclusive := by
  refine h.of_others id (fun other hne => standing?_setStatus_of_ne s _ hne)
    (fun other _ hbound => ?_) fun a hholds => holds_of_setStatus hlive hholds
  rwa [duty?_setStatus] at hbound

theorem Holds.of_unbind (h : (s.unbind id).Holds other a) : s.Holds other a := by
  obtain ⟨standing, hstanding, hdestination, hclaim⟩ := h
  exact ⟨standing, hstanding, hdestination, hclaim.imp_right duty?_ne_none_of_unbind⟩

theorem duty?_stopTransfer_eq_none {reason : StopReason}
    (h : (s.stopTransfer id reason).duty? other ≠ none) : s.duty? other ≠ none := by
  rw [duty?_stopTransfer] at h
  split at h
  · next heq =>
    rw [heq]
    exact fun hnone => h (by rw [hnone]; rfl)
  · exact h

theorem Holds.of_stopTransfer {reason : StopReason} (h : (s.stopTransfer id reason).Holds other a) :
    s.Holds other a := by
  obtain ⟨standing, hstanding, hdestination, hclaim⟩ := h
  exact ⟨standing, hstanding, hdestination, hclaim.imp_right duty?_stopTransfer_eq_none⟩

theorem Holds.of_discardPartial (h : (s.discardPartial id).Holds other a) : s.Holds other a := by
  obtain ⟨standing, hstanding, hdestination, hclaim⟩ := h
  rw [standing?_discardPartial] at hstanding
  rw [duty?_discardPartial] at hclaim
  exact ⟨standing, hstanding, hdestination, hclaim⟩

/-- A destination that is not taken is held by no item. -/
theorem not_same_of_holds {destination : Path} (htaken : s.destinationTaken destination = false)
    (h : s.Holds id a) : a.same destination = false := by
  obtain ⟨standing, hstanding, rfl, hclaim⟩ := h
  obtain ⟨item, hget, rfl⟩ := get?_of_standing? hstanding
  cases hsame : item.standing.destination.same destination with
  | false => rfl
  | true =>
    exfalso
    have hmem : item ∈ s.table.itemsAt destination :=
      List.mem_filter.mpr ⟨Table.mem_of_get? hget, hsame⟩
    rw [destinationTaken, List.any_eq_false] at htaken
    refine htaken item hmem ?_
    rw [Bool.or_eq_true, decide_eq_true_eq]
    refine hclaim.imp_right fun hbound => ?_
    rw [Table.id_of_get? hget, ← Bool.not_eq_false, isBound_eq_false_iff]
    exact hbound

/-- An item whose destination is not taken shares it with nobody. -/
theorem Exclusive.add (h : s.Exclusive) (hcoherent : s.Coherent) {item : Item} {next : UInt64}
    (hid : item.id = ⟨s.table.nextId⟩) (htaken : s.destinationTaken item.destination = false) :
    ({ s with table := ⟨s.table.items ++ [item], next⟩ } : Scheduler).Exclusive := by
  have hnew : s.standing? item.id = none := hid ▸ standing?_nextId hcoherent.sound
  have hcases {id : ItemId} {a : Path}
      (hholds : ({ s with table := ⟨s.table.items ++ [item], next⟩ } : Scheduler).Holds id a) :
      id = item.id ∧ a = item.destination ∨ s.Holds id a := by
    obtain ⟨standing, hstanding, rfl, hclaim⟩ := hholds
    rw [standing?_append hnew] at hstanding
    split at hstanding
    · next heq =>
      cases hstanding
      exact .inl ⟨heq, rfl⟩
    · exact .inr ⟨standing, hstanding, rfl, hclaim⟩
  intro id other a b ha hb hne
  rcases hcases ha with ⟨rfl, rfl⟩ | ha'
  · rcases hcases hb with ⟨rfl, rfl⟩ | hb'
    · exact absurd rfl hne
    · rw [Path.same_comm]
      exact not_same_of_holds htaken hb'
  · rcases hcases hb with ⟨rfl, rfl⟩ | hb'
    · exact not_same_of_holds htaken ha'
    · exact h id other a b ha' hb' hne

/-- No change gives two items one destination. -/
theorem Change.exclusive (hchange : Change heard s t) (hcoherent : s.Coherent) (h : s.Exclusive) :
    t.Exclusive := by
  cases hchange with
  | note halike => exact h.mono fun id a hholds => hholds.of_alike halike
  | save => exact h
  | close => exact h
  | @engage id item hget hqueued hfree hroom hopen =>
    -- a queued item holds its destination already, so its worker claims nothing new
    have hlive : item.status ≠ .deleted := by simp [hqueued]
    refine h.of_others id (fun other hne => ?_) (fun other hne hbound => ?_) fun a hholds => ?_
    · rw [standing?_startTransfer hget, if_neg hne]
    · rwa [duty?_startTransfer hget hfree, if_neg hne] at hbound
    · obtain ⟨standing, hstanding, rfl, -⟩ := hholds
      rw [standing?_startTransfer hget, if_pos rfl] at hstanding
      cases hstanding
      exact ⟨item.standing, standing?_of_get? hget, rfl, .inl hlive⟩
  | @stop id duty standing hduty hstanding hlive reason status hsuits =>
    refine Exclusive.setStatus (h.mono fun id a hholds => hholds.of_stopTransfer) ?_
    intro found hfound
    rw [show (s.stopTransfer id reason).standing? id = s.standing? id from rfl, hstanding] at hfound
    cases hfound
    exact .inl hlive
  | restop hduty hstop hreason => exact h.mono fun id a hholds => hholds.of_stopTransfer
  | shift hstanding hlive hstatus hfree hcomplete =>
    refine h.setStatus fun found hfound => ?_
    rw [hstanding] at hfound
    cases hfound
    exact .inl hlive
  | discard hget hfree hlive hpartial => exact h.mono fun id a hholds => hholds.of_discardPartial
  | @finish t id duty hduty ending hheard halike status hstatus =>
    refine h.of_others id (fun other hne => ?_) (fun other hne hbound => ?_) fun a hholds => ?_
    · rw [standing?_setStatus_of_ne _ _ hne, halike.standing?]
      rfl
    · rwa [duty?_setStatus, halike.duty?, duty?_unbind, if_neg hne] at hbound
    · obtain ⟨standing, hstanding, rfl, -⟩ := hholds
      rw [standing?_setStatus, if_pos rfl, halike.standing?] at hstanding
      obtain ⟨before, hbefore, rfl⟩ := Option.map_eq_some_iff.mp hstanding
      -- the worker that ends has held the destination until now
      exact ⟨before, hbefore, rfl, .inr (by rw [hduty]; exact Option.some_ne_none _)⟩
  | leave hduty hheard hstop => exact h.mono fun id a hholds => hholds.of_unbind
  | clear hduty hheard hstop hdiscards =>
    exact h.mono fun id a hholds => hholds.of_discardPartial.of_unbind
  | add hnext hid hresolved htaken hstatus => exact h.add hcoherent hid htaken
  | drop hkeep =>
    refine h.mono fun id a hholds => ?_
    obtain ⟨standing, hstanding, hdestination, hclaim⟩ := hholds
    rw [hcoherent.standing?_filter] at hstanding
    obtain ⟨item, hitem, rfl⟩ := Option.map_eq_some_iff.mp hstanding
    have hget := (Option.filter_eq_some_iff.mp hitem).1
    exact ⟨item.standing, standing?_of_get? hget, hdestination, hclaim⟩
  | relimit hroom => exact h

/-- No file was removed while a worker wrote to it. -/
def Careful (s : Scheduler) : Prop :=
  ∀ removal ∈ s.removals, ∀ path ∈ removal.held, path.same removal.destination = false

/-- The destinations of the items with a worker are held. -/
theorem holds_of_mem_held (h : a ∈ s.held) :
    ∃ id, s.duty? id ≠ none ∧ s.Holds id a := by
  obtain ⟨binding, hmem, hfound⟩ := List.mem_filterMap.mp h
  obtain ⟨item, hget, rfl⟩ := Option.map_eq_some_iff.mp hfound
  have hbound : s.duty? binding.id ≠ none := by
    rw [Ne, duty?_eq_none_iff, Classical.not_not, map_id_duties]
    exact List.mem_map_of_mem hmem
  exact ⟨binding.id, hbound, item.standing, standing?_of_get? hget, rfl, .inr hbound⟩

theorem removals_discardPartial {item : Item} (hget : s.table.get? id = some item) :
    (s.discardPartial id).removals =
      s.removals ++ [{ destination := item.destination, held := s.held }] :=
  (discardPartial_alike hget).removals

/-- A partial file may be removed while no worker is bound to its path. -/
theorem Careful.discardPartial (h : s.Careful)
    (hfree : ∀ item, s.table.get? id = some item →
      ∀ path ∈ s.held, path.same item.destination = false) : (s.discardPartial id).Careful := by
  cases hget : s.table.get? id with
  | none =>
    rw [Scheduler.discardPartial, hget]
    exact h
  | some item =>
    intro removal hmem
    rw [removals_discardPartial hget] at hmem
    rcases List.mem_append.mp hmem with hold | hnew
    · exact h removal hold
    · rw [List.mem_singleton] at hnew
      subst hnew
      exact hfree item hget

theorem removals_setStatus (s : Scheduler) (id : ItemId) (status : Status) :
    (s.setStatus id status).removals = s.removals := by
  rw [setStatus_eq]

theorem Careful.of_removals (h : s.Careful) (heq : t.removals = s.removals) : t.Careful := by
  rwa [Careful, heq]

/-- A change removes a file only after its own worker is gone, and no other worker has its path. -/
theorem Change.careful (hchange : Change heard s t) (hexclusive : s.Exclusive) (h : s.Careful) :
    t.Careful := by
  cases hchange with
  | note halike => exact h.of_removals halike.removals
  | save => exact h
  | close => exact h
  | engage hget hqueued hfree hroom hopen =>
    refine h.of_removals ?_
    rw [startTransfer_eq hget, removals_setStatus]
  | stop hduty hstanding hlive hsuits => exact h.of_removals (removals_setStatus _ _ _)
  | restop hduty hstop hreason => exact h
  | shift hstanding hlive hstatus hfree hcomplete => exact h.of_removals (removals_setStatus _ _ _)
  | @discard id item hget hfree hlive hpartial =>
    refine h.discardPartial fun found hfound path hmem => ?_
    rw [hget] at hfound
    cases hfound
    obtain ⟨other, hbound, hholds⟩ := holds_of_mem_held hmem
    have hself : s.Holds id item.destination :=
      ⟨item.standing, standing?_of_get? hget, rfl, .inl hlive⟩
    exact hexclusive other id _ _ hholds hself fun heq => hbound (heq ▸ hfree)
  | finish hduty hheard halike hstatus =>
    exact h.of_removals ((removals_setStatus _ _ _).trans halike.removals)
  | leave hduty hheard hstop => exact h
  | @clear id duty hduty ending hheard reason hstop hdiscards =>
    refine Careful.discardPartial (s := s.unbind id) h fun item hget path hmem => ?_
    obtain ⟨other, hbound, hholds⟩ := holds_of_mem_held hmem
    have hself : s.Holds id item.destination :=
      ⟨item.standing, standing?_of_get? hget, rfl, .inr (by rw [hduty]; exact Option.some_ne_none _)⟩
    -- the item's own worker is gone when its file is removed
    refine hexclusive other id _ _ hholds.of_unbind hself fun heq => hbound ?_
    rw [heq, duty?_unbind, if_pos rfl]
  | add hnext hid hresolved htaken hstatus => exact h
  | drop hkeep => exact h
  | relimit hroom => exact h

structure Guarded (s : Scheduler) : Prop where
  coherent : s.Coherent
  exclusive : s.Exclusive
  careful : s.Careful

theorem Trail.guarded (htrail : Trail heard s t) (h : s.Guarded) : t.Guarded := by
  induction htrail with
  | refl => exact h
  | tail _ hmove ih =>
    cases hmove with
    | change hchange =>
      exact ⟨hchange.coherent ih.coherent, hchange.exclusive ih.coherent ih.exclusive,
        hchange.careful ih.exclusive ih.careful⟩
    | outside =>
      exact ⟨⟨ih.coherent.sound, ih.coherent.nodup, ih.coherent.fits⟩, ih.exclusive, ih.careful⟩

theorem Guarded.foldl_act (h : s.Guarded) (actions : List Action) :
    (actions.foldl act s).Guarded := by
  induction actions generalizing s with
  | nil => exact h
  | cons action actions ih =>
    have htrail : Trail (fun _ _ => True) s (s.act action) :=
      trail_act (fun _ _ => trivial) h.coherent action
    exact ih (htrail.guarded h)

/-- Items of a table that are apart hold different destinations while no worker runs. -/
theorem exclusive_of_apart (hidle : s.active = []) (hapart : s.table.Apart) : s.Exclusive := by
  have hpresent {id : ItemId} {a : Path} (h : s.Holds id a) :
      ∃ item ∈ QueueFile.kept s.table.items, item.id = id ∧ item.destination = a := by
    obtain ⟨standing, hstanding, rfl, hclaim⟩ := h
    have hfree : s.duty? id = none := by
      rw [duty?_eq_find?, duties, hidle]
      rfl
    obtain ⟨item, hget, rfl⟩ := get?_of_standing? hstanding
    refine ⟨item, List.mem_filter.mpr ⟨Table.mem_of_get? hget, ?_⟩, Table.id_of_get? hget, rfl⟩
    exact decide_eq_true (hclaim.resolve_right fun hbound => hbound hfree)
  intro id other a b ha hb hne
  obtain ⟨first, hfirst, rfl, rfl⟩ := hpresent ha
  obtain ⟨second, hsecond, rfl, rfl⟩ := hpresent hb
  have hsymm : Std.Symm fun a b : Item => a.destination.same b.destination = false :=
    ⟨fun a b h => by rwa [Path.same_comm]⟩
  exact hapart.forall hfirst hsecond fun heq => hne (heq ▸ rfl)

theorem Exclusive.apart (h : s.Exclusive) (hsound : s.table.Sound) : s.table.Apart := by
  have hnodup : (QueueFile.kept s.table.items).Pairwise fun a b => a.id ≠ b.id :=
    List.pairwise_map.mp (hsound.nodup.sublist (List.filter_sublist.map _))
  have hholds {item : Item} (hmem : item ∈ QueueFile.kept s.table.items) :
      s.Holds item.id item.destination := by
    obtain ⟨hmem, hlive⟩ := List.mem_filter.mp hmem
    exact ⟨item.standing, standing?_of_get? (hsound.get?_of_mem hmem), rfl,
      .inl (of_decide_eq_true hlive)⟩
  refine List.Pairwise.imp_of_mem (fun ha hb hne => ?_) hnodup
  exact h _ _ _ _ (hholds ha) (hholds hb) hne

theorem Guarded.apart (h : s.Guarded) : s.table.Apart :=
  h.exclusive.apart h.coherent.sound

theorem Guarded.length_held (h : s.Guarded) : s.held.length = s.active.length := by
  rw [held, List.length_filterMap_eq_countP, List.countP_eq_length]
  intro binding hmem
  obtain ⟨standing, hstanding, -⟩ :=
    h.coherent.fits _ _ (h.coherent.duty?_of_mem (List.mem_map_of_mem hmem))
  obtain ⟨item, hget, -⟩ := get?_of_standing? hstanding
  rw [show s.table.get? binding.id = some item from hget]
  rfl

/-- The workers that are bound write to different files. -/
theorem Guarded.pairwise_held (h : s.Guarded) :
    s.held.Pairwise fun a b => a.same b = false := by
  have hnodup : s.active.Pairwise fun a b => a.id ≠ b.id := by
    rw [← List.pairwise_map, ← map_id_duties]
    exact h.coherent.nodup
  have hholds {binding : Binding} (hmem : binding ∈ s.active) {a : Path}
      (hfound : (s.table.get? binding.id).map Item.destination = some a) :
      s.Holds binding.id a := by
    obtain ⟨item, hget, rfl⟩ := Option.map_eq_some_iff.mp hfound
    refine ⟨item.standing, standing?_of_get? hget, rfl, .inr ?_⟩
    rw [Ne, duty?_eq_none_iff, Classical.not_not, map_id_duties]
    exact List.mem_map_of_mem hmem
  rw [held, List.pairwise_filterMap]
  refine List.Pairwise.imp_of_mem (fun ha hb hne a hfirst b hsecond => ?_) hnodup
  exact h.exclusive _ _ _ _ (hholds ha hfirst) (hholds hb hsecond) hne

/-- One writer for each destination, in terms of what the scheduler keeps and has done. -/
structure OneWriter (s : Scheduler) : Prop where
  apart : s.table.Apart
  workers : s.held.length = s.active.length ∧ s.held.Pairwise fun a b => a.same b = false
  removals : ∀ removal ∈ s.removals, ∀ path ∈ removal.held, path.same removal.destination = false
  saved : ∀ path, ∃ items, QueueFile.parse path (QueueFile.render s.table.items) = .ok items ∧
    ∀ table, Table.ofItems items = .ok table → table.Sound ∧ table.Apart

/-- The invariant, read off what the scheduler keeps and has done. -/
theorem Guarded.oneWriter (h : s.Guarded) : s.OneWriter where
  apart := h.apart
  workers := ⟨h.length_held, h.pairwise_held⟩
  removals := h.careful
  saved path := by
    have hnodup := h.coherent.sound.nodup
    refine ⟨_, QueueFile.parse_render path hnodup, fun table htable => ?_⟩
    have hkept : ((QueueFile.kept s.table.items).map Item.id).Nodup :=
      hnodup.sublist (List.filter_sublist.map _)
    obtain ⟨hsound, hitems⟩ := Table.Sound.ofItems hkept htable
    refine ⟨hsound, ?_⟩
    rw [Table.Apart, hitems]
    exact List.Pairwise.sublist List.filter_sublist h.apart

/-- From a table whose items are apart, every sequence of operations keeps one writer for each
destination. -/
theorem oneWriter_of_actions (config : Config) {table : Table} (hsound : table.Sound)
    (hapart : table.Apart) (files : FileSystem) (now : Timestamp) (share : Float)
    (actions : List Action) :
    (actions.foldl act (Scheduler.ofTable config table files now share).restore).OneWriter := by
  have hstart : (Scheduler.ofTable config table files now share).Guarded :=
    ⟨Coherent.of_active_eq_nil hsound rfl, exclusive_of_apart rfl hapart,
      fun removal hmem => absurd hmem List.not_mem_nil⟩
  have hchain : Chain (fun _ _ => True) (Scheduler.ofTable config table files now share) _ :=
    chain_restore hsound rfl
  exact ((hchain.trail.guarded hstart).foldl_act actions).oneWriter

/-- A destination is asked for again while the worker of a deleted item is stopping, and once more
when it has stopped. -/
theorem oneWriter_of_actions_deleted :
    Table.empty.Sound ∧ Table.empty.Apart ∧
    ([.operation (.enqueue "http://h/a" ⟨"/d/a"⟩), .operation (.dispatch (.delete ⟨1⟩) []),
      .operation (.enqueue "http://h/b" ⟨"/d/a"⟩), .message ⟨⟨1⟩, .ended .cancelled⟩,
      .operation (.enqueue "http://h/b" ⟨"/d/./a"⟩)].foldl act
        (Scheduler.ofTable {} .empty .empty .epoch 0).restore).OneWriter := by
  have hapart : Table.empty.Apart := List.Pairwise.nil
  exact ⟨Table.Sound.empty, hapart,
    oneWriter_of_actions {} Table.Sound.empty hapart .empty .epoch 0 _⟩

end Scheduler

end DownloadQueue
