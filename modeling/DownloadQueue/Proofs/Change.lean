import DownloadQueue.Proofs.Standing
import DownloadQueue.Scheduler.Control
import Mathlib.Logic.Relation

/-!
# The changes that operations are made of

Every operation of the scheduler is a chain of the changes below, and each of them leaves worker and
status of every item matching: a worker that was not told to stop has a downloading item, and the
others have a queued, a paused or a deleted one. What holds of every state is proved once for each
change, and for operations it follows.
-/

namespace DownloadQueue

/-- A stop for this reason may leave its item in this status. -/
def StopReason.Suits (reason : StopReason) (status : Status) : Prop :=
  (status = .queued ∨ status = .paused ∨ status = .deleted) ∧
    (reason = .delete ↔ status = .deleted)

def Duty.Fits (duty : Duty) (status : Status) : Prop :=
  match duty.stop with
  | none => status = .downloading ∧ duty.cancelled = false
  | some reason => reason.Suits status ∧ duty.cancelled = true

namespace Scheduler

/-- One change of the scheduler; `heard` holds of the endings that it has heard of. -/
inductive Change (heard : ItemId → Ending → Prop) : Scheduler → Scheduler → Prop
  | note {s t : Scheduler} (h : Alike s t) : Change heard s t
  | save (s : Scheduler) : Change heard s s.persist.1
  | close (s : Scheduler) : Change heard s { s with shuttingDown := true }
  | engage {s : Scheduler} {id : ItemId} {item : Item} (hget : s.table.get? id = some item)
      (hqueued : item.status = .queued) (hfree : s.duty? id = none)
      (hroom : s.active.length < s.maxConcurrent.toNat) (hopen : s.shuttingDown = false) :
      Change heard s (s.startTransfer id)
  | stop {s : Scheduler} {id : ItemId} {duty : Duty} {standing : Standing}
      (hduty : s.duty? id = some duty) (hstanding : s.standing? id = some standing)
      (hlive : standing.status ≠ .deleted) {reason : StopReason} {status : Status}
      (hsuits : reason.Suits status) : Change heard s ((s.stopTransfer id reason).setStatus id status)
  /-- A worker that is stopping is told so again. -/
  | restop {s : Scheduler} {id : ItemId} {duty : Duty} (hduty : s.duty? id = some duty)
      (hstop : duty.stop ≠ none) {reason : StopReason} (hreason : reason ≠ .delete) :
      Change heard s (s.stopTransfer id reason)
  | shift {s : Scheduler} {id : ItemId} {standing : Standing}
      (hstanding : s.standing? id = some standing) (hlive : standing.status ≠ .deleted)
      {status : Status} (hstatus : status = .queued ∨ status = .paused ∨ status = .deleted)
      (hfree : s.duty? id = none ∨ (standing.status = .queued ∨ standing.status = .paused) ∧
        status ≠ .deleted)
      (hcomplete : status = .deleted ∨ standing.status.isComplete = false) :
      Change heard s (s.setStatus id status)
  | discard {s : Scheduler} {id : ItemId} {item : Item} (hget : s.table.get? id = some item)
      (hfree : s.duty? id = none) (hlive : item.status ≠ .deleted)
      (hpartial : item.status.isComplete = false) : Change heard s (s.discardPartial id)
  | finish {s t : Scheduler} {id : ItemId} {duty : Duty} (hduty : s.duty? id = some duty)
      {ending : Ending} (hheard : heard id ending) (halike : Alike (s.unbind id) t)
      {status : Status}
      (hstatus : status = .finished ∧ ending = .completed ∧ duty.stop ≠ some .delete ∨
        duty.stop = none ∧ (status = .failed ∨ status = .queued)) :
      Change heard s (t.setStatus id status)
  /-- A worker that was told to stop is gone. -/
  | leave {s : Scheduler} {id : ItemId} {duty : Duty} (hduty : s.duty? id = some duty)
      {ending : Ending} (hheard : heard id ending) (hstop : duty.stop ≠ none) :
      Change heard s (s.unbind id)
  /-- A worker that was told to throw its file away is gone, and so is the file. -/
  | clear {s : Scheduler} {id : ItemId} {duty : Duty} (hduty : s.duty? id = some duty)
      {ending : Ending} (hheard : heard id ending) {reason : StopReason}
      (hstop : duty.stop = some reason) (hdiscards : reason.discardsPartial = true) :
      Change heard s ((s.unbind id).discardPartial id)
  | add {s : Scheduler} {item : Item} {next : UInt64}
      (hnext : Counter.next64 s.table.nextId = .ok next) (hid : item.id = ⟨s.table.nextId⟩)
      (hresolved : ∃ destination, resolveDestination s.files.cwd s.config.queue.downloadDir
        destination = .ok item.destination)
      (htaken : s.destinationTaken item.destination = false)
      (hstatus : item.status = .queued ∧ s.files.fileLength? item.destination = none ∨
        item.status.isComplete = true) :
      Change heard s { s with table := ⟨s.table.items ++ [item], next⟩ }
  | drop {s : Scheduler} {keep : Item → Bool}
      (hkeep : ∀ item ∈ s.table.items, keep item = false → s.duty? item.id = none ∧
        (item.status = .deleted ∨ item.status.isComplete = true)) :
      Change heard s { s with table := { s.table with items := s.table.items.filter keep } }
  | relimit {s : Scheduler} {limit : UInt64}
      (hroom : s.running.length ≤ limit.toNat ∨ s.maxConcurrent < limit) (hpositive : limit ≠ 0) :
      Change heard s { s with maxConcurrent := limit }

abbrev Chain (heard : ItemId → Ending → Prop) : Scheduler → Scheduler → Prop :=
  Relation.ReflTransGen (Change heard)

variable {heard : ItemId → Ending → Prop}

theorem Chain.single {s t : Scheduler} (h : Change heard s t) : Chain heard s t :=
  Relation.ReflTransGen.single h

theorem Chain.note {s t : Scheduler} (h : Alike s t) : Chain heard s t :=
  Chain.single (.note h)

/-- Numbers are distinct, an item has one worker at most, and workers and statuses match. -/
structure Coherent (s : Scheduler) : Prop where
  sound : s.table.Sound
  nodup : (s.duties.map Duty.id).Nodup
  fits : ∀ id duty, s.duty? id = some duty →
    ∃ standing, s.standing? id = some standing ∧ duty.Fits standing.status

variable {s t : Scheduler} {id : ItemId} {duty : Duty} {standing : Standing}

/-- A scheduler without workers is coherent if its table is sound. -/
theorem Coherent.of_active_eq_nil (hsound : s.table.Sound) (hnone : s.active = []) :
    s.Coherent where
  sound := hsound
  nodup := by rw [duties, hnone]; exact List.nodup_nil
  fits id duty hduty := by
    rw [duty?_eq_find?, duties, hnone] at hduty
    cases hduty

theorem Coherent.duty?_of_mem (h : s.Coherent) (hmem : duty ∈ s.duties) :
    s.duty? duty.id = some duty := by
  rw [duty?_eq_find?]
  exact Table.find?_eq_some_of_mem h.nodup hmem

theorem Coherent.status_of_stop_eq_none (h : s.Coherent) (hduty : s.duty? id = some duty)
    (hstanding : s.standing? id = some standing) (hstop : duty.stop = none) :
    standing.status = .downloading := by
  obtain ⟨found, hfound, hfits⟩ := h.fits id duty hduty
  rw [hstanding] at hfound
  cases hfound
  rw [Duty.Fits, hstop] at hfits
  exact hfits.1

theorem Coherent.suits_of_stop_eq_some (h : s.Coherent) (hduty : s.duty? id = some duty)
    (hstanding : s.standing? id = some standing) {reason : StopReason}
    (hstop : duty.stop = some reason) : reason.Suits standing.status := by
  obtain ⟨found, hfound, hfits⟩ := h.fits id duty hduty
  rw [hstanding] at hfound
  cases hfound
  rw [Duty.Fits, hstop] at hfits
  exact hfits.1

theorem duty?_eq_none_iff : s.duty? id = none ↔ id ∉ s.duties.map Duty.id := by
  rw [duty?_eq_find?, List.find?_eq_none]
  simp only [decide_eq_true_eq, List.mem_map, not_exists, not_and]

theorem Coherent.of_alike (h : s.Coherent) (halike : Alike s t) : t.Coherent where
  sound := h.sound.of_ids halike.ids halike.nextId
  nodup := halike.duties ▸ h.nodup
  fits id duty hduty := by
    rw [halike.duty?] at hduty
    obtain ⟨standing, hstanding, hfits⟩ := h.fits id duty hduty
    exact ⟨standing, (halike.standing? id).trans hstanding, hfits⟩

/-- An item without a worker gets one that has not been told to stop. -/
theorem Coherent.startTransfer (h : s.Coherent) {item : Item} (hget : s.table.get? id = some item)
    (hfree : s.duty? id = none) : (s.startTransfer id).Coherent where
  sound := by
    refine h.sound.of_ids (ids_startTransfer s id) ?_
    rw [startTransfer_eq hget, nextId_setStatus]
  nodup := by
    rw [duties_startTransfer hget, List.map_append, List.nodup_append]
    refine ⟨h.nodup, by simp, ?_⟩
    intro first hfirst other hother heq
    rw [List.map_cons, List.map_nil, List.mem_singleton] at hother
    rw [heq, hother] at hfirst
    exact duty?_eq_none_iff.mp hfree hfirst
  fits other duty hduty := by
    rw [duty?_startTransfer hget hfree] at hduty
    rw [standing?_startTransfer hget]
    split at hduty
    · next heq =>
      cases hduty
      rw [if_pos heq]
      exact ⟨_, rfl, rfl, rfl⟩
    · next hne =>
      rw [if_neg hne]
      exact h.fits other duty hduty

/-- A stop on top of another one throws the item away only if one of the two does. -/
theorem merge_eq_delete_iff (pending : Option StopReason) (reason : StopReason) :
    StopReason.merge pending reason = .delete ↔ pending = some .delete ∨ reason = .delete := by
  cases pending with
  | none => cases reason <;> simp [StopReason.merge]
  | some first => cases first <;> cases reason <;> simp [StopReason.merge]

theorem nodup_duties_stopTransfer (h : (s.duties.map Duty.id).Nodup) (id : ItemId)
    (reason : StopReason) : ((s.stopTransfer id reason).duties.map Duty.id).Nodup := by
  have hids : ((s.stopTransfer id reason).duties.map Duty.id) = s.duties.map Duty.id := by
    rw [duties_stopTransfer, List.map_map]
    refine List.map_congr_left fun duty _ => ?_
    rw [Function.comp_apply]
    split <;> rfl
  rw [hids]
  exact h

/-- A stop and the new status of its item are one change: between the two the item does not fit its
worker. -/
theorem Coherent.stop (h : s.Coherent) (hduty : s.duty? id = some duty)
    (hstanding : s.standing? id = some standing) (hlive : standing.status ≠ .deleted)
    {reason : StopReason} {status : Status} (hsuits : reason.Suits status) :
    ((s.stopTransfer id reason).setStatus id status).Coherent where
  sound := h.sound.of_ids (ids_setStatus _ _ _) (nextId_setStatus _ _ _)
  nodup := by
    rw [setStatus_eq]
    exact nodup_duties_stopTransfer h.nodup id reason
  fits other found hfound := by
    rw [setStatus_eq] at hfound
    change (s.stopTransfer id reason).duty? other = _ at hfound
    rw [duty?_stopTransfer] at hfound
    rw [standing?_setStatus]
    change ∃ found, (if other = id then (s.standing? id).map _ else s.standing? other) = _ ∧ _
    split at hfound
    · next heq =>
      rw [hduty] at hfound
      cases hfound
      rw [if_pos heq, hstanding]
      refine ⟨_, rfl, ⟨hsuits.1, ?_⟩, rfl⟩
      rw [merge_eq_delete_iff]
      constructor
      · rintro (hpending | hreason)
        · exact absurd ((h.suits_of_stop_eq_some hduty hstanding hpending).2.mp rfl) hlive
        · exact hsuits.2.mp hreason
      · exact fun hdeleted => Or.inr (hsuits.2.mpr hdeleted)
    · next hne =>
      rw [if_neg hne]
      exact h.fits other found hfound

/-- A worker that is stopping anyway may be given any other reason that keeps its item. -/
theorem Coherent.restop (h : s.Coherent) (hduty : s.duty? id = some duty)
    (hstop : duty.stop ≠ none) {reason : StopReason} (hreason : reason ≠ .delete) :
    (s.stopTransfer id reason).Coherent where
  sound := h.sound
  nodup := nodup_duties_stopTransfer h.nodup id reason
  fits other found hfound := by
    rw [duty?_stopTransfer] at hfound
    split at hfound
    · next heq =>
      subst heq
      rw [hduty] at hfound
      cases hfound
      obtain ⟨standing, hstanding, -⟩ := h.fits other duty hduty
      obtain ⟨pending, hpending⟩ := Option.ne_none_iff_exists'.mp hstop
      have hsuits := h.suits_of_stop_eq_some hduty hstanding hpending
      refine ⟨standing, hstanding, ⟨hsuits.1, ?_⟩, rfl⟩
      rw [merge_eq_delete_iff, hpending, ← hsuits.2]
      simp [hreason]
    · exact h.fits other found hfound

/-- A status can be set by hand where no worker is bound, or where the worker is stopping and the
item waits. -/
theorem Coherent.shift (h : s.Coherent) (hstanding : s.standing? id = some standing)
    (hlive : standing.status ≠ .deleted) {status : Status}
    (hstatus : status = .queued ∨ status = .paused ∨ status = .deleted)
    (hfree : s.duty? id = none ∨ (standing.status = .queued ∨ standing.status = .paused) ∧
      status ≠ .deleted) : (s.setStatus id status).Coherent where
  sound := h.sound.of_ids (ids_setStatus _ _ _) (nextId_setStatus _ _ _)
  nodup := by
    rw [setStatus_eq]
    exact h.nodup
  fits other found hfound := by
    rw [setStatus_eq] at hfound
    change s.duty? other = _ at hfound
    rw [standing?_setStatus]
    split
    · next heq =>
      subst heq
      rw [hstanding]
      refine ⟨_, rfl, ?_⟩
      rcases hfree with hnone | ⟨hwaiting, hkept⟩
      · rw [hfound] at hnone
        cases hnone
      · obtain ⟨first, hfirst, hfits⟩ := h.fits other found hfound
        rw [hstanding] at hfirst
        cases hfirst
        rw [Duty.Fits] at hfits ⊢
        cases hstop : found.stop with
        | none =>
          rw [hstop] at hfits
          rcases hwaiting with hwaiting | hwaiting <;> rw [hwaiting] at hfits <;> cases hfits.1
        | some reason =>
          rw [hstop] at hfits
          refine ⟨⟨hstatus, ?_⟩, hfits.2⟩
          constructor
          · exact fun hreason => absurd (hfits.1.2.mp hreason) hlive
          · exact fun hdeleted => absurd hdeleted hkept
    · exact h.fits other found hfound

theorem Coherent.unbind (h : s.Coherent) (id : ItemId) : (s.unbind id).Coherent where
  sound := h.sound
  nodup := by
    rw [duties_unbind]
    exact h.nodup.sublist (List.filter_sublist.map _)
  fits other found hfound := by
    rw [duty?_unbind] at hfound
    split at hfound
    · cases hfound
    · exact h.fits other found hfound

/-- Without a worker an item may have any status. -/
theorem Coherent.setStatus_of_free (h : s.Coherent) (hfree : s.duty? id = none) (status : Status) :
    (s.setStatus id status).Coherent where
  sound := h.sound.of_ids (ids_setStatus _ _ _) (nextId_setStatus _ _ _)
  nodup := by
    rw [setStatus_eq]
    exact h.nodup
  fits other found hfound := by
    rw [setStatus_eq] at hfound
    change s.duty? other = _ at hfound
    rw [standing?_setStatus, if_neg]
    · exact h.fits other found hfound
    · intro heq
      rw [heq, hfree] at hfound
      cases hfound

theorem Coherent.discardPartial (h : s.Coherent) (id : ItemId) : (s.discardPartial id).Coherent := by
  cases hget : s.table.get? id with
  | none =>
    rw [Scheduler.discardPartial, hget]
    exact h
  | some item =>
    refine Coherent.of_alike ?_ (discardPartial_alike hget)
    exact ⟨h.sound, h.nodup, h.fits⟩

theorem standing?_append {item : Item} {next : UInt64} (hnew : s.standing? item.id = none)
    (other : ItemId) :
    ({ s with table := ⟨s.table.items ++ [item], next⟩ } : Scheduler).standing? other =
      if other = item.id then some item.standing else s.standing? other := by
  have hnone : s.table.get? item.id = none := Option.map_eq_none_iff.mp hnew
  rw [standing?, Table.get?_append hnone, standing?]
  split <;> rfl

theorem standing?_nextId (h : s.table.Sound) : s.standing? ⟨s.table.nextId⟩ = none :=
  Option.map_eq_none_iff.mpr h.get?_nextId

theorem Coherent.add (h : s.Coherent) {item : Item} {next : UInt64}
    (hnext : Counter.next64 s.table.nextId = .ok next) (hid : item.id = ⟨s.table.nextId⟩) :
    ({ s with table := ⟨s.table.items ++ [item], next⟩ } : Scheduler).Coherent where
  sound := h.sound.append hnext hid
  nodup := h.nodup
  fits other found hfound := by
    have hnew : s.standing? item.id = none := hid ▸ standing?_nextId h.sound
    obtain ⟨standing, hstanding, hfits⟩ := h.fits other found hfound
    refine ⟨standing, ?_, hfits⟩
    rw [standing?_append hnew, if_neg]
    · exact hstanding
    · intro heq
      rw [heq, hnew] at hstanding
      cases hstanding

theorem Coherent.standing?_filter (h : s.Coherent) (keep : Item → Bool) (id : ItemId) :
    ({ s with table := { s.table with items := s.table.items.filter keep } } :
      Scheduler).standing? id = ((s.table.get? id).filter keep).map Item.standing := by
  rw [standing?]
  exact congrArg _ (h.sound.find?_filter keep id)

/-- Items without a worker can leave the table. -/
theorem Coherent.drop (h : s.Coherent) {keep : Item → Bool}
    (hkeep : ∀ item ∈ s.table.items, keep item = false → s.duty? item.id = none) :
    ({ s with table := { s.table with items := s.table.items.filter keep } } :
      Scheduler).Coherent where
  sound := h.sound.filter keep
  nodup := h.nodup
  fits other found hfound := by
    obtain ⟨standing, hstanding, hfits⟩ := h.fits other found hfound
    refine ⟨standing, ?_, hfits⟩
    obtain ⟨item, hget, hitem⟩ := get?_of_standing? hstanding
    cases hkept : keep item with
    | true => rw [h.standing?_filter, hget, Option.filter_some_pos hkept, Option.map_some, hitem]
    | false =>
      have hfree := hkeep item (Table.mem_of_get? hget) hkept
      rw [Table.id_of_get? hget] at hfree
      change s.duty? other = _ at hfound
      rw [hfree] at hfound
      cases hfound

/-- Every change keeps the scheduler coherent. -/
theorem Change.coherent (hchange : Change heard s t) (h : s.Coherent) : t.Coherent := by
  cases hchange with
  | note halike => exact h.of_alike halike
  | save => exact ⟨h.sound, h.nodup, h.fits⟩
  | close => exact ⟨h.sound, h.nodup, h.fits⟩
  | engage hget hqueued hfree hroom hopen => exact h.startTransfer hget hfree
  | stop hduty hstanding hlive hsuits => exact h.stop hduty hstanding hlive hsuits
  | restop hduty hstop hreason => exact h.restop hduty hstop hreason
  | shift hstanding hlive hstatus hfree hcomplete => exact h.shift hstanding hlive hstatus hfree
  | discard hget hfree hlive hpartial => exact h.discardPartial _
  | finish hduty hheard halike hstatus =>
    refine ((h.unbind _).of_alike halike).setStatus_of_free ?_ _
    rw [halike.duty?, duty?_unbind, if_pos rfl]
  | leave hduty hheard hstop => exact h.unbind _
  | clear hduty hheard hstop hdiscards => exact (h.unbind _).discardPartial _
  | add hnext hid hresolved htaken hstatus => exact h.add hnext hid
  | drop hkeep => exact h.drop fun item hmem hdropped => (hkeep item hmem hdropped).1
  | relimit hroom => exact ⟨h.sound, h.nodup, h.fits⟩

/-- Numbers are given away once, whatever changes. -/
theorem Change.sound (hchange : Change heard s t) (h : s.table.Sound) : t.table.Sound := by
  cases hchange with
  | note halike => exact h.of_ids halike.ids halike.nextId
  | engage hget =>
    refine h.of_ids (ids_startTransfer s _) ?_
    rw [startTransfer_eq hget, nextId_setStatus]
  | stop =>
    apply sound_setStatus
    exact h
  | shift => exact sound_setStatus h _ _
  | discard => exact sound_discardPartial h _
  | finish _ _ halike => exact sound_setStatus (h.of_ids halike.ids halike.nextId) _ _
  | clear =>
    apply sound_discardPartial
    exact h
  | add hnext hid => exact h.append hnext hid
  | @drop keep => exact h.filter keep
  | _ => exact h

theorem Chain.coherent (hchain : Chain heard s t) (h : s.Coherent) : t.Coherent := by
  induction hchain with
  | refl => exact h
  | tail _ hchange ih => exact hchange.coherent ih

theorem Chain.sound (hchain : Chain heard s t) (h : s.table.Sound) : t.table.Sound := by
  induction hchain with
  | refl => exact h
  | tail _ hchange ih => exact hchange.sound ih

end Scheduler

end DownloadQueue
