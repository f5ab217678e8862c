import DownloadQueue.Proofs.Admission

/-!
# A lower limit keeps the oldest transfers

Workers are bound in the order of their admission, so the last of the running ones are the youngest.
A lower limit pushes those back into the queue that are too many: their items wait again with what
they have, and their workers are told to stop. All other workers and items are left alone.
-/

namespace DownloadQueue

theorem ordered_enlist (first : Nat) (requests : List FetchRequest) :
    ((enlist first requests).map Worker.seq).Pairwise (· < ·) := by
  induction requests generalizing first with
  | nil => exact List.Pairwise.nil
  | cons request requests ih =>
    rw [enlist, List.map_cons, List.pairwise_cons]
    refine ⟨fun seq hmem => ?_, ih (first + 1)⟩
    obtain ⟨worker, hworker, rfl⟩ := List.mem_map.mp hmem
    have hle := (le_of_mem_enlist hworker).1
    dsimp only
    omega

/-- Without its last entries, a list without repetition is the first part. -/
theorem filter_not_mem_drop {α : Type} [DecidableEq α] (entries : List α)
    (hnodup : entries.Nodup) (n : Nat) :
    (entries.filter fun a => a ∉ entries.drop n) = entries.take n := by
  have hsplit := List.take_append_drop n entries
  rw [← hsplit, List.nodup_append] at hnodup
  have hkept : ((entries.take n).filter fun a => a ∉ entries.drop n) = entries.take n := by
    rw [List.filter_eq_self]
    intro a hmem
    rw [decide_eq_true_eq]
    exact fun hlate => hnodup.2.2 a hmem a hlate rfl
  have hlate : ((entries.drop n).filter fun a => a ∉ entries.drop n) = [] :=
    List.filter_eq_nil_iff.mpr (by simp)
  have happ : ((entries.take n ++ entries.drop n).filter fun a => a ∉ entries.drop n) =
      entries.take n := by
    rw [List.filter_append, hkept, hlate, List.append_nil]
  rwa [hsplit] at happ

namespace Scheduler

variable {heard : ItemId → Ending → Prop} {s t : Scheduler} {id : ItemId} {item : Item}
variable {ids : List ItemId} {limit : UInt64}

structure Ranked (s : Scheduler) : Prop where
  ordered : (s.duties.map Duty.seq).Pairwise (· < ·)
  counted : ∀ seq ∈ s.duties.map Duty.seq, seq ≤ s.admissions

theorem Ranked.of_active_eq_nil (h : s.active = []) : s.Ranked := by
  constructor <;> simp [duties, h]

theorem Ranked.unbind (h : s.Ranked) (id : ItemId) : (s.unbind id).Ranked := by
  have hsublist : ((s.unbind id).duties.map Duty.seq).Sublist (s.duties.map Duty.seq) := by
    rw [duties_unbind]
    exact List.filter_sublist.map _
  exact ⟨h.ordered.sublist hsublist, fun seq hmem => h.counted seq (hsublist.subset hmem)⟩

/-- Workers that are admitted come after all that were admitted before. -/
theorem Ranked.grows {begun : List FetchRequest} (h : s.Ranked) (hgrows : Grows s t begun) :
    t.Ranked := by
  have hseqs : t.duties.map Duty.seq =
      s.duties.map Duty.seq ++ (enlist (s.admissions + 1) begun).map Worker.seq := by
    have htickets := congrArg (List.map Prod.fst) hgrows.tickets
    rw [List.map_append, List.map_map, List.map_map, List.map_map] at htickets
    exact htickets
  have hnew (seq : Nat) (hmem : seq ∈ (enlist (s.admissions + 1) begun).map Worker.seq) :
      s.admissions < seq ∧ seq ≤ t.admissions := by
    obtain ⟨worker, hworker, rfl⟩ := List.mem_map.mp hmem
    have hle := le_of_mem_enlist hworker
    rw [hgrows.admissions]
    omega
  constructor
  · rw [hseqs, List.pairwise_append]
    refine ⟨h.ordered, ordered_enlist _ _, fun old hold new hmem => ?_⟩
    exact Nat.lt_of_le_of_lt (h.counted old hold) (hnew new hmem).1
  · intro seq hmem
    rw [hseqs, List.mem_append] at hmem
    rcases hmem with hold | hmem
    · have hle := h.counted seq hold
      rw [hgrows.admissions]
      omega
    · exact (hnew seq hmem).2

/-- New workers come behind all others, and nobody changes places. -/
theorem Change.ranked (hchange : Change heard s t) (h : s.Ranked) : t.Ranked := by
  cases hchange with
  | note halike => exact h.grows halike.grows
  | save => exact ⟨h.ordered, h.counted⟩
  | close => exact ⟨h.ordered, h.counted⟩
  | engage hget hqueued hfree hroom hopen => exact h.grows (grows_startTransfer hget)
  | stop hduty hstanding hlive hsuits =>
    exact h.grows ((grows_stopTransfer _ _ _).trans (grows_setStatus _ _ _))
  | restop hduty hstop hreason => exact h.grows (grows_stopTransfer _ _ _)
  | shift hstanding hlive hstatus hfree hcomplete => exact h.grows (grows_setStatus _ _ _)
  | discard hget hfree hlive hpartial => exact h.grows (grows_discardPartial _ _)
  | finish hduty hheard halike hstatus =>
    exact (h.unbind _).grows (halike.grows.trans (grows_setStatus _ _ _))
  | leave hduty hheard hstop => exact h.unbind _
  | clear hduty hheard hstop hdiscards => exact (h.unbind _).grows (grows_discardPartial _ _)
  | add hnext hid hresolved htaken hstatus => exact ⟨h.ordered, h.counted⟩
  | drop hkeep => exact ⟨h.ordered, h.counted⟩
  | relimit hroom => exact ⟨h.ordered, h.counted⟩

theorem Trail.ranked (htrail : Trail heard s t) (h : s.Ranked) : t.Ranked := by
  induction htrail with
  | refl => exact h
  | tail _ hmove ih =>
    cases hmove with
    | change hchange => exact hchange.ranked ih
    | outside => exact ⟨ih.ordered, ih.counted⟩

theorem Orderly.ranked_foldl_act (h : s.Orderly) (hranked : s.Ranked) (actions : List Action) :
    (actions.foldl act s).Ranked := by
  induction actions generalizing s with
  | nil => exact hranked
  | cons action actions ih =>
    have htrail : Trail (fun _ _ => True) s (s.act action) :=
      trail_act (fun _ _ => trivial) h.coherent action
    exact ih (htrail.orderly h) (htrail.ranked hranked)

def pushedBack (binding : Binding) : Binding :=
  { binding with stop := some (StopReason.merge binding.stop .requeue), cancelled := true }

def pushBack (s : Scheduler) (ids : List ItemId) : Scheduler :=
  { s.turnAll ids .downloading .queued with
    active := s.active.map fun binding =>
      if binding.id ∈ ids then pushedBack binding else binding }

theorem pushBack_nil (s : Scheduler) : s.pushBack [] = s := by
  simp [pushBack, turnAll_nil]

/-- To push back one transfer and then some others is to push them all back. -/
theorem pushBack_cons (s : Scheduler) (hnew : id ∉ ids) :
    (s.pushBack [id]).pushBack ids = s.pushBack (id :: ids) := by
  have hactive : (s.active.map fun binding =>
      if binding.id ∈ [id] then pushedBack binding else binding).map (fun binding =>
        if binding.id ∈ ids then pushedBack binding else binding) =
      s.active.map fun binding =>
        if binding.id ∈ id :: ids then pushedBack binding else binding := by
    rw [List.map_map]
    apply List.map_congr_left
    intro binding _
    have hid : (pushedBack binding).id = binding.id := rfl
    by_cases heq : binding.id = id
    · simp [hid, heq, hnew]
    · simp [heq]
  calc
    (s.pushBack [id]).pushBack ids =
        { (s.turnAll [id] .downloading .queued).turnAll ids .downloading .queued with
          active := (s.active.map fun binding =>
            if binding.id ∈ [id] then pushedBack binding else binding).map fun binding =>
              if binding.id ∈ ids then pushedBack binding else binding } := rfl
    _ = s.pushBack (id :: ids) := by rw [hactive, ← turnAll_append]; rfl

theorem requeue_eq_pushBack (h : s.Finds id item) (hrunning : item.status = .downloading) :
    s.requeue id = s.pushBack [id] := by
  have hne : item.status ≠ .queued := by simp [hrunning]
  calc
    s.requeue id = (s.stopTransfer id .requeue).setStatus id .queued := rfl
    _ = (s.stopTransfer id .requeue).turnAll [id] item.status .queued :=
      setStatus_eq_turnAll (h.of_table rfl) hne (by decide)
    _ = s.pushBack [id] := by
      simp [pushBack, turnAll, pushedBack, stopTransfer, rebind, hrunning]

/-- Transfers that are pushed back one after the other. -/
theorem foldl_requeue_eq_pushBack (h : (s.table.items.map Item.id).Nodup) (hdistinct : ids.Nodup)
    (hids : ∀ id ∈ ids, ∃ item, s.table.get? id = some item ∧ item.status = .downloading) :
    ids.foldl requeue s = s.pushBack ids := by
  apply foldl_eq_whole (· ≠ ·) fun s id => ∃ item, s.Finds id item ∧ item.status = .downloading
  · exact pushBack_nil
  · exact fun s id rest hrest => pushBack_cons s fun hmem => hrest id hmem rfl
  · exact fun s id ⟨item, hfinds, hrunning⟩ => requeue_eq_pushBack hfinds hrunning
  · intro s id other hother ⟨item, hfinds, hrunning⟩
    have hkept := hfinds.turnAll hother .downloading .queued
    exact ⟨item, hkept.of_table rfl, hrunning⟩
  · exact hdistinct
  · intro id hmem
    obtain ⟨item, hget, hrunning⟩ := hids id hmem
    exact ⟨item, ⟨h, hget⟩, hrunning⟩

def atWork (s : Scheduler) : List Binding :=
  s.active.filter fun binding =>
    binding.stop.isNone && (s.table.get? binding.id).any fun item => item.status = .downloading

theorem Coherent.atWork_eq (h : s.Coherent) :
    s.atWork = s.active.filter fun binding => binding.stop.isNone := by
  apply List.filter_congr
  intro binding hmem
  cases hstop : binding.stop with
  | some reason => rfl
  | none =>
    obtain ⟨item, hitem, hid, hfits⟩ := h.item_of_binding hmem
    rw [Duty.Fits, Binding.duty_stop, hstop] at hfits
    simp [← hid, h.sound.get?_of_mem hitem, hfits.1]

theorem Coherent.map_id_atWork (h : s.Coherent) : s.atWork.map Binding.id = s.running := by
  rw [h.atWork_eq, running]

theorem Ranked.pairwise_atWork (h : s.Ranked) :
    s.atWork.Pairwise fun first last => first.seq < last.seq := by
  have hordered := h.ordered
  rw [duties, List.map_map, List.pairwise_map] at hordered
  exact hordered.sublist List.filter_sublist

/-- The youngest are taken off the end of the list. -/
theorem Coherent.mem_excess_iff (h : s.Coherent) :
    id ∈ s.excess limit ↔ id ∈ (s.atWork.drop limit.toNat).map Binding.id := by
  rw [excess, List.take_reverse, List.mem_reverse, ← h.map_id_atWork, List.map_drop]
  rcases Nat.le_total (s.atWork.map Binding.id).length limit.toNat with hfew | hmany
  · rw [List.drop_of_length_le hfew, Nat.sub_eq_zero_of_le hfew, Nat.sub_zero, List.drop_length]
  · rw [Nat.sub_sub_self hmany]

/-- What a lower limit makes of a scheduler: the transfers `kept` go on, and the transfers `late`
are pushed back. -/
structure Lowered (s t : Scheduler) (limit : UInt64) (kept late : List Binding) : Prop where
  running : s.atWork = kept ++ late
  count : kept.length = min limit.toNat s.atWork.length
  older : ∀ first ∈ kept, ∀ last ∈ late, first.seq < last.seq
  working : t.atWork = kept
  bindings : t.active = s.active.map fun binding =>
    if binding ∈ late then { binding with stop := some .requeue, cancelled := true } else binding
  table : t.table = s.table.turn (late.map Binding.id) .queued
  waiting : ∀ binding ∈ late, ∃ item, s.table.get? binding.id = some item ∧
    item.status = .downloading ∧
    t.table.get? binding.id = some { item with status := .queued, lastError := none }
  others : ∀ binding ∈ s.active, binding ∉ late →
    binding ∈ t.active ∧ t.table.get? binding.id = s.table.get? binding.id
  frame : t = { s with
    maxConcurrent := limit, table := t.table, active := t.active, dirty := t.dirty,
    events := t.events }

theorem Coherent.nodup_atWork (h : s.Coherent) : s.atWork.Nodup := by
  have hnodup : (s.active.map Binding.id).Nodup := by
    rw [ids_active_eq]
    exact h.nodup
  exact hnodup.of_map.sublist List.filter_sublist

/-- A worker is pushed back if and only if it is one of the late ones. -/
theorem Coherent.id_mem_excess_iff (h : s.Coherent) {binding : Binding}
    (hmem : binding ∈ s.active) :
    binding.id ∈ s.excess limit ↔ binding ∈ s.atWork.drop limit.toNat := by
  rw [h.mem_excess_iff, List.mem_map]
  constructor
  · rintro ⟨other, hother, hid⟩
    have hactive : other ∈ s.active := (List.mem_filter.mp (List.mem_of_mem_drop hother)).1
    have hnodup : (s.active.map Binding.id).Nodup := by
      rw [ids_active_eq]
      exact h.nodup
    rwa [← List.inj_on_of_nodup_map hnodup hactive hmem hid]
  · exact fun hlate => ⟨binding, hlate, rfl⟩

theorem Coherent.foldl_requeue_excess (h : s.Coherent) (limit : UInt64) :
    (s.excess limit).foldl requeue s = s.pushBack (s.excess limit) := by
  apply foldl_requeue_eq_pushBack h.sound.nodup (h.nodup_excess limit)
  intro id hmem
  have hrunning : id ∈ s.running := List.mem_reverse.mp (List.mem_of_mem_take hmem)
  obtain ⟨standing, hstanding, hstatus⟩ := h.stands_of_mem_running hrunning
  obtain ⟨item, hget, rfl⟩ := get?_of_standing? hstanding
  exact ⟨item, hget, hstatus⟩

/-- A lower limit pushes back the youngest transfers in one sweep; none of them is met twice. -/
theorem Coherent.setMaxConcurrent_eq (h : s.Coherent) (hpositive : 0 < limit)
    (hlower : limit < s.maxConcurrent) :
    s.setMaxConcurrent limit =
      ({ s.pushBack (s.excess limit) with maxConcurrent := limit }, .ok .applied) := by
  have hzero : limit ≠ 0 := by
    rintro rfl
    exact absurd hpositive (by decide)
  have hraised : ¬ s.maxConcurrent < limit := by
    rw [UInt64.lt_iff_toNat_lt] at hlower ⊢
    omega
  have hother : limit ≠ s.maxConcurrent := by
    rintro rfl
    exact hraised hlower
  have hexcess : ({ s with maxConcurrent := limit } : Scheduler).excess limit = s.excess limit := rfl
  simp only [setMaxConcurrent, if_neg hzero, if_neg hother, if_neg hraised, hexcess,
    foldl_requeue_withLimit, h.foldl_requeue_excess]

theorem Coherent.stop_of_mem_atWork (h : s.Coherent) {binding : Binding}
    (hmem : binding ∈ s.atWork) : binding.stop = none := by
  rw [h.atWork_eq] at hmem
  exact Option.isNone_iff_eq_none.mp (List.mem_filter.mp hmem).2

theorem Coherent.active_pushBack (h : s.Coherent) (limit : UInt64) :
    (s.pushBack (s.excess limit)).active = s.active.map fun binding =>
      if binding ∈ s.atWork.drop limit.toNat then
        { binding with stop := some .requeue, cancelled := true }
      else binding := by
  apply List.map_congr_left
  intro binding hmem
  by_cases hlate : binding ∈ s.atWork.drop limit.toNat
  · have hstop : binding.stop = none := h.stop_of_mem_atWork (List.mem_of_mem_drop hlate)
    rw [if_pos hlate, if_pos ((h.id_mem_excess_iff hmem).mpr hlate), pushedBack, hstop]
    rfl
  · rw [if_neg hlate, if_neg fun hid => hlate ((h.id_mem_excess_iff hmem).mp hid)]

/-- As many of the oldest transfers as the new limit allows go on. -/
theorem Coherent.atWork_pushBack (h : s.Coherent) (limit : UInt64) :
    (s.pushBack (s.excess limit)).atWork = s.atWork.take limit.toNat := by
  have hchain : Chain (fun _ _ => True) s ((s.excess limit).foldl requeue s) :=
    chain_foldl_requeue h limit
  rw [h.foldl_requeue_excess] at hchain
  have hkept : ∀ binding ∈ s.atWork.take limit.toNat,
      (if binding ∈ s.atWork.drop limit.toNat then
        { binding with stop := some .requeue, cancelled := true } else binding) = binding := by
    intro binding hmem
    rw [← filter_not_mem_drop s.atWork h.nodup_atWork, List.mem_filter, decide_eq_true_eq] at hmem
    exact if_neg hmem.2
  calc
    (s.pushBack (s.excess limit)).atWork =
        (s.pushBack (s.excess limit)).active.filter fun binding => binding.stop.isNone :=
      (hchain.coherent h).atWork_eq
    _ = ((s.active.filter fun binding => binding.stop.isNone).filter fun binding =>
          binding ∉ s.atWork.drop limit.toNat).map fun binding =>
            if binding ∈ s.atWork.drop limit.toNat then
              { binding with stop := some .requeue, cancelled := true } else binding := by
      rw [h.active_pushBack, List.filter_map, List.filter_filter]
      congr 1
      apply List.filter_congr
      intro binding _
      by_cases hlate : binding ∈ s.atWork.drop limit.toNat <;> simp [hlate]
    _ = s.atWork.take limit.toNat := by
      rw [← h.atWork_eq, filter_not_mem_drop s.atWork h.nodup_atWork,
        List.map_congr_left hkept, List.map_id']

theorem Coherent.get?_pushBack (h : s.Coherent) (limit : UInt64) {binding : Binding}
    (hmem : binding ∈ s.active) :
    (s.pushBack (s.excess limit)).table.get? binding.id =
      (s.table.get? binding.id).map fun item =>
        if binding ∈ s.atWork.drop limit.toNat then
          { item with status := .queued, lastError := none } else item := by
  simp only [pushBack, turnAll, Table.get?_turn, h.id_mem_excess_iff hmem]

theorem Coherent.lowered (h : s.Coherent) (hranked : s.Ranked) (limit : UInt64) :
    Lowered s { s.pushBack (s.excess limit) with maxConcurrent := limit } limit
      (s.atWork.take limit.toNat) (s.atWork.drop limit.toNat) where
  running := (List.take_append_drop _ _).symm
  count := List.length_take
  older := by
    have hordered := hranked.pairwise_atWork
    rw [← List.take_append_drop limit.toNat s.atWork, List.pairwise_append] at hordered
    exact hordered.2.2
  working := h.atWork_pushBack limit
  bindings := h.active_pushBack limit
  table := Table.turn_congr s.table (fun _ => h.mem_excess_iff) .queued
  waiting binding hlate := by
    have hwork : binding ∈ s.atWork := List.mem_of_mem_drop hlate
    obtain ⟨hmem, hrunning⟩ := List.mem_filter.mp hwork
    rw [Bool.and_eq_true, Option.any_eq_true] at hrunning
    obtain ⟨item, hget, hstatus⟩ := hrunning.2
    refine ⟨item, hget, of_decide_eq_true hstatus, ?_⟩
    change (s.pushBack (s.excess limit)).table.get? binding.id = _
    rw [h.get?_pushBack limit hmem, hget, Option.map_some, if_pos hlate]
  others binding hmem hother := by
    constructor
    · change binding ∈ (s.pushBack (s.excess limit)).active
      rw [h.active_pushBack, List.mem_map]
      exact ⟨binding, hmem, if_neg hother⟩
    · change (s.pushBack (s.excess limit)).table.get? binding.id = _
      simp only [h.get?_pushBack limit hmem, if_neg hother, Option.map_id']
  frame := rfl

/-- **A lower limit keeps the oldest transfers.** In whatever state a run is, a limit below the
present one leaves as many running transfers as it allows, those that were admitted first. All others
are pushed back into the queue, and nothing is begun. -/
theorem lowered_of_actions (config : Config) {files : FileSystem} {path : Path} {items : List Item}
    (hload : QueueFile.load files path = .ok items) {table : Table}
    (htable : Table.ofItems items = .ok table) (now : Timestamp) (share : Float)
    (actions : List Action)
    (hreached : actions.foldl act (Scheduler.ofTable config table files now share).restore = s)
    (hpositive : 0 < limit) (hlower : limit < s.maxConcurrent) :
    ∃ t kept late, s.setMaxConcurrent limit = (t, .ok .applied) ∧ Lowered s t limit kept late := by
  have hsound : table.Sound := (Table.Sound.ofItems (QueueFile.nodup_of_load hload) htable).1
  have hstart : (Scheduler.ofTable config table files now share).restore.Orderly :=
    orderly_restore hsound rfl
  have hchain : Chain (fun _ _ => True) (Scheduler.ofTable config table files now share)
      (Scheduler.ofTable config table files now share).restore := chain_restore hsound rfl
  have hranked : (Scheduler.ofTable config table files now share).restore.Ranked :=
    hchain.trail.ranked (Ranked.of_active_eq_nil rfl)
  subst hreached
  have hcoherent := (hstart.foldl_act actions).coherent
  exact ⟨_, _, _, hcoherent.setMaxConcurrent_eq hpositive hlower,
    hcoherent.lowered (hstart.ranked_foldl_act hranked actions) limit⟩

/-- Two transfers are running, and there shall be one. -/
theorem lowered_of_actions_twins :
    ∃ s t kept late,
      QueueFile.load (twinFiles ⟨"/b"⟩) ⟨"/q"⟩ = .ok (twins ⟨"/b"⟩) ∧
      Table.ofItems (twins ⟨"/b"⟩) = .ok ⟨twins ⟨"/b"⟩, 5⟩ ∧
      [.operation .tick].foldl act (Scheduler.ofTable roomyConfig ⟨twins ⟨"/b"⟩, 5⟩
        (twinFiles ⟨"/b"⟩) .epoch 0).restore = s ∧
      (0 : UInt64) < 1 ∧ 1 < s.maxConcurrent ∧
      s.setMaxConcurrent 1 = (t, .ok .applied) ∧ Lowered s t 1 kept late ∧
      kept.map Binding.id = [⟨3⟩] ∧ late.map Binding.id = [⟨4⟩] := by
  have hnodup : ((twins ⟨"/b"⟩).map Item.id).Nodup := (by decide : [(⟨3⟩ : ItemId), ⟨4⟩].Nodup)
  have hload : QueueFile.load (twinFiles ⟨"/b"⟩) ⟨"/q"⟩ = .ok (twins ⟨"/b"⟩) :=
    QueueFile.load_of_read hnodup rfl
  have htable : Table.ofItems (twins ⟨"/b"⟩) = .ok ⟨twins ⟨"/b"⟩, 5⟩ := rfl
  have hpositive : (0 : UInt64) < 1 := by decide
  obtain ⟨t, kept, late, ht, hlowered⟩ := lowered_of_actions roomyConfig hload htable .epoch 0
    [.operation .tick] rfl hpositive (by decide +kernel)
  have hone : kept.length = 1 := hlowered.count.trans (by decide +kernel)
  have hkept : (kept ++ late).take 1 = kept := by rw [← hone, List.take_left]
  have hlate : (kept ++ late).drop 1 = late := by rw [← hone, List.drop_left]
  rw [← hlowered.running] at hkept hlate
  refine ⟨_, t, kept, late, hload, htable, rfl, hpositive, by decide +kernel, ht, hlowered, ?_, ?_⟩
  · rw [← hkept]
    decide +kernel
  · rw [← hlate]
    decide +kernel

end Scheduler

end DownloadQueue
