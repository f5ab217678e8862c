import DownloadQueue.Proofs.Chronicle

/-!
# Deleted items leave the table

A deleted item leaves the table when the queue file is written and its worker is gone. The queue file
is written only if the table was marked, so whoever lets the worker of a deleted item go must mark it.
All do but one: a worker that completes its transfer although it was told to delete its item goes
without a trace, and its item stays until something else is to be written.
-/

namespace DownloadQueue

namespace Scheduler

variable {completed lost late : ItemId → Prop} {s t : Scheduler} {id : ItemId}
variable {items : List Item} {ids : List ItemId}

/-- A deleted item without a worker waits for the queue file to be written, but for those that are
late. -/
def Swept (late : ItemId → Prop) (s : Scheduler) : Prop :=
  ∀ id standing, s.standing? id = some standing → standing.status = .deleted →
    s.dirty = true ∨ s.duty? id ≠ none ∨ late id

theorem swept_of_dirty (h : s.dirty = true) : Swept late s :=
  fun _ _ _ _ => .inl h

/-- When nothing waits to be written, deleted items have workers or are late. -/
theorem Swept.bound_or_late (h : Swept late s) (hsound : s.table.Sound) (hclean : s.dirty = false)
    {item : Item} (hmem : item ∈ s.table.items) (hdeleted : item.status = .deleted) :
    s.isBound item.id = true ∨ late item.id := by
  have hstanding := standing?_of_get? (hsound.get?_of_mem hmem)
  rcases h _ _ hstanding hdeleted with hdirty | hbound | hlate
  · rw [hclean] at hdirty
    cases hdirty
  · exact .inl (isBound_iff.mpr (Option.ne_none_iff_exists'.mp hbound))
  · exact .inr hlate

/-- Once the queue file was written, no deleted item is left without a worker. -/
theorem swept_dismiss (h : s.table.Sound) : Swept late (s.dismiss s.lingers) := by
  intro id standing hstanding hdeleted
  obtain ⟨item, hget, rfl⟩ := get?_of_standing? hstanding
  have hkept : (s.table.get? id).filter s.lingers = some item :=
    h.find?_filter s.lingers id ▸ hget
  obtain ⟨hbefore, hlingers⟩ := Option.filter_eq_some_iff.mp hkept
  have hdeleted : item.status = .deleted := hdeleted
  rw [lingers, hdeleted, Table.id_of_get? hbefore] at hlingers
  refine .inr (.inl fun hfree => ?_)
  have hunbound : s.isBound id = false := isBound_eq_false_iff.mpr hfree
  rw [hunbound] at hlingers
  cases hlingers

/-- No motion leaves a deleted item behind that does not wait for the next save, unless its worker
went without a trace. -/
theorem Motion.swept (hmotion : Motion completed lost s t) (hsound : s.table.Sound)
    (hlost : ∀ id, lost id → late id) (h : Swept late s) : Swept late t := by
  have halike (halike : Alike s t) (hdirty : t.dirty = s.dirty) : Swept late t := by
    intro id standing hstanding hdeleted
    rw [halike.standing?] at hstanding
    rw [halike.duty?, hdirty]
    exact h id standing hstanding hdeleted
  cases hmotion with
  | aside htable hdirty _ hbound =>
    intro id standing hstanding hdeleted
    rw [standing?, htable] at hstanding
    rw [hdirty]
    exact (h id standing hstanding hdeleted).imp_right (Or.imp_left (hbound id))
  | mark => exact swept_of_dirty rfl
  | @note id change hstanding => exact halike (alike_modifyItem s id change hstanding) rfl
  | tell event => exact halike (alike_emit s event) rfl
  | @turn id status hstands _ =>
    obtain ⟨standing, hstanding, -⟩ := hstands
    obtain ⟨item, hget, -⟩ := get?_of_standing? hstanding
    by_cases heq : item.status = status
    · rwa [setStatus_of_eq hget heq]
    · rw [setStatus_of_ne hget heq]
      exact swept_of_dirty rfl
  | leave keep =>
    intro id standing hstanding hdeleted
    obtain ⟨item, hget, rfl⟩ := get?_of_standing? hstanding
    have hkept : (s.table.get? id).filter keep = some item := hsound.find?_filter keep id ▸ hget
    exact h id _ (standing?_of_get? (Option.filter_eq_some_iff.mp hkept).1) hdeleted
  | sweep =>
    have hclean : ({ s with dirty := false } : Scheduler).table.Sound := hsound
    exact swept_dismiss hclean
  | @release other hrelease =>
    -- The only way to lose a worker: the mark is set, or the item is late or not deleted.
    intro id standing hstanding hdeleted
    rw [duty?_unbind]
    by_cases heq : id = other
    · subst heq
      rcases hrelease with hdirty | hlate | ⟨found, hfound, hlive⟩
      · exact .inl hdirty
      · exact .inr (.inr (hlost id hlate))
      · obtain rfl : found = standing := Option.some.inj (hfound.symm.trans hstanding)
        exact absurd hdeleted hlive
    · rw [if_neg heq]
      exact h id standing hstanding hdeleted

/-- The run lemma: only the items whose worker may go without a trace are late. -/
theorem Story.swept (hstory : Story completed lost s items t) (hsound : s.table.Sound)
    (hlost : ∀ id, lost id → late id) (h : Swept late s) : Swept late t := by
  induction hstory with
  | refl => exact h
  | motion hbefore hmotion ih => exact hmotion.swept (hbefore.sound hsound) hlost ih
  | @join t items hbefore item next hnext hid hlive ih =>
    intro id standing hstanding hdeleted
    obtain ⟨found, hget, rfl⟩ := get?_of_standing? hstanding
    have hnone : t.table.get? item.id = none :=
      hid ▸ (hbefore.sound hsound).get?_nextId
    rw [Scheduler.emit, Table.get?_append hnone] at hget
    split at hget
    · cases hget
      exact absurd hdeleted hlive
    · exact ih id _ (standing?_of_get? hget) hdeleted

theorem swept_restore {table : Table} (hsound : table.Sound)
    (hlive : ∀ item ∈ table.items, item.status ≠ .deleted) (config : Config) (files : FileSystem)
    (now : Timestamp) (share : Float) :
    Swept late (Scheduler.ofTable config table files now share).restore := by
  have hopened : Swept late (Scheduler.ofTable config table files now share) := by
    intro id standing hstanding hdeleted
    obtain ⟨item, hget, rfl⟩ := get?_of_standing? hstanding
    exact absurd hdeleted (hlive item (Table.mem_of_get? hget))
  have hmotions : Motions (fun _ => True) (fun _ => False)
      (Scheduler.ofTable config table files now share) _ := motions_restore hsound rfl
  exact (story_of_motions hmotions).swept hsound (fun _ hfalse => hfalse.elim) hopened

/-- The late items after an action: those whose worker completed its transfer although it was told to
delete them, since the queue file was last written. -/
def lateAfter (s : Scheduler) (ids : List ItemId) (action : Action) : List ItemId :=
  match action with
  | .message message => if s.outruns message then message.id :: ids else ids
  | .operation .commit => if s.dirty && !s.commit.scheduler.dirty then [] else ids
  | _ => ids

def lateOf (s : Scheduler) (ids : List ItemId) : List Action → List ItemId
  | [] => ids
  | action :: actions => (s.act action).lateOf (s.lateAfter ids action) actions

/-- A save that succeeds leaves no deleted item without a worker behind. -/
theorem swept_commit (h : s.table.Sound) (hdirty : s.dirty = true)
    (hclean : s.commit.scheduler.dirty = false) : Swept late s.commit.scheduler := by
  have hpublish (t : Scheduler) : t.publish.scheduler.dirty = t.dirty ∧
      (Swept late t → Swept late t.publish.scheduler) := by
    rw [publish]
    split <;> exact ⟨rfl, fun h => h⟩
  refine (hpublish s.saveChanges).2 ?_
  have hsaved : s.saveChanges.dirty = false := (hpublish s.saveChanges).1 ▸ hclean
  rw [saveChanges, if_pos hdirty] at hsaved ⊢
  have htable : s.persist.1.table = s.table ∧ s.persist.1.dirty = s.dirty := ⟨rfl, rfl⟩
  split
  · next saved hpersist =>
    rw [hpersist] at htable
    have hsound : ({ saved with dirty := false } : Scheduler).table.Sound := htable.1 ▸ h
    rw [dropDeleted_eq]
    exact swept_dismiss hsound
  · next saved error hpersist =>
    rw [hpersist] at hsaved htable
    have hstill : saved.dirty = false := hsaved
    rw [htable.2, hdirty] at hstill
    cases hstill

/-- The step for an action, with the items that are late after it. -/
theorem swept_act (h : s.Coherent) {action : Action} (hrunning : action ≠ .shutdown)
    (hswept : Swept (fun id => id ∈ ids) s) :
    Swept (fun id => id ∈ s.lateAfter ids action) (s.act action) := by
  have hkept (hlost : ∀ id, s.loses action id → id ∈ s.lateAfter ids action)
      (hsub : ids ⊆ s.lateAfter ids action) :
      Swept (fun id => id ∈ s.lateAfter ids action) (s.act action) := by
    refine (story_act h action).swept h.sound hlost fun id standing hstanding hdeleted => ?_
    exact (hswept id standing hstanding hdeleted).imp_right (Or.imp_right fun hmem => hsub hmem)
  cases action with
  | operation operation =>
    cases operation with
    | commit =>
      by_cases hwritten : (s.dirty && !s.commit.scheduler.dirty) = true
      · rw [Bool.and_eq_true, Bool.not_eq_true'] at hwritten
        exact swept_commit h.sound hwritten.1 hwritten.2
      · refine hkept (fun id hloses => hloses.elim) ?_
        rw [lateAfter, if_neg hwritten]
        exact List.Subset.refl ids
    | _ => exact hkept (fun id hloses => hloses.elim) (List.Subset.refl ids)
  | message message =>
    refine hkept ?_ ?_
    · rintro id ⟨rfl, houtruns⟩
      rw [lateAfter, if_pos houtruns]
      exact List.mem_cons_self
    · rw [lateAfter]
      split
      · exact List.subset_cons_self _ _
      · exact List.Subset.refl ids
  | shutdown => exact absurd rfl hrunning
  | outside files inbox clock now share =>
    exact hkept (fun id hloses => hloses.elim) (List.Subset.refl ids)

theorem Orderly.swept_foldl_act (h : s.Orderly) {actions : List Action}
    (hrunning : ∀ action ∈ actions, action ≠ .shutdown) (hswept : Swept (fun id => id ∈ ids) s) :
    Swept (fun id => id ∈ s.lateOf ids actions) (actions.foldl act s) := by
  induction actions generalizing s ids with
  | nil => exact hswept
  | cons action actions ih =>
    have hfirst := swept_act h.coherent (hrunning action List.mem_cons_self) hswept
    exact ih (h.foldl_act [action])
      (fun later hmem => hrunning later (List.mem_cons_of_mem _ hmem)) hfirst

structure Over (id : ItemId) (s : Scheduler) : Prop where
  given : id.value.toNat < s.table.nextId.toNat
  deleted : ∀ standing, s.standing? id = some standing → standing.status = .deleted

theorem over_of_mem (h : s.table.Sound) {item : Item} (hmem : item ∈ s.table.items)
    (hdeleted : item.status = .deleted) : Over item.id s := by
  refine ⟨h.lt_nextId item hmem, fun standing hstanding => ?_⟩
  obtain ⟨found, hget, rfl⟩ := get?_of_standing? hstanding
  rw [h.get?_of_mem hmem] at hget
  cases hget
  exact hdeleted

/-- What was deleted stays deleted until it leaves. -/
theorem Motion.over (hmotion : Motion completed lost s t) (hsound : s.table.Sound)
    (h : Over id s) : Over id t := by
  have halike (halike : Alike s t) : Over id t := by
    refine ⟨halike.nextId ▸ h.given, fun standing hstanding => ?_⟩
    rw [halike.standing?] at hstanding
    exact h.deleted standing hstanding
  have hfilter (keep : Item → Bool) {standing : Standing}
      (hstanding : ((s.table.items.filter keep).find? fun item => item.id = id).map Item.standing =
        some standing) : standing.status = .deleted := by
    rw [hsound.find?_filter] at hstanding
    obtain ⟨item, hitem, rfl⟩ := Option.map_eq_some_iff.mp hstanding
    exact h.deleted _ (standing?_of_get? (Option.filter_eq_some_iff.mp hitem).1)
  cases hmotion with
  | aside htable =>
    refine ⟨htable ▸ h.given, fun standing hstanding => h.deleted standing ?_⟩
    rwa [standing?, htable] at hstanding
  | mark => exact ⟨h.given, h.deleted⟩
  | @note other change hstanding => exact halike (alike_modifyItem s other change hstanding)
  | tell event => exact halike (alike_emit s event)
  | @turn other status hstands _ =>
    refine ⟨nextId_setStatus s other status ▸ h.given, fun standing hstanding => ?_⟩
    by_cases heq : id = other
    · subst heq
      obtain ⟨before, hbefore, hadmits⟩ := hstands
      rw [status_of_standing?_setStatus hstanding]
      rw [h.deleted before hbefore] at hadmits
      exact hadmits.elim Eq.symm fun hnext => absurd hnext List.not_mem_nil
    · rw [standing?_setStatus_of_ne s status heq] at hstanding
      exact h.deleted standing hstanding
  | leave keep => exact ⟨h.given, fun _ hstanding => hfilter keep hstanding⟩
  | sweep => exact ⟨h.given, fun _ hstanding => hfilter s.lingers hstanding⟩
  | release => exact ⟨h.given, h.deleted⟩

theorem Story.over (hstory : Story completed lost s items t) (hsound : s.table.Sound)
    (h : Over id s) : Over id t := by
  induction hstory with
  | refl => exact h
  | motion hbefore hmotion ih => exact hmotion.over (hbefore.sound hsound) ih
  | @join t items hbefore item next hnext hid hlive ih =>
    have hgrows := (Counter.next64_eq_ok hnext).2
    have hgiven := ih.given
    refine ⟨by dsimp only [emit]; omega, fun standing hstanding => ih.deleted standing ?_⟩
    have hnone : t.standing? item.id = none := hid ▸ standing?_nextId (hbefore.sound hsound)
    have hne : id ≠ item.id := by
      rintro rfl
      rw [hid] at hgiven
      exact Nat.lt_irrefl _ hgiven
    have hadded : ({ t with table := ⟨t.table.items ++ [item], next⟩ } : Scheduler).standing? id =
        t.standing? id := (standing?_append hnone id).trans (if_neg hne)
    exact hadded.symm.trans hstanding

theorem Orderly.over_foldl_act (h : s.Orderly) (actions : List Action) (hover : Over id s) :
    Over id (actions.foldl act s) := by
  induction actions generalizing s with
  | nil => exact hover
  | cons action actions ih =>
    exact ih (h.foldl_act [action]) ((story_act h.coherent action).over h.coherent.sound hover)

/-- The newcomers of a chronicle are those that its events announce. -/
theorem Chronicle.newcomer_iff {opened newcomers : List Item} {events : List Event}
    (h : Chronicle opened newcomers events s) :
    (∃ url, .queued id url ∈ events) ↔ id ∈ newcomers.map Item.id := by
  have hnumbers : newcomers.map Item.id = (events.filterMap Event.newcomer?).map Prod.fst := by
    rw [h.announced, List.map_map]
    rfl
  rw [hnumbers, List.mem_map]
  constructor
  · rintro ⟨url, hmem⟩
    exact ⟨(id, url), List.mem_filterMap.mpr ⟨_, hmem, rfl⟩, rfl⟩
  · rintro ⟨⟨other, url⟩, hmem, rfl⟩
    obtain ⟨event, hevent, hnew⟩ := List.mem_filterMap.mp hmem
    cases event with
    | queued => cases hnew; exact ⟨url, hevent⟩
    | _ => cases hnew

/-- An item that came and is not there any more has left with an event. -/
theorem Chronicle.removed_mem {opened newcomers : List Item} {events : List Event}
    (h : Chronicle opened newcomers events s) (hcame : id ∈ (opened ++ newcomers).map Item.id)
    (hgone : id ∉ s.table.items.map Item.id) : .removed id ∈ events := by
  by_contra hstays
  rw [List.map_append, List.mem_append, ← h.newcomer_iff] at hcame
  exact hgone ((h.present id).mpr ⟨hcame, hstays⟩)

theorem Chronicle.mem_came {opened newcomers : List Item} {events : List Event}
    (h : Chronicle opened newcomers events s) (hthere : id ∈ s.table.items.map Item.id) :
    id ∈ (opened ++ newcomers).map Item.id := by
  rw [List.map_append, List.mem_append, ← h.newcomer_iff]
  exact ((h.present id).mp hthere).1

/-- An item that was there and is not there any more after some actions has left with an event. -/
theorem Recorded.removed_mem {opened newcomers : List Item}
    (h : Recorded opened newcomers s.events s) (horderly : s.Orderly) (actions : List Action)
    (hthere : id ∈ s.table.items.map Item.id)
    (hgone : id ∉ (actions.foldl act s).table.items.map Item.id) :
    .removed id ∈ (actions.foldl act s).events := by
  have hcame := h.mem_came hthere
  refine (h.foldl_act horderly actions).toChronicle.removed_mem ?_ hgone
  rw [← List.append_assoc, List.map_append]
  exact List.mem_append_left _ hcame

/-- In a run that starts without deleted items, whenever nothing waits to be written, every deleted
item still has a worker or is late; and an item that was deleted before, if it has no worker any more
and is not late, has left, and its departure was told. -/
theorem departed_of_actions (config : Config) {table : Table} (hsound : table.Sound)
    (hlive : ∀ item ∈ table.items, item.status ≠ .deleted) (files : FileSystem) (now : Timestamp)
    (share : Float) (actions later : List Action)
    (hrunning : ∀ action ∈ actions ++ later, action ≠ .shutdown) :
    let start := (Scheduler.ofTable config table files now share).restore
    let s := actions.foldl act start
    let t := later.foldl act s
    let late := start.lateOf [] (actions ++ later)
    t.dirty = false →
      (∀ item ∈ t.table.items, item.status = .deleted →
        t.isBound item.id = true ∨ item.id ∈ late) ∧
      ∀ item ∈ s.table.items, item.status = .deleted →
        t.isBound item.id = true ∨ item.id ∈ late ∨
          (item.id ∉ t.table.items.map Item.id ∧ .removed item.id ∈ t.events) := by
  intro start s t late hclean
  have horderly : start.Orderly := orderly_restore hsound rfl
  have hs : s.Orderly := horderly.foldl_act actions
  have ht : t.Orderly := hs.foldl_act later
  have hrecorded : Recorded table.items [] start.events start :=
    recorded_restore (s := Scheduler.ofTable config table files now share) hsound rfl rfl
  have hswept : Swept (fun id => id ∈ late) t := by
    have hreached : (actions ++ later).foldl act start = t := List.foldl_append
    have hstart : Swept (fun id => id ∈ []) start :=
      swept_restore hsound hlive config files now share
    exact hreached ▸ horderly.swept_foldl_act hrunning hstart
  have hlinger (item : Item) (hmem : item ∈ t.table.items) (hdeleted : item.status = .deleted) :
      t.isBound item.id = true ∨ item.id ∈ late :=
    hswept.bound_or_late ht.coherent.sound hclean hmem hdeleted
  refine ⟨hlinger, fun item hmem hdeleted => ?_⟩
  by_cases hthere : item.id ∈ t.table.items.map Item.id
  · obtain ⟨left, hleft, hid⟩ := List.mem_map.mp hthere
    have hstanding := standing?_of_get? (ht.coherent.sound.get?_of_mem hleft)
    have hover : Over item.id t :=
      hs.over_foldl_act later (over_of_mem hs.coherent.sound hmem hdeleted)
    have hstill : left.status = .deleted := hover.deleted _ (hid ▸ hstanding)
    exact hid ▸ (hlinger left hleft hstill).imp_right .inl
  · have htold : Recorded table.items (start.entered actions) s.events s :=
      hrecorded.foldl_act horderly actions
    exact .inr (.inr ⟨hthere, htold.removed_mem hs later (List.mem_map_of_mem hmem) hthere⟩)

def dismissal : List Action :=
  [.operation .tick, .operation .commit, .operation (.dispatch (.delete ⟨3⟩) []), .operation .commit]

def farewell (ending : Ending) : List Action :=
  [.message ⟨⟨3⟩, .ended ending⟩, .operation .commit]

theorem departed_of_actions_farewell :
    let start := (Scheduler.ofTable roomyConfig ⟨[cutOff], 4⟩ cutOffFiles .epoch 0).restore
    let s := dismissal.foldl act start
    let t := (farewell .cancelled).foldl act s
    let late := start.lateOf [] (dismissal ++ farewell .cancelled)
    s.table.items.map Item.status = [.deleted] ∧ t.isBound ⟨3⟩ = false ∧ late = [] ∧
      .removed ⟨3⟩ ∈ t.events ∧
      ((∀ item ∈ t.table.items, item.status = .deleted →
          t.isBound item.id = true ∨ item.id ∈ late) ∧
        ∀ item ∈ s.table.items, item.status = .deleted →
          t.isBound item.id = true ∨ item.id ∈ late ∨
            (item.id ∉ t.table.items.map Item.id ∧ .removed item.id ∈ t.events)) := by
  refine ⟨by decide +kernel, by decide +kernel, by decide +kernel, by decide +kernel, ?_⟩
  exact departed_of_actions roomyConfig sound_cutOff (by decide) cutOffFiles .epoch 0 dismissal
    (farewell .cancelled) (by simp [dismissal, farewell]) (by decide +kernel)

def forsaken : Scheduler :=
  (dismissal ++ farewell .completed).foldl act
    (Scheduler.ofTable roomyConfig ⟨[cutOff], 4⟩ cutOffFiles .epoch 0).restore

/-- When the worker of a deleted item completes its transfer, the item stays in the table without a
worker, although nothing waits to be written. -/
theorem not_all_departed :
    ¬ ∀ (config : Config) (table : Table) (files : FileSystem) (now : Timestamp) (share : Float)
        (actions : List Action), table.Sound → (∀ item ∈ table.items, item.status ≠ .deleted) →
      (∀ action ∈ actions, action ≠ .shutdown) →
      (actions.foldl act (Scheduler.ofTable config table files now share).restore).dirty = false →
      ∀ item ∈ (actions.foldl act
          (Scheduler.ofTable config table files now share).restore).table.items,
        item.status = .deleted → (actions.foldl act
          (Scheduler.ofTable config table files now share).restore).isBound item.id = true := by
  intro hall
  have hbound : ∀ item ∈ forsaken.table.items, item.status = .deleted →
      forsaken.isBound item.id = true := by
    unfold forsaken
    exact hall roomyConfig ⟨[cutOff], 4⟩ cutOffFiles .epoch 0 (dismissal ++ farewell .completed)
      sound_cutOff (by decide) (by simp [dismissal, farewell]) (by decide +kernel)
  have hleft : forsaken.table.items.any (fun item => item.status = .deleted) = true ∧
      forsaken.table.items.all (fun item => !forsaken.isBound item.id) = true := by
    decide +kernel
  obtain ⟨item, hmem, hdeleted⟩ := List.any_eq_true.mp hleft.1
  have hfree := List.all_eq_true.mp hleft.2 item hmem
  rw [hbound item hmem (of_decide_eq_true hdeleted)] at hfree
  cases hfree

end Scheduler

end DownloadQueue
