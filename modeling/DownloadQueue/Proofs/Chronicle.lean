import DownloadQueue.Proofs.Records
import DownloadQueue.Proofs.Saturation
import DownloadQueue.Proofs.Stories

/-!
# Events tell the whole story

A listener that knows the items that the queue was opened with can follow the table by the events
alone: which items there are, which came and which left, and the status of each. It is shown for
motions and joins, and then for every run.
-/

namespace DownloadQueue

def Event.newcomer? : Event → Option (ItemId × String)
  | .queued id url => some (id, url)
  | _ => none

def Event.turn? (id : ItemId) : Event → Option (Status × Status)
  | .statusChanged other source target => if other = id then some (source, target) else none
  | _ => none

def Event.Precedes (earlier later : Event) : Prop :=
  ∀ id, earlier.id? = some id → later.id? = some id →
    earlier ≠ .removed id ∧ later.newcomer? = none

def turns (id : ItemId) (events : List Event) : List (Status × Status) :=
  events.filterMap (Event.turn? id)

/-- The first change starts from this status and every other one where the one before has led; the
last one leads to `last`. -/
def Status.Leads (first : Status) : List (Status × Status) → Status → Prop
  | [], last => first = last
  | (source, target) :: changes, last => source = first ∧ source ≠ target ∧ target.Leads changes last

theorem Status.Leads.concat {first last next : Status} {changes : List (Status × Status)}
    (h : first.Leads changes last) (hne : last ≠ next) :
    first.Leads (changes ++ [(last, next)]) next := by
  induction changes generalizing first with
  | nil =>
    cases h
    exact ⟨rfl, hne, rfl⟩
  | cons change changes ih =>
    obtain ⟨hsource, hchange, hrest⟩ := h
    exact ⟨hsource, hchange, ih hrest⟩

/-- An event that is passed over when the changes of an item are gathered. -/
theorem turns_append_of_none {id : ItemId} (events : List Event) {told : List Event}
    (h : ∀ event ∈ told, event.turn? id = none) : turns id (events ++ told) = turns id events := by
  rw [turns, List.filterMap_append, List.filterMap_eq_nil_iff.mpr h, List.append_nil, turns]

theorem turn?_of_id?_ne {id : ItemId} {event : Event} (h : event.id? ≠ some id) :
    event.turn? id = none := by
  cases event with
  | statusChanged other source target =>
    exact if_neg fun heq => h (congrArg some heq)
  | _ => rfl

theorem Event.Passing.newcomer? {event : Event} (h : event.Passing) : event.newcomer? = none := by
  cases event with
  | queued => cases h
  | _ => rfl

theorem Event.Passing.turn? {event : Event} (h : event.Passing) (id : ItemId) :
    event.turn? id = none := by
  cases event with
  | statusChanged => cases h
  | _ => rfl

namespace Scheduler

variable {completed lost : ItemId → Prop} {s t : Scheduler} {id : ItemId}
variable {opened newcomers more : List Item} {events told : List Event}

/-- What the events tell is all that has become of the items, from those that were opened to those
that are there now. -/
structure Chronicle (opened newcomers : List Item) (events : List Event) (s : Scheduler) : Prop where
  present : ∀ id, id ∈ s.table.items.map Item.id ↔
    (id ∈ opened.map Item.id ∨ ∃ url, .queued id url ∈ events) ∧ .removed id ∉ events
  announced : events.filterMap Event.newcomer? =
    newcomers.map fun item => (item.id, item.sourceUrl)
  distinct : ((opened ++ newcomers).map Item.id).Nodup
  ordered : events.Pairwise Event.Precedes
  followed : ∀ item ∈ opened ++ newcomers, ∃ last,
    item.status.Leads (turns item.id events) last ∧
      ∀ now, s.table.get? item.id = some now → now.status = last

structure Recorded (opened newcomers : List Item) (events : List Event) (s : Scheduler) : Prop
    extends Chronicle opened newcomers events s where
  sound : s.table.Sound
  known : ∀ item ∈ opened ++ newcomers, item.id.value.toNat < s.table.nextId.toNat
  told : ∀ event ∈ events, ∀ id, event.id? = some id → id.value.toNat < s.table.nextId.toNat

/-- A table is its own chronicle when nothing was told yet. -/
theorem recorded_refl (h : s.table.Sound) : Recorded s.table.items [] [] s where
  present id := by simp
  announced := rfl
  distinct := by
    rw [List.append_nil]
    exact h.nodup
  ordered := List.Pairwise.nil
  followed item hmem := by
    rw [List.append_nil] at hmem
    refine ⟨item.status, rfl, fun now hnow => ?_⟩
    rw [h.get?_of_mem hmem] at hnow
    cases hnow
    rfl
  sound := h
  known item hmem := by
    rw [List.append_nil] at hmem
    exact h.lt_nextId item hmem
  told event hmem := absurd hmem List.not_mem_nil

/-- A chronicle looks at numbers and statuses only. -/
theorem Recorded.of_standings (h : Recorded opened newcomers events s)
    (hstandings : t.standings = s.standings) (hnext : t.table.nextId = s.table.nextId) :
    Recorded opened newcomers events t where
  present id := by
    rw [ids_eq_map_standings, hstandings, ← ids_eq_map_standings]
    exact h.present id
  announced := h.announced
  distinct := h.distinct
  ordered := h.ordered
  followed item hmem := by
    obtain ⟨last, hleads, hlast⟩ := h.followed item hmem
    refine ⟨last, hleads, fun now hnow => ?_⟩
    have hstanding := standing?_of_get? hnow
    rw [standing?_eq_find?, hstandings, ← standing?_eq_find?] at hstanding
    obtain ⟨before, hbefore, hsame⟩ := get?_of_standing? hstanding
    rw [← hlast before hbefore]
    exact (congrArg Standing.status hsame).symm
  sound := by
    refine h.sound.of_ids ?_ hnext
    rw [ids_eq_map_standings, ids_eq_map_standings, hstandings]
  known := hnext ▸ h.known
  told := hnext ▸ h.told

/-- Nothing was told yet of an item's having left that is still there. -/
theorem Recorded.precedes (h : Recorded opened newcomers events s) {event : Event}
    (hnew : event.newcomer? = none)
    (hknown : ∀ id, event.id? = some id → id ∈ s.table.items.map Item.id) {earlier : Event}
    (hmem : earlier ∈ events) : earlier.Precedes event := by
  intro id _ hlater
  refine ⟨?_, hnew⟩
  rintro rfl
  exact ((h.present id).mp (hknown id hlater)).2 hmem

theorem Stands.mem_ids {p : Status → Prop} (h : s.Stands p id) :
    id ∈ s.table.items.map Item.id := by
  obtain ⟨standing, hstanding, -⟩ := h
  obtain ⟨item, hget, -⟩ := get?_of_standing? hstanding
  rw [← Table.get?_isSome_iff, hget]
  rfl

theorem queued_mem_append_iff {event : Event} (hnew : event.newcomer? = none) :
    (∃ url, .queued id url ∈ events ++ [event]) ↔ ∃ url, .queued id url ∈ events := by
  constructor
  · rintro ⟨url, hmem⟩
    rcases List.mem_append.mp hmem with hmem | hmem
    · exact ⟨url, hmem⟩
    · rw [← List.mem_singleton.mp hmem] at hnew
      cases hnew
  · rintro ⟨url, hmem⟩
    exact ⟨url, List.mem_append_left _ hmem⟩

/-- One more thing is told of an item that is there, and none comes or goes. -/
theorem Recorded.tell (h : Recorded opened newcomers events s) {event : Event}
    (hnew : event.newcomer? = none) (hstays : ∀ id, event ≠ .removed id)
    (hknown : ∀ id, event.id? = some id → id ∈ s.table.items.map Item.id)
    (hids : t.table.items.map Item.id = s.table.items.map Item.id)
    (hnext : t.table.nextId = s.table.nextId)
    (hfollowed : ∀ item ∈ opened ++ newcomers, ∃ last,
      item.status.Leads (turns item.id (events ++ [event])) last ∧
        ∀ now, t.table.get? item.id = some now → now.status = last) :
    Recorded opened newcomers (events ++ [event]) t where
  present id := by
    have hremoved : .removed id ∉ events ++ [event] ↔ .removed id ∉ events := by
      rw [List.mem_append, List.mem_singleton, not_or]
      exact and_iff_left fun heq => hstays id heq.symm
    rw [hids, h.present id, queued_mem_append_iff hnew, hremoved]
  announced := by
    rw [List.filterMap_append, h.announced, List.filterMap_cons_none hnew, List.filterMap_nil,
      List.append_nil]
  distinct := h.distinct
  ordered := by
    refine List.pairwise_append.mpr ⟨h.ordered, List.pairwise_singleton _ _, ?_⟩
    intro earlier hmem later hlater
    rw [List.mem_singleton.mp hlater]
    exact h.precedes hnew hknown hmem
  followed := hfollowed
  sound := h.sound.of_ids hids hnext
  known := hnext ▸ h.known
  told other hmem id hid := by
    rw [hnext]
    rcases List.mem_append.mp hmem with hmem | hmem
    · exact h.told other hmem id hid
    · rw [List.mem_singleton.mp hmem] at hid
      obtain ⟨item, hitem, rfl⟩ := List.mem_map.mp (hknown id hid)
      exact h.sound.lt_nextId item hitem

theorem Recorded.emit (h : Recorded opened newcomers events s) {event : Event}
    (hpassing : event.Passing) (hknown : ∀ id, event.id? = some id → s.Stands (fun _ => True) id) :
    Recorded opened newcomers (events ++ [event]) (s.emit event) := by
  refine h.tell hpassing.newcomer? ?_ (fun id hid => (hknown id hid).mem_ids) rfl rfl ?_
  · rintro id rfl
    cases hpassing
  · intro item hmem
    rw [turns_append_of_none]
    · exact h.followed item hmem
    · intro other hother
      rw [List.mem_singleton.mp hother]
      exact hpassing.turn? item.id

/-- A change of a status is told of together with the status that it leads from. -/
theorem Recorded.setStatus (h : Recorded opened newcomers events s) {item : Item}
    (hget : s.table.get? id = some item) {status : Status} (hne : item.status ≠ status) :
    Recorded opened newcomers (events ++ [.statusChanged id item.status status])
      (s.setStatus id status) := by
  refine h.tell rfl (by simp) ?_ (ids_setStatus s id status) (nextId_setStatus s id status) ?_
  · rintro _ ⟨⟩
    exact Table.get?_isSome_iff.mp (by rw [hget]; rfl)
  · intro first hmem
    obtain ⟨last, hleads, hlast⟩ := h.followed first hmem
    by_cases heq : first.id = id
    · have hsame : item.status = last := hlast item (heq ▸ hget)
      subst hsame
      refine ⟨status, ?_, fun now hnow => ?_⟩
      · rw [turns, List.filterMap_append]
        have hturn : [Event.statusChanged id item.status status].filterMap (Event.turn? first.id) =
            [(item.status, status)] :=
          List.filterMap_cons_some (if_pos heq.symm)
        rw [hturn]
        exact hleads.concat hne
      · rw [get?_setStatus, if_pos heq, hget] at hnow
        cases hnow
        exact status_turned status item
    · refine ⟨last, ?_, fun now hnow => ?_⟩
      · rw [turns_append_of_none]
        · exact hleads
        · intro event hevent
          rw [List.mem_singleton.mp hevent]
          exact if_neg fun hsame => heq hsame.symm
      · rw [get?_setStatus, if_neg heq] at hnow
        exact hlast now hnow

/-- The items that are left are those that were there, less those that were dropped. -/
theorem mem_ids_dismiss (h : s.table.Sound) (keep : Item → Bool) :
    id ∈ (s.dismiss keep).table.items.map Item.id ↔
      id ∈ s.table.items.map Item.id ∧ id ∉ (s.table.retain keep).1.map Item.id := by
  constructor
  · intro hmem
    obtain ⟨item, hitem, rfl⟩ := List.mem_map.mp hmem
    obtain ⟨hitem, hkept⟩ := (Table.mem_retain s.table keep item).mp hitem
    refine ⟨List.mem_map_of_mem hitem, fun hgone => ?_⟩
    obtain ⟨other, hother, heq⟩ := List.mem_map.mp hgone
    obtain ⟨hother, hdropped⟩ := (Table.mem_removed s.table keep other).mp hother
    rw [h.eq_of_id hother hitem heq, hkept] at hdropped
    cases hdropped
  · rintro ⟨hmem, hstays⟩
    obtain ⟨item, hitem, rfl⟩ := List.mem_map.mp hmem
    refine List.mem_map_of_mem ((Table.mem_retain s.table keep item).mpr ⟨hitem, ?_⟩)
    by_contra hdropped
    rw [Bool.not_eq_true] at hdropped
    exact hstays (List.mem_map_of_mem ((Table.mem_removed s.table keep item).mpr
      ⟨hitem, hdropped⟩))

/-- Whoever leaves the table is told of, once and at the end. -/
theorem Recorded.dismiss (h : Recorded opened newcomers events s) (keep : Item → Bool) :
    Recorded opened newcomers
      (events ++ (s.table.retain keep).1.map fun item => .removed item.id) (s.dismiss keep) where
  present id := by
    rw [mem_ids_dismiss h.sound, h.present id]
    simp only [List.mem_append, List.mem_map, Event.removed.injEq, reduceCtorEq, and_false,
      exists_false, or_false, not_or, and_assoc]
  announced := by
    rw [List.filterMap_append, h.announced, List.filterMap_eq_nil_iff.mpr, List.append_nil]
    intro event hmem
    obtain ⟨item, -, rfl⟩ := List.mem_map.mp hmem
    rfl
  distinct := h.distinct
  ordered := by
    refine List.pairwise_append.mpr ⟨h.ordered, ?_, ?_⟩
    · have hnodup : ((s.table.retain keep).1.map Item.id).Nodup :=
        h.sound.nodup.sublist (List.filter_sublist.map _)
      rw [List.pairwise_map]
      rw [List.Nodup, List.pairwise_map] at hnodup
      refine hnodup.imp fun hne id hfirst hsecond => absurd ?_ hne
      exact (Option.some.inj hfirst).trans (Option.some.inj hsecond).symm
    · intro earlier hmem later hlater
      obtain ⟨item, hitem, rfl⟩ := List.mem_map.mp hlater
      -- who leaves now is still in the table, so nothing told of it comes after its leave
      refine h.precedes rfl ?_ hmem
      rintro _ ⟨⟩
      exact List.mem_map_of_mem ((Table.mem_removed s.table keep item).mp hitem).1
  followed item hmem := by
    obtain ⟨last, hleads, hlast⟩ := h.followed item hmem
    refine ⟨last, ?_, fun now hnow => hlast now ?_⟩
    · rw [turns_append_of_none]
      · exact hleads
      · intro event hevent
        obtain ⟨gone, -, rfl⟩ := List.mem_map.mp hevent
        rfl
    · have hkept : (s.table.get? item.id).filter keep = some now :=
        h.sound.find?_filter keep item.id ▸ hnow
      exact (Option.filter_eq_some_iff.mp hkept).1
  sound := h.sound.filter keep
  known := h.known
  told event hmem id hid := by
    rcases List.mem_append.mp hmem with hmem | hmem
    · exact h.told event hmem id hid
    · obtain ⟨item, hitem, rfl⟩ := List.mem_map.mp hmem
      cases hid
      exact h.sound.lt_nextId item ((Table.mem_removed s.table keep item).mp hitem).1

theorem turns_of_new (hnew : ∀ event ∈ events, event.id? ≠ some id) : turns id events = [] :=
  List.filterMap_eq_nil_iff.mpr fun event hmem => turn?_of_id?_ne (hnew event hmem)

/-- Nothing was told yet of the next number. -/
theorem Recorded.untold (h : Recorded opened newcomers events s) {item : Item}
    (hid : item.id = ⟨s.table.nextId⟩) {event : Event} (hmem : event ∈ events) :
    event.id? ≠ some item.id := by
  intro heq
  have hlt := h.told event hmem item.id heq
  rw [hid] at hlt
  exact Nat.lt_irrefl _ hlt

theorem Recorded.fresh (h : Recorded opened newcomers events s) {item first : Item}
    (hid : item.id = ⟨s.table.nextId⟩) (hmem : first ∈ opened ++ newcomers) :
    first.id ≠ item.id := by
  intro heq
  have hlt := h.known first hmem
  rw [heq, hid] at hlt
  exact Nat.lt_irrefl _ hlt

/-- A newcomer is told of before anything else happens to it. -/
theorem Recorded.join (h : Recorded opened newcomers events s) {item : Item} {next : UInt64}
    (hnext : Counter.next64 s.table.nextId = .ok next) (hid : item.id = ⟨s.table.nextId⟩) :
    Recorded opened (newcomers ++ [item]) (events ++ [.queued item.id item.sourceUrl])
      (({ s with table := ⟨s.table.items ++ [item], next⟩ } : Scheduler).emit
        (.queued item.id item.sourceUrl)) where
  present id := by
    -- The newcomer's number is neither in the table nor told of, so it comes in by its event alone.
    by_cases heq : id = item.id
    · subst heq
      have hgone : .removed item.id ∉ events := fun hmem => h.untold hid hmem rfl
      simp [Scheduler.emit, hgone]
    · have hids := h.present id
      simp only [List.mem_append, List.mem_singleton, Event.queued.injEq, reduceCtorEq, or_false,
        Scheduler.emit, List.map_append, List.map_cons, List.map_nil, heq, false_and] at hids ⊢
      exact hids
  announced := by
    rw [List.filterMap_append, h.announced, List.map_append]
    rfl
  distinct := by
    rw [← List.append_assoc, List.map_append]
    refine List.nodup_append.mpr ⟨h.distinct, by simp, ?_⟩
    intro first hfirst other hother heq
    obtain ⟨known, hknown, rfl⟩ := List.mem_map.mp hfirst
    rw [List.map_cons, List.map_nil, List.mem_singleton] at hother
    exact h.fresh hid hknown (heq.trans hother)
  ordered := by
    refine List.pairwise_append.mpr ⟨h.ordered, List.pairwise_singleton _ _, ?_⟩
    intro earlier hmem later hlater id hearlier hsame
    rw [List.mem_singleton.mp hlater] at hsame
    cases hsame
    exact absurd hearlier (h.untold hid hmem)
  followed first hmem := by
    have hturns (id : ItemId) : turns id (events ++ [.queued item.id item.sourceUrl]) =
        turns id events := by
      refine turns_append_of_none events fun event hevent => ?_
      rw [List.mem_singleton.mp hevent]
      rfl
    have hnone : s.table.get? item.id = none :=
      hid ▸ h.sound.get?_nextId
    rw [hturns]
    rw [← List.append_assoc, List.mem_append, List.mem_singleton] at hmem
    rcases hmem with hmem | rfl
    · obtain ⟨last, hleads, hlast⟩ := h.followed first hmem
      refine ⟨last, hleads, fun now hnow => hlast now ?_⟩
      rwa [Scheduler.emit, Table.get?_append hnone, if_neg (h.fresh hid hmem)] at hnow
    · refine ⟨first.status, ?_, fun now hnow => ?_⟩
      · rw [turns_of_new fun event hevent => h.untold hid hevent]
        rfl
      · rw [Scheduler.emit, Table.get?_append hnone, if_pos rfl] at hnow
        cases hnow
        rfl
  sound := h.sound.append hnext hid
  known first hmem := by
    have hnumber := (Counter.next64_eq_ok hnext).2
    change first.id.value.toNat < next.toNat
    rw [← List.append_assoc, List.mem_append, List.mem_singleton] at hmem
    rcases hmem with hmem | rfl
    · have hlt := h.known first hmem
      omega
    · rw [hid]
      dsimp only
      omega
  told event hmem id hsame := by
    have hnumber := (Counter.next64_eq_ok hnext).2
    change id.value.toNat < next.toNat
    rcases List.mem_append.mp hmem with hmem | hmem
    · have hlt := h.told event hmem id hsame
      omega
    · rw [List.mem_singleton.mp hmem] at hsame
      cases hsame
      rw [hid]
      dsimp only
      omega

/-- What a motion tells goes on where the chronicle ends. -/
theorem Motion.recorded (hmotion : Motion completed lost s t)
    (h : Recorded opened newcomers events s) :
    ∃ told, t.events = s.events ++ told ∧ Recorded opened newcomers (events ++ told) t := by
  have hquiet (hevents : t.events = s.events) (hstandings : t.standings = s.standings)
      (hnext : t.table.nextId = s.table.nextId) :
      ∃ told, t.events = s.events ++ told ∧ Recorded opened newcomers (events ++ told) t := by
    refine ⟨[], by rw [hevents, List.append_nil], ?_⟩
    rw [List.append_nil]
    exact h.of_standings hstandings hnext
  cases hmotion with
  | aside htable _ hevents _ =>
    exact hquiet hevents (congrArg (fun table : Table => table.items.map Item.standing) htable)
      (congrArg Table.nextId htable)
  | mark => exact hquiet rfl rfl rfl
  | @note id change hstanding =>
    have halike := alike_modifyItem s id change hstanding
    exact hquiet rfl halike.standings halike.nextId
  | tell event hpassing hknown => exact ⟨[event], rfl, h.emit hpassing hknown⟩
  | @turn id status hstands _ =>
    obtain ⟨standing, hstanding, -⟩ := hstands
    obtain ⟨item, hget, -⟩ := get?_of_standing? hstanding
    by_cases heq : item.status = status
    · rw [setStatus_of_eq hget heq] at hquiet ⊢
      exact hquiet rfl rfl rfl
    · refine ⟨[.statusChanged id item.status status], ?_, h.setStatus hget heq⟩
      rw [setStatus_of_ne hget heq]
      rfl
  | leave keep => exact ⟨_, rfl, h.dismiss keep⟩
  | sweep =>
    have hclean : Recorded opened newcomers events { s with dirty := false } :=
      h.of_standings rfl rfl
    exact ⟨_, rfl, hclean.dismiss s.lingers⟩
  | release => exact hquiet rfl rfl rfl

/-- The run lemma: motions and newcomers in any order continue the chronicle. -/
theorem Story.recorded (hstory : Story completed lost s more t)
    (h : Recorded opened newcomers events s) :
    ∃ told, t.events = s.events ++ told ∧
      Recorded opened (newcomers ++ more) (events ++ told) t := by
  induction hstory with
  | refl => exact ⟨[], by rw [List.append_nil], by rwa [List.append_nil, List.append_nil]⟩
  | motion _ hmotion ih =>
    obtain ⟨first, hfirst, hrecorded⟩ := ih
    obtain ⟨second, hsecond, hlast⟩ := hmotion.recorded hrecorded
    refine ⟨first ++ second, ?_, ?_⟩
    · rw [hsecond, hfirst, List.append_assoc]
    · rwa [← List.append_assoc]
  | @join t items _ item next hnext hid _ ih =>
    obtain ⟨first, hfirst, hrecorded⟩ := ih
    refine ⟨first ++ [.queued item.id item.sourceUrl], ?_, ?_⟩
    · rw [Scheduler.emit, hfirst, List.append_assoc]
    · rw [← List.append_assoc, ← List.append_assoc]
      exact hrecorded.join hnext hid

def entered (s : Scheduler) : List Action → List Item
  | [] => []
  | action :: actions => s.joining action ++ (s.act action).entered actions

theorem Recorded.foldl_act (h : Recorded opened newcomers s.events s) (horderly : s.Orderly)
    (actions : List Action) :
    Recorded opened (newcomers ++ s.entered actions) (actions.foldl act s).events
      (actions.foldl act s) := by
  induction actions generalizing s newcomers with
  | nil =>
    rw [entered, List.append_nil]
    exact h
  | cons action actions ih =>
    obtain ⟨told, htold, hrecorded⟩ := (story_act horderly.coherent action).recorded h
    rw [← htold] at hrecorded
    rw [entered, ← List.append_assoc]
    exact ih hrecorded (horderly.foldl_act [action])

theorem recorded_restore (hsound : s.table.Sound) (hidle : s.active = []) (hnone : s.events = []) :
    Recorded s.table.items [] s.restore.events s.restore := by
  have hmotions : Motions (fun _ => True) (fun _ => True) s s.restore :=
    motions_restore hsound hidle
  obtain ⟨told, htold, hrecorded⟩ := (story_of_motions hmotions).recorded (recorded_refl hsound)
  rw [hnone, List.nil_append] at htold
  rw [htold]
  exact hrecorded

/-- From every table with distinct numbers, such as one that a queue file is loaded into, every
sequence of actions leaves events that tell the whole story of the table. -/
theorem chronicle_of_actions (config : Config) {table : Table} (hsound : table.Sound)
    (files : FileSystem) (now : Timestamp) (share : Float) (actions : List Action) :
    let start := (Scheduler.ofTable config table files now share).restore
    let s := actions.foldl act start
    Chronicle table.items (start.entered actions) s.events s := by
  intro start s
  have hstart : Recorded table.items [] start.events start :=
    recorded_restore (s := Scheduler.ofTable config table files now share) hsound rfl rfl
  exact (hstart.foldl_act (orderly_restore hsound rfl) actions).toChronicle

def comingAndGoing : List Action :=
  [.operation .tick, .operation (.enqueue "http://h/b" ⟨"/d/b"⟩),
    .operation (.dispatch (.delete ⟨3⟩) []), .message ⟨⟨3⟩, .ended .cancelled⟩, .operation .commit,
    .message ⟨⟨4⟩, .ended .completed⟩, .operation (.dispatch .deleteFinished [])]

theorem sound_cutOff : (⟨[cutOff], 4⟩ : Table).Sound :=
  (Table.Sound.ofItems (by decide : ([cutOff].map Item.id).Nodup) rfl).1

/-- In the end no item is left, and the events tell why. -/
theorem chronicle_of_actions_comingAndGoing :
    let start := (Scheduler.ofTable roomyConfig ⟨[cutOff], 4⟩ cutOffFiles .epoch 0).restore
    let s := comingAndGoing.foldl act start
    (⟨[cutOff], 4⟩ : Table).Sound ∧ s.table.items = [] ∧
      (start.entered comingAndGoing).map Item.id = [⟨4⟩] ∧
      Chronicle [cutOff] (start.entered comingAndGoing) s.events s := by
  refine ⟨sound_cutOff, by decide +kernel, by decide +kernel, ?_⟩
  exact chronicle_of_actions roomyConfig sound_cutOff cutOffFiles .epoch 0 comingAndGoing

end Scheduler

end DownloadQueue
