import DownloadQueue.Proofs.Batches

/-!
# Adding many items and adding each of them

To add the entries of a list leaves what adding each of them leaves, one after the other. Both refuse
the same entries, since a destination is taken by an item that was added before, whether or not that
item has a worker by now. As workers are admitted in the order of the table and new items come at its
end, those that were admitted early are the first of those that are admitted at the end. When the items
were added makes no difference but for the dates that are kept.
-/

namespace DownloadQueue

namespace Scheduler

variable {s t u v : Scheduler} {id : ItemId} {item : Item} {items : List Item}
variable {url : String} {destination given : Path} {next : UInt64} {overflow : Overflow}

/-! ## A new item at the end of the table -/

def append (s : Scheduler) (url : String) (destination : Path) (next : UInt64) : Scheduler :=
  { s with
    table := ⟨s.table.items ++ [s.newItem url destination none], next⟩
    events := s.events ++ [.queued ⟨s.table.nextId⟩ url] }

theorem addItem_eq_append (h : s.table.Sound) (hnext : Counter.next64 s.table.nextId = .ok next) :
    s.addItem url destination none = .done (s.append url destination next) ⟨s.table.nextId⟩ :=
  addItem_of_ok h hnext url destination none

/-- Admissions do not mind what comes behind them in the table. -/
theorem retold_append_engage (s : Scheduler) (url : String) (destination : Path) (next : UInt64)
    (h : ∀ item ∈ items, item.id ≠ ⟨s.table.nextId⟩) :
    Retold ((s.append url destination next).engage items)
      ((s.engage items).append url destination next) := by
  have hnew : (s.newItem url destination none).id ∉ items.map Item.id := by
    rw [id_newItem, List.mem_map]
    rintro ⟨item, hmem, hid⟩
    exact h item hmem hid
  have htable : ((s.append url destination next).engage items).table =
      ((s.engage items).append url destination next).table := by
    simp only [engage, turnAll, append, Table.turn, List.map_append, List.map_cons, List.map_nil,
      if_neg hnew]
    rfl
  refine ⟨((s.engage items).append url destination next).events, ?_, ?_⟩
  · simp only [engage, turnAll, append, List.append_assoc]
    exact List.perm_append_comm.append_left s.events
  · calc
      (s.engage items).append url destination next =
          { (s.append url destination next).engage items with
            table := ((s.engage items).append url destination next).table
            events := ((s.engage items).append url destination next).events } := rfl
      _ = { (s.append url destination next).engage items with
            events := ((s.engage items).append url destination next).events } := by
        rw [← htable]

theorem eligible_append (s : Scheduler) (url : String) (destination : Path) (next : UInt64) :
    s.eligible <+: (s.append url destination next).eligible := by
  refine ⟨[s.newItem url destination none].filter fun item =>
    item.status = .queued && !s.isBound item.id, ?_⟩
  exact (List.filter_append _ _).symm

theorem get?_append_of_mem (h : s.table.Sound) (hmem : item ∈ s.table.items) (url : String)
    (destination : Path) (next : UInt64) :
    (s.append url destination next).table.get? item.id = some item := by
  have hget := h.get?_of_mem hmem
  rw [Table.get?] at hget ⊢
  rw [append, List.find?_append, hget]
  rfl

theorem destinationTaken_eq (s : Scheduler) (destination : Path) :
    s.destinationTaken destination = s.table.items.any fun item =>
      item.destination.same destination && (item.status ≠ .deleted || s.isBound item.id) := by
  rw [destinationTaken, Table.itemsAt, List.any_filter]

theorem isBound_engage (s : Scheduler) (items : List Item) (id : ItemId) :
    (s.engage items).isBound id = (s.isBound id || decide (id ∈ items.map Item.id)) := by
  have hids : (s.engage items).active.map Binding.id =
      s.active.map Binding.id ++ items.map Item.id := by
    rw [engage, List.map_append]
    congr 1
    apply List.ext_getElem <;> simp
  have hmem (t : Scheduler) : t.isBound id = decide (id ∈ t.active.map Binding.id) := by
    rw [isBound, Bool.eq_iff_iff, List.any_eq_true, decide_eq_true_eq, List.mem_map]
    simp only [decide_eq_true_eq]
  rw [hmem, hmem, hids, Bool.eq_iff_iff]
  simp only [decide_eq_true_eq, Bool.or_eq_true, List.mem_append]

/-- An item holds its destination with a worker as well as without one. -/
theorem destinationTaken_engage (h : s.table.Sound)
    (hitems : ∀ item ∈ items, s.table.get? item.id = some item ∧ item.status = .queued)
    (destination : Path) :
    (s.engage items).destinationTaken destination = s.destinationTaken destination := by
  obtain ⟨turned, hturned⟩ : ∃ turned : Item → Item, turned = fun item =>
      if item.id ∈ items.map Item.id then { item with status := .downloading, lastError := none }
      else item := ⟨_, rfl⟩
  have htable : (s.engage items).table.items = s.table.items.map turned := by
    rw [hturned]
    rfl
  have hplace (item : Item) :
      (turned item).destination = item.destination ∧ (turned item).id = item.id := by
    rw [hturned]
    dsimp only
    split <;> exact ⟨rfl, rfl⟩
  have hsame : ∀ item ∈ s.table.items,
      (decide ((turned item).status ≠ .deleted) || (s.engage items).isBound item.id) =
        (decide (item.status ≠ .deleted) || s.isBound item.id) := by
    intro item hmem
    by_cases htaken : item.id ∈ items.map Item.id
    · obtain ⟨other, hother, hid⟩ := List.mem_map.mp htaken
      obtain ⟨hget, hqueued⟩ := hitems other hother
      rw [hid, h.get?_of_mem hmem, Option.some.injEq] at hget
      have hstatus : (turned item).status = .downloading :=
        hturned ▸ congrArg Item.status (if_pos htaken)
      rw [hstatus, hget, hqueued]
      rfl
    · have hleft : turned item = item := hturned ▸ if_neg htaken
      rw [hleft, isBound_engage, decide_eq_false htaken, Bool.or_false]
  rw [destinationTaken_eq, destinationTaken_eq, htable, Bool.eq_iff_iff, List.any_map,
    List.any_eq_true, List.any_eq_true]
  apply exists_congr
  intro item
  apply and_congr_right
  intro hmem
  rw [Function.comp_apply, (hplace item).1, (hplace item).2, hsame item hmem]

/-- What is accepted does not depend on who has a worker. -/
theorem newDestination_tick (h : s.table.Sound) (url : String) (given : Path) :
    s.tick.newDestination url given = s.newDestination url given := by
  have htaken : s.tick.destinationTaken = s.destinationTaken := by
    funext destination
    rw [tick_eq_engage_take h.nodup]
    exact destinationTaken_engage h
      (fun item hmem => get?_of_mem_eligible h.nodup (List.mem_of_mem_take hmem)) destination
  have hfiles : s.tick.files = s.files := by
    rw [tick_eq_engage_take h.nodup]
    rfl
  have hconfig : s.tick.config = s.config := by
    rw [tick_eq_engage_take h.nodup]
    rfl
  unfold newDestination
  rw [htaken, hfiles, hconfig]

theorem enqueue_of_error {error : QueueError} (hnew : s.newDestination url given = .error error) :
    s.enqueue url given = .done s (.error error) := by
  rw [enqueue, hnew]

theorem enqueue_of_overflow (hnew : s.newDestination url given = .ok destination)
    (hnext : Counter.next64 s.table.nextId = .error overflow) :
    s.enqueue url given = .stopped s overflow := by
  rw [enqueue, hnew]
  dsimp only
  rw [addItem_of_error hnext]
  rfl

theorem enqueue_of_ok (h : s.table.Sound) (hnew : s.newDestination url given = .ok destination)
    (hnext : Counter.next64 s.table.nextId = .ok next) :
    s.enqueue url given =
      .done (s.append url destination next).markDirty.tick (.ok ⟨s.table.nextId⟩) := by
  rw [enqueue, hnew]
  dsimp only
  rw [addItem_eq_append h hnext]
  rfl

theorem Coherent.append (h : s.Coherent) (hnext : Counter.next64 s.table.nextId = .ok next)
    (url : String) (destination : Path) : (s.append url destination next).Coherent := by
  have hadded := h.add hnext (s.id_newItem url destination none)
  exact hadded.of_alike (alike_emit _ (.queued ⟨s.table.nextId⟩ url))

theorem Retold.append (h : Retold s t) (url : String) (destination : Path) (next : UInt64) :
    Retold (s.append url destination next) (t.append url destination next) := by
  obtain ⟨events, hperm, rfl⟩ := h
  exact ⟨_, hperm.append_right _, rfl⟩

theorem Retold.markDirty (h : Retold s t) : Retold s.markDirty t.markDirty := by
  obtain ⟨events, hperm, rfl⟩ := h
  exact ⟨events, hperm, rfl⟩

theorem Retold.coherent (h : Retold s t) (hcoherent : s.Coherent) : t.Coherent := by
  obtain ⟨events, -, rfl⟩ := h
  exact ⟨hcoherent.sound, hcoherent.nodup, hcoherent.fits⟩

theorem Retold.newDestination_eq (h : Retold s t) (url : String) (given : Path) :
    t.newDestination url given = s.newDestination url given := by
  obtain ⟨events, -, rfl⟩ := h
  rfl

/-- An admission before an item is added is a part of the one after it. -/
theorem retold_tick_append (h : s.Coherent) (hnext : Counter.next64 s.table.nextId = .ok next)
    (url : String) (destination : Path) :
    Retold (s.append url destination next).markDirty.tick
      (s.tick.append url destination next).markDirty.tick := by
  have hcoherent : (s.append url destination next).markDirty.Coherent :=
    (h.append hnext url destination).of_alike (alike_markDirty _)
  have htaken : ∀ item ∈ s.eligible.take s.slots, item ∈ s.table.items := fun item hmem =>
    (List.mem_filter.mp (List.mem_of_mem_take hmem)).1
  have hothers : ∀ item ∈ s.eligible.take s.slots, item.id ≠ ⟨s.table.nextId⟩ := by
    intro item hmem hid
    exact h.sound.not_mem_nextId (hid ▸ List.mem_map_of_mem (htaken item hmem))
  apply retold_tick_tick (fun s => (s.append url destination next).markDirty) h.sound.nodup hcoherent
  · rw [admitted_eq_map, admitted_eq_map]
    exact ((eligible_append s url destination next).take s.slots).map Item.id
  · exact fun item hmem => get?_append_of_mem h.sound (htaken item hmem) url destination next
  · exact (retold_append_engage s url destination next hothers).markDirty

/-! ## Adding one entry after the other -/

structure Moment where
  clock : Nat
  now : Timestamp

def moment (s : Scheduler) : Moment :=
  ⟨s.clock, s.now⟩

def wait (s : Scheduler) (moment : Moment) : Scheduler :=
  { s with clock := moment.clock, now := moment.now }

def enqueueEach (s : Scheduler) :
    List (Moment × TextQueue.Entry) → Step (List (Except QueueError ItemId))
  | [] => .done s []
  | (moment, entry) :: entries =>
    ((s.wait moment).enqueue entry.url entry.destination).andThen fun s result =>
      (s.enqueueEach entries).andThen fun s results => .done s (result :: results)

variable {entry : TextQueue.Entry} {entries : List TextQueue.Entry} {count : Nat}
variable {timed : List (Moment × TextQueue.Entry)} {result : Except QueueError ItemId}
variable {results : List (Except QueueError ItemId)} {now : Moment}

theorem enqueueEach_of_done
    (hfirst : (s.wait now).enqueue entry.url entry.destination = .done t result) :
    s.enqueueEach ((now, entry) :: timed) =
      (t.enqueueEach timed).andThen fun s results => .done s (result :: results) := by
  rw [enqueueEach, hfirst]
  rfl

theorem addEntries_of_error {error : QueueError}
    (hnew : s.newDestination entry.url entry.destination = .error error) :
    s.addEntries count (entry :: entries) = s.addEntries count entries := by
  rw [addEntries, hnew]

theorem addEntries_of_ok (h : s.table.Sound) (hstatus : entry.status = none)
    (hnew : s.newDestination entry.url entry.destination = .ok destination)
    (hnext : Counter.next64 s.table.nextId = .ok next) :
    s.addEntries count (entry :: entries) =
      (s.append entry.url destination next).addEntries (count + 1) entries := by
  rw [addEntries, hnew]
  dsimp only
  rw [hstatus, addItem_eq_append h hnext]
  rfl

theorem addEntries_of_overflow
    (hnew : s.newDestination entry.url entry.destination = .ok destination)
    (hnext : Counter.next64 s.table.nextId = .error overflow) :
    s.addEntries count (entry :: entries) = .stopped s overflow := by
  rw [addEntries, hnew]
  dsimp only
  rw [addItem_of_error hnext]
  rfl

theorem moment_tick (h : (s.table.items.map Item.id).Nodup) : s.tick.moment = s.moment := by
  rw [tick_eq_engage_take h]
  rfl

theorem nextId_tick (h : (s.table.items.map Item.id).Nodup) :
    s.tick.table.nextId = s.table.nextId := by
  rw [tick_eq_engage_take h]
  rfl

def markedIf (s : Scheduler) (count : Nat) : Scheduler :=
  if 0 < count then s.markDirty else s

theorem markedIf_cases (s : Scheduler) (count : Nat) :
    s.markedIf count = s ∨ s.markedIf count = s.markDirty := by
  unfold markedIf
  split
  · exact .inr rfl
  · exact .inl rfl

theorem table_markedIf (s : Scheduler) (count : Nat) : (s.markedIf count).table = s.table := by
  rcases s.markedIf_cases count with hsame | hmarked
  · rw [hsame]
  · rw [hmarked]
    rfl

theorem newDestination_markedIf (s : Scheduler) (count : Nat) (url : String) (given : Path) :
    (s.markedIf count).newDestination url given = s.newDestination url given := by
  rcases s.markedIf_cases count with hsame | hmarked
  · rw [hsame]
  · rw [hmarked]
    rfl

theorem Coherent.markedIf (h : s.Coherent) (count : Nat) : (s.markedIf count).Coherent := by
  rcases s.markedIf_cases count with hsame | hmarked
  · rwa [hsame]
  · rw [hmarked]
    exact h.of_alike (alike_markDirty s)

/-- What one accepted entry adds to a list, and what it adds alone. -/
theorem retold_append (h : s.Coherent) (hbefore : Retold (s.markedIf count).tick v)
    (hnext : Counter.next64 s.table.nextId = .ok next) (url : String) (destination : Path) :
    Retold ((s.append url destination next).markedIf (count + 1)).tick
      (v.append url destination next).markDirty.tick := by
  have hcoherent := h.markedIf count
  have hmarked : ((s.markedIf count).append url destination next).markDirty =
      (s.append url destination next).markedIf (count + 1) := by
    rw [markedIf.eq_1 (s.append url destination next), if_pos (Nat.succ_pos count)]
    rcases s.markedIf_cases count with hsame | hmarked
    · rw [hsame]
    · rw [hmarked]
      rfl
  have hearly : Retold ((s.markedIf count).append url destination next).markDirty.tick
      ((s.markedIf count).tick.append url destination next).markDirty.tick := by
    apply retold_tick_append hcoherent
    rwa [table_markedIf]
  have hchain : Chain (fun _ _ => True) _ (s.markedIf count).tick := chain_tick hcoherent
  have hticked : ((s.markedIf count).tick.append url destination next).Coherent := by
    apply (hchain.coherent hcoherent).append
    rwa [nextId_tick hcoherent.sound.nodup, table_markedIf]
  rw [hmarked] at hearly
  exact hearly.trans ((hbefore.append url destination next).markDirty.tick hticked.sound.nodup)

/-- What a list of entries came to after `count` others, and what each of them came to: the numbers
ran out in both cases, or those were counted that were accepted, and the last admission admits what
all admissions together do. -/
def Concur (count : Nat) (list : Step Nat) (each : Step (List (Except QueueError ItemId))) : Prop :=
  (∃ overflow, list.result = .error overflow ∧ each.result = .error overflow) ∨
    ∃ t u results, list = .done t (count + results.countP fun result => result.isOk) ∧
      each = .done u results ∧
      Retold (t.markedIf (count + results.countP fun result => result.isOk)).tick u

/-- One more entry, accepted or not, and the rest of both additions still come to the same. -/
theorem Concur.cons {list : Step Nat} {each : Step (List (Except QueueError ItemId))}
    (result : Except QueueError ItemId)
    (h : Concur (count + if result.isOk then 1 else 0) list each) :
    Concur count list (each.andThen fun s results => .done s (result :: results)) := by
  rcases h with ⟨overflow, hlist, heach⟩ | ⟨t, u, results, hlist, heach, hu⟩
  · left
    refine ⟨overflow, hlist, ?_⟩
    rw [Step.andThen, heach]
    rfl
  · right
    have hcount : count + (if result.isOk then 1 else 0) +
        results.countP (fun result => result.isOk) =
          count + (result :: results).countP fun result => result.isOk := by
      rw [List.countP_cons]
      omega
    rw [hcount] at hlist hu
    refine ⟨t, u, result :: results, hlist, ?_, hu⟩
    rw [heach]
    rfl

/-- A list of entries is accepted or refused like each of them. -/
theorem concur_addEntries (h : s.Coherent) (hplain : ∀ entry ∈ entries, entry.status = none)
    (hbefore : Retold (s.markedIf count).tick v) (hnow : v.moment = now) :
    Concur count (s.addEntries count entries)
      (v.enqueueEach (entries.map fun entry => (now, entry))) := by
  induction entries generalizing s v count with
  | nil => exact .inr ⟨s, v, [], rfl, rfl, hbefore⟩
  | cons entry entries ih =>
    have hrest : ∀ entry ∈ entries, entry.status = none := fun entry hmem =>
      hplain entry (List.mem_cons_of_mem _ hmem)
    -- all entries come at one moment, so there is no waiting between them
    have hwait : v.wait now = v := by
      rw [← hnow]
      rfl
    have hcoherent := h.markedIf count
    have hchain : Chain (fun _ _ => True) _ (s.markedIf count).tick := chain_tick hcoherent
    have hv : v.Coherent := hbefore.coherent (hchain.coherent hcoherent)
    -- the admissions in between change neither the numbers nor the destinations
    have hnextId : v.table.nextId = s.table.nextId := by
      rw [hbefore.table_eq, nextId_tick hcoherent.sound.nodup, table_markedIf]
    have hsame : v.newDestination entry.url entry.destination =
        s.newDestination entry.url entry.destination := by
      rw [hbefore.newDestination_eq, newDestination_tick hcoherent.sound, newDestination_markedIf]
    rw [List.map_cons]
    cases hnew : s.newDestination entry.url entry.destination with
    | error error =>
      have hrefused : (v.wait now).enqueue entry.url entry.destination = .done v (.error error) := by
        rw [hwait, enqueue_of_error (hsame.trans hnew)]
      rw [addEntries_of_error hnew, enqueueEach_of_done hrefused]
      exact (ih h hrest hbefore hnow).cons (.error error)
    | ok destination =>
      cases hnext : Counter.next64 s.table.nextId with
      | error overflow =>
        left
        refine ⟨overflow, ?_, ?_⟩
        · rw [addEntries_of_overflow hnew hnext]
          rfl
        · rw [enqueueEach, hwait, enqueue_of_overflow (hsame.trans hnew) (hnextId.symm ▸ hnext)]
          rfl
      | ok next =>
        have hnextEach : Counter.next64 v.table.nextId = .ok next := by rw [hnextId, hnext]
        have hadded : (v.wait now).enqueue entry.url entry.destination =
            .done (v.append entry.url destination next).markDirty.tick (.ok ⟨v.table.nextId⟩) := by
          rw [hwait, enqueue_of_ok hv.sound (hsame.trans hnew) hnextEach]
        have hafter := retold_append h hbefore hnext entry.url destination
        have hnowAfter : (v.append entry.url destination next).markDirty.tick.moment = now :=
          (moment_tick (s := (v.append entry.url destination next).markDirty)
            (hv.append hnextEach entry.url destination).sound.nodup).trans hnow
        have hothers := ih (h.append hnext entry.url destination) hrest hafter hnowAfter
        rw [addEntries_of_ok h.sound (hplain entry List.mem_cons_self) hnew hnext,
          enqueueEach_of_done hadded]
        exact hothers.cons (.ok ⟨v.table.nextId⟩)

/-- Without any entry that is accepted nothing changes, and otherwise workers are admitted. -/
theorem addAll_agrees (h : s.Coherent) (hsaturated : s.Saturated)
    (hplain : ∀ entry ∈ entries, entry.status = none) :
    (∃ overflow, (s.addAll entries).result = .error overflow ∧
      (s.enqueueEach (entries.map fun entry => (s.moment, entry))).result = .error overflow) ∨
    ∃ t u results, s.addAll entries = .done t (results.countP fun result => result.isOk) ∧
      s.enqueueEach (entries.map fun entry => (s.moment, entry)) = .done u results ∧
      Retold t u := by
  have hself := hsaturated.tick_eq_self h.sound
  have hbefore : Retold (s.markedIf 0).tick s := by
    change Retold s.tick s
    rw [hself]
    exact Retold.refl s
  rcases concur_addEntries h hplain hbefore rfl with
    ⟨overflow, hlist, heach⟩ | ⟨t, u, results, hlist, heach, hu⟩
  · refine .inl ⟨overflow, ?_, heach⟩
    rw [addAll, Step.andThen, hlist]
    rfl
  · rw [Nat.zero_add] at hlist hu
    have hdone : s.addAll entries =
        .done (t.markedIf (results.countP fun result => result.isOk)).tick
          (results.countP fun result => result.isOk) := by
      rw [addAll, hlist]
      change Step.done (if 0 < results.countP fun result => result.isOk then t.markDirty.tick
        else t) _ = _
      unfold markedIf
      split
      · rfl
      · next hnone => rw [(addEntries_eq_done hlist).2 (by omega), hself]
    exact .inr ⟨_, u, results, hdone, heach, hu⟩

/-! ## What does not depend on time -/

def undated (item : Item) : Item :=
  { item with addedAt := .epoch }

def untimed (binding : Binding) : Binding :=
  { binding with startedAt := 0 }

/-- The scheduler without what it knows of time. -/
def timeless (s : Scheduler) : Scheduler :=
  { s with
    table := { s.table with items := s.table.items.map undated }
    active := s.active.map untimed
    clock := 0
    now := .epoch }

theorem ids_timeless (s : Scheduler) :
    s.timeless.table.items.map Item.id = s.table.items.map Item.id := by
  change (s.table.items.map undated).map Item.id = _
  rw [List.map_map]
  rfl

theorem Coherent.timeless (h : s.Coherent) : s.timeless.Coherent := by
  have halike : Alike s s.timeless := by
    constructor
    case standings => exact List.map_map
    case duties => exact List.map_map
    all_goals rfl
  exact h.of_alike halike

theorem isBound_timeless (s : Scheduler) (id : ItemId) : s.timeless.isBound id = s.isBound id := by
  change (s.active.map untimed).any _ = _
  rw [List.any_map]
  rfl

theorem newDestination_timeless (s : Scheduler) (url : String) (given : Path) :
    s.timeless.newDestination url given = s.newDestination url given := by
  have htaken : s.timeless.destinationTaken = s.destinationTaken := by
    funext destination
    rw [destinationTaken_eq, destinationTaken_eq]
    change (s.table.items.map undated).any _ = _
    rw [List.any_map]
    simp only [isBound_timeless]
    rfl
  unfold newDestination
  rw [htaken]
  rfl

theorem eligible_timeless (s : Scheduler) : s.timeless.eligible = s.eligible.map undated := by
  unfold eligible
  change (s.table.items.map undated).filter _ = _
  rw [List.filter_map]
  simp only [isBound_timeless]
  rfl

theorem slots_timeless (s : Scheduler) : s.timeless.slots = s.slots := by
  have hlength : s.timeless.active.length = s.active.length := List.length_map _
  unfold slots
  rw [hlength]
  rfl

theorem undated_newItem (s : Scheduler) (url : String) (destination : Path) :
    undated (s.timeless.newItem url destination none) = undated (s.newItem url destination none) := by
  have hlength : s.timeless.files = s.files := rfl
  unfold newItem
  rw [hlength]
  cases (s.files.fileLength? destination).map UInt64.ofNat <;> rfl

theorem active_timeless (s : Scheduler) : s.timeless.timeless.active = s.timeless.active := by
  change (s.active.map untimed).map untimed = s.active.map untimed
  rw [List.map_map]
  rfl

theorem timeless_append (s : Scheduler) (url : String) (destination : Path) (next : UInt64) :
    (s.timeless.append url destination next).timeless =
      (s.append url destination next).timeless := by
  have hitems : (s.timeless.append url destination next).timeless.table.items =
      (s.append url destination next).timeless.table.items := by
    change (s.table.items.map undated ++ [s.timeless.newItem url destination none]).map undated =
      (s.table.items ++ [s.newItem url destination none]).map undated
    simp only [List.map_append, List.map_map, List.map_cons, List.map_nil, undated_newItem]
    rfl
  calc
    (s.timeless.append url destination next).timeless =
        { (s.append url destination next).timeless with
          table := ⟨(s.timeless.append url destination next).timeless.table.items, next⟩
          active := s.timeless.timeless.active } := rfl
    _ = (s.append url destination next).timeless := by
      rw [hitems, active_timeless]
      rfl

/-- Which workers are admitted does not hang on the time. -/
theorem timeless_engage (s : Scheduler) (items : List Item) :
    (s.timeless.engage (items.map undated)).timeless = (s.engage items).timeless := by
  have hids : (items.map undated).map Item.id = items.map Item.id := List.map_map
  have hfetches : (items.map undated).map (fun item => s.timeless.fetchOf item.standing) =
      items.map fun item => s.fetchOf item.standing := List.map_map
  have hitems : (s.timeless.table.turn (items.map Item.id) .downloading).items.map undated =
      (s.table.turn (items.map Item.id) .downloading).items.map undated := by
    simp only [timeless, Table.turn, List.map_map]
    apply List.map_congr_left
    intro item _
    have hid : (undated item).id = item.id := rfl
    simp only [Function.comp_apply, hid]
    split <;> rfl
  have hactive : (s.timeless.engage (items.map undated)).timeless.active =
      (s.engage items).timeless.active := by
    change (s.active.map untimed ++ _).map untimed = (s.active ++ _).map untimed
    rw [List.map_append, List.map_append, List.map_map]
    congr 1
    apply List.ext_getElem <;> simp [untimed, undated, timeless]
  calc
    (s.timeless.engage (items.map undated)).timeless =
        { (s.engage items).timeless with
          table := ⟨(s.timeless.table.turn ((items.map undated).map Item.id) .downloading).items.map
            undated, s.table.nextId⟩
          active := (s.timeless.engage (items.map undated)).timeless.active
          admissions := s.admissions + (items.map undated).length
          dirty := s.dirty || !((items.map undated).map Item.id).isEmpty
          events := s.events ++ ((items.map undated).map Item.id).map fun id =>
            .statusChanged id .queued .downloading
          fetches := s.fetches ++ (items.map undated).map fun item =>
            s.timeless.fetchOf item.standing } := rfl
    _ = (s.engage items).timeless := by
      rw [hids, hfetches, hitems, hactive, List.length_map]
      rfl

theorem timeless_tick (h : s.table.Sound) : s.timeless.tick.timeless = s.tick.timeless := by
  have hnodup : (s.timeless.table.items.map Item.id).Nodup := by
    rw [ids_timeless]
    exact h.nodup
  rw [tick_eq_engage_take hnodup, tick_eq_engage_take h.nodup, eligible_timeless, slots_timeless,
    ← List.map_take, timeless_engage]

theorem timeless_timeless (s : Scheduler) : s.timeless.timeless = s.timeless := by
  have hitems : (s.table.items.map undated).map undated = s.table.items.map undated := List.map_map
  calc
    s.timeless.timeless =
        { s.timeless with
          table := ⟨(s.table.items.map undated).map undated, s.table.nextId⟩
          active := s.timeless.timeless.active } := rfl
    _ = s.timeless := by
      rw [hitems, active_timeless]
      rfl

theorem Retold.timeless (h : Retold s t) : Retold s.timeless t.timeless := by
  obtain ⟨events, hperm, rfl⟩ := h
  exact ⟨events, hperm, rfl⟩

theorem Coherent.wait (h : s.Coherent) (now : Moment) : (s.wait now).Coherent :=
  ⟨h.sound, h.nodup, h.fits⟩

end Scheduler

namespace Step

variable {α β : Type}

def timeless (step : Step α) : Step α :=
  ⟨step.scheduler.timeless, step.result⟩

theorem timeless_done (s : Scheduler) (value : α) : (done s value).timeless = done s.timeless value :=
  rfl

theorem timeless_stopped (s : Scheduler) (overflow : Overflow) :
    (stopped s overflow : Step α).timeless = stopped s.timeless overflow :=
  rfl

variable {step other : Step α}

theorem result_eq_of_timeless (h : other.timeless = step.timeless) : other.result = step.result := by
  have hresult : other.timeless.result = step.timeless.result := by rw [h]
  exact hresult

theorem scheduler_eq_of_timeless (h : other.timeless = step.timeless) :
    other.scheduler.timeless = step.scheduler.timeless := by
  have hscheduler : other.timeless.scheduler = step.timeless.scheduler := by rw [h]
  exact hscheduler

theorem timeless_andThen {next after : Scheduler → α → Step β} (h : other.timeless = step.timeless)
    (hnext : ∀ value, (after other.scheduler value).timeless =
      (next step.scheduler value).timeless) :
    (other.andThen after).timeless = (step.andThen next).timeless := by
  rw [andThen, andThen, result_eq_of_timeless h]
  cases step.result with
  | ok value => exact hnext value
  | error overflow =>
    dsimp only
    rw [timeless_stopped, timeless_stopped, scheduler_eq_of_timeless h]

end Step

namespace Scheduler

variable {s t : Scheduler}

/-- What one entry adds is the same at all times. -/
theorem enqueue_timeless (h : s.Coherent) (url : String) (given : Path) :
    (s.enqueue url given).timeless = (s.timeless.enqueue url given).timeless := by
  have hsame := s.newDestination_timeless url given
  cases hnew : s.newDestination url given with
  | error error =>
    rw [enqueue_of_error hnew, enqueue_of_error (hsame.trans hnew), Step.timeless_done,
      Step.timeless_done, timeless_timeless]
  | ok destination =>
    cases hnext : Counter.next64 s.table.nextId with
    | error overflow =>
      have hnextLater : Counter.next64 s.timeless.table.nextId = .error overflow := hnext
      rw [enqueue_of_overflow hnew hnext, enqueue_of_overflow (hsame.trans hnew) hnextLater,
        Step.timeless_stopped, Step.timeless_stopped, timeless_timeless]
    | ok next =>
      have hnextLater : Counter.next64 s.timeless.table.nextId = .ok next := hnext
      have hadded := (h.append hnext url destination).sound
      have haddedLater := (h.timeless.append hnextLater url destination).sound
      have hmarked : (s.timeless.append url destination next).markDirty.timeless =
          (s.append url destination next).markDirty.timeless :=
        congrArg markDirty (s.timeless_append url destination next)
      have hticked : (s.append url destination next).markDirty.tick.timeless =
          (s.timeless.append url destination next).markDirty.tick.timeless := by
        calc
          (s.append url destination next).markDirty.tick.timeless =
              (s.append url destination next).markDirty.timeless.tick.timeless :=
            (timeless_tick (s := (s.append url destination next).markDirty) hadded).symm
          _ = (s.timeless.append url destination next).markDirty.timeless.tick.timeless := by
            rw [hmarked]
          _ = (s.timeless.append url destination next).markDirty.tick.timeless :=
            timeless_tick (s := (s.timeless.append url destination next).markDirty) haddedLater
      rw [enqueue_of_ok h.sound hnew hnext,
        enqueue_of_ok h.timeless.sound (hsame.trans hnew) hnextLater, Step.timeless_done,
        Step.timeless_done, hticked]
      rfl

/-- Entries that are added one after the other at whatever moments leave the same but for the
dates. -/
theorem enqueueEach_timeless {timed others : List (Moment × TextQueue.Entry)} (h : s.Coherent)
    (h' : t.Coherent) (hsame : t.timeless = s.timeless)
    (hentries : others.map Prod.snd = timed.map Prod.snd) :
    (t.enqueueEach others).timeless = (s.enqueueEach timed).timeless := by
  induction timed generalizing s t others with
  | nil =>
    obtain rfl := List.map_eq_nil_iff.mp hentries
    rw [enqueueEach, enqueueEach, Step.timeless_done, Step.timeless_done, hsame]
  | cons first timed ih =>
    obtain ⟨⟨now, entry⟩, later, rfl, rfl, hlater⟩ := List.map_eq_cons_iff.mp hentries
    obtain ⟨before, entry⟩ := first
    have hfirst : ((t.wait now).enqueue entry.url entry.destination).timeless =
        ((s.wait before).enqueue entry.url entry.destination).timeless := by
      have hwaited : (t.wait now).timeless = (s.wait before).timeless := hsame
      rw [enqueue_timeless (h'.wait now), enqueue_timeless (h.wait before), hwaited]
    have hchain : Chain (fun _ _ => True) _
        ((s.wait before).enqueue entry.url entry.destination).scheduler :=
      chain_enqueue (h.wait before) entry.url entry.destination
    have hchain' : Chain (fun _ _ => True) _
        ((t.wait now).enqueue entry.url entry.destination).scheduler :=
      chain_enqueue (h'.wait now) entry.url entry.destination
    have hrest := ih (hchain.coherent (h.wait before)) (hchain'.coherent (h'.wait now))
      (Step.scheduler_eq_of_timeless hfirst) hlater
    apply Step.timeless_andThen hfirst
    intro result
    apply Step.timeless_andThen hrest
    intro results
    rw [Step.timeless_done, Step.timeless_done, Step.scheduler_eq_of_timeless hrest]

variable {config : Config} {around : Surroundings} {c : Controller}

/-- **Adding many items agrees with adding each of them.** Whenever a request can be answered, a list
of entries that say nothing of their files is added like each of its entries alone, at whatever
moments: the same entries are accepted and counted, and the same is left but for the order of the
events and for what is known of time. If no time passes, that is the same as well. If the numbers for
items run out, they do so in both cases. -/
theorem additions_agree (hstart : Controller.start config around = .started c)
    (hpoised : Poised c s) {timed : List (Moment × TextQueue.Entry)}
    (hplain : ∀ addition ∈ timed, addition.2.status = none) :
    (∃ overflow, (s.addAll (timed.map Prod.snd)).result = .error overflow ∧
      (s.enqueueEach timed).result = .error overflow) ∨
    ∃ t u results, s.addAll (timed.map Prod.snd) =
        .done t (results.countP fun result => result.isOk) ∧
      s.enqueueEach timed = .done u results ∧ Retold t.timeless u.timeless ∧
      ((∀ addition ∈ timed, addition.1 = s.moment) → Retold t u) := by
  have hcoherent := (hpoised.orderly hstart).coherent
  have hentries : ∀ entry ∈ timed.map Prod.snd, entry.status = none := by
    intro entry hmem
    obtain ⟨addition, haddition, rfl⟩ := List.mem_map.mp hmem
    exact hplain addition haddition
  -- the moments matter to what is known of time only, so all entries may come at the present one
  have hsame : (s.enqueueEach timed).timeless =
      (s.enqueueEach ((timed.map Prod.snd).map fun entry => (s.moment, entry))).timeless := by
    apply enqueueEach_timeless hcoherent hcoherent rfl
    rw [List.map_map]
    exact (List.map_id' _).symm
  rcases addAll_agrees hcoherent (hpoised.saturated hstart) hentries with
    ⟨overflow, hlist, heach⟩ | ⟨t, u, results, hlist, heach, hretold⟩
  · exact .inl ⟨overflow, hlist, (Step.result_eq_of_timeless hsame).trans heach⟩
  · right
    have hresult := Step.result_eq_of_timeless hsame
    have hscheduler := Step.scheduler_eq_of_timeless hsame
    rw [heach] at hresult hscheduler
    refine ⟨t, (s.enqueueEach timed).scheduler, results, hlist,
      Step.eq_done_iff.mpr ⟨rfl, hresult⟩, ?_, ?_⟩
    · rw [hscheduler]
      exact hretold.timeless
    · intro hmoments
      have hnow : (timed.map Prod.snd).map (fun entry => (s.moment, entry)) = timed := by
        rw [List.map_map]
        have hkept : ∀ addition ∈ timed,
            ((fun entry => (s.moment, entry)) ∘ Prod.snd) addition = addition := by
          intro addition hmem
          rw [Function.comp_apply, ← hmoments addition hmem]
        rw [List.map_congr_left hkept, List.map_id']
      rw [hnow] at heach
      rw [heach]
      exact hretold

def fourAdditions : List (Moment × TextQueue.Entry) :=
  [(⟨7, .epoch⟩, ⟨1, "http://h/c", ⟨"c"⟩, none⟩), (⟨8, .epoch⟩, ⟨2, "http://h/d", ⟨"./c"⟩, none⟩),
    (⟨8, .epoch⟩, ⟨3, "nowhere", ⟨"d"⟩, none⟩), (⟨9, .epoch⟩, ⟨4, "http://h/q", ⟨"/q"⟩, none⟩)]

/-- The first and the last one are added. -/
theorem additions_agree_four :
    ∃ (c : Controller) (s t u : Scheduler) (results : List (Except QueueError ItemId)),
      Controller.start roomyConfig ⟨twinFiles ⟨"/b"⟩, 0, .epoch, "", 0⟩ = .started c ∧
      Poised c s ∧ (∀ addition ∈ fourAdditions, addition.2.status = none) ∧
      s.addAll (fourAdditions.map Prod.snd) = .done t 2 ∧
      s.enqueueEach fourAdditions = .done u results ∧ Retold t.timeless u.timeless ∧
      results.map Except.isOk = [true, false, false, true] := by
  obtain ⟨⟨c, hstart, hrun⟩, -⟩ := twins_run ⟨"/b"⟩ (by decide +kernel)
  have hpoised : Poised c (twinPause ⟨"/b"⟩).scheduler := ⟨_, hrun, .inl rfl⟩
  have hplain : ∀ addition ∈ fourAdditions, addition.2.status = none := by decide
  have hcame : ((twinPause ⟨"/b"⟩).scheduler.enqueueEach fourAdditions).result.toOption.map
      (List.map Except.isOk) = some [true, false, false, true] := by
    decide +kernel
  rcases additions_agree hstart hpoised hplain with
    ⟨overflow, -, heach⟩ | ⟨t, u, results, hlist, heach, hretold, -⟩
  · rw [heach] at hcame
    cases hcame
  · rw [heach] at hcame
    have hresults : results.map Except.isOk = [true, false, false, true] := Option.some.inj hcame
    have hcount : (results.countP fun result => result.isOk) = 2 := by
      calc
        results.countP Except.isOk = (results.map Except.isOk).countP id := by
          rw [List.countP_map]
          rfl
        _ = 2 := by
          rw [hresults]
          rfl
    rw [hcount] at hlist
    exact ⟨c, _, t, u, results, hstart, hpoised, hplain, hlist, heach, hretold, hresults⟩

end Scheduler

end DownloadQueue
