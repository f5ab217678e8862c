import DownloadQueue.Proofs.Exchange

/-!
# Admission in the order of the queue

Workers are admitted in one go for the first of the queued items that have none, as many as there are
free slots. The list of those items is made once, and then each admission changes the table and the
workers that the list was made from. What keeps the rest of the list valid is that an admission
touches the record of one item only, and that no item stands in the list twice.
-/

namespace DownloadQueue

/-- Steps on entries that are apart, each of which comes to one change, come to the change of all
entries at once. -/
theorem foldl_eq_whole {σ α : Type} {step : σ → α → σ} {whole : σ → List α → σ}
    (apart : α → α → Prop) (fits : σ → α → Prop) (hnil : ∀ s, whole s [] = s)
    (hcons : ∀ s a rest, (∀ b ∈ rest, apart a b) → whole (whole s [a]) rest = whole s (a :: rest))
    (hstep : ∀ s a, fits s a → step s a = whole s [a])
    (hkeep : ∀ s a b, apart a b → fits s b → fits (whole s [a]) b) {entries : List α}
    (hapart : entries.Pairwise apart) {s : σ} (hfits : ∀ a ∈ entries, fits s a) :
    entries.foldl step s = whole s entries := by
  induction entries generalizing s with
  | nil => exact (hnil s).symm
  | cons a rest ih =>
    rw [List.pairwise_cons] at hapart
    have hrest : ∀ b ∈ rest, fits (whole s [a]) b := by
      intro b hmem
      exact hkeep s a b (hapart.1 b hmem) (hfits b (List.mem_cons_of_mem a hmem))
    calc
      (a :: rest).foldl step s = rest.foldl step (step s a) := rfl
      _ = rest.foldl step (whole s [a]) := by rw [hstep s a (hfits a List.mem_cons_self)]
      _ = whole (whole s [a]) rest := ih hapart.2 hrest
      _ = whole s (a :: rest) := hcons s a rest hapart.1

namespace Table

variable {table : Table} {id : ItemId} {ids others : List ItemId} {status : Status}

/-- Where numbers are distinct, the first item with a number is the only one. -/
theorem modify_eq_map (h : (table.items.map Item.id).Nodup) (id : ItemId) (change : Item → Item) :
    table.modify id change =
      { table with
        items := table.items.map fun item => if item.id = id then change item else item } := by
  obtain ⟨items, nextId⟩ := table
  unfold modify
  congr 1
  dsimp only at h ⊢
  induction items with
  | nil => rfl
  | cons item items ih =>
    rw [List.map_cons, List.nodup_cons] at h
    rw [replaceFirst, List.map_cons]
    split
    · next heq =>
      have hrest : ∀ other ∈ items, (if other.id = id then change other else other) = other := by
        intro other hmem
        apply if_neg
        rintro rfl
        exact h.1 (heq ▸ List.mem_map_of_mem hmem)
      rw [List.map_congr_left hrest, List.map_id']
    · rw [ih h.2]

def turn (table : Table) (ids : List ItemId) (status : Status) : Table :=
  { table with
    items := table.items.map fun item =>
      if item.id ∈ ids then { item with status, lastError := none } else item }

theorem turn_nil (table : Table) (status : Status) : table.turn [] status = table := by
  simp [turn]

theorem turn_congr (table : Table) (h : ∀ id, id ∈ ids ↔ id ∈ others) (status : Status) :
    table.turn ids status = table.turn others status := by
  simp only [turn, h]

theorem turn_append (table : Table) (ids others : List ItemId) (status : Status) :
    table.turn (ids ++ others) status = (table.turn ids status).turn others status := by
  unfold turn
  congr 1
  rw [List.map_map]
  apply List.map_congr_left
  intro item _
  by_cases hid : item.id ∈ ids <;> simp [hid]

theorem ids_turn (table : Table) (ids : List ItemId) (status : Status) :
    (table.turn ids status).items.map Item.id = table.items.map Item.id := by
  simp only [turn, List.map_map]
  apply List.map_congr_left
  intro item _
  rw [Function.comp_apply]
  split <;> rfl

theorem get?_turn (table : Table) (ids : List ItemId) (status : Status) (id : ItemId) :
    (table.turn ids status).get? id =
      (table.get? id).map fun item =>
        if id ∈ ids then { item with status, lastError := none } else item := by
  have hsame : ((fun item : Item => decide (item.id = id)) ∘ fun item =>
      if item.id ∈ ids then { item with status, lastError := none } else item) =
        fun item => decide (item.id = id) := by
    funext item
    rw [Function.comp_apply]
    split <;> rfl
  rw [get?, turn, List.find?_map, hsame]
  change (table.get? id).map _ = _
  cases hget : table.get? id with
  | none => rfl
  | some item => rw [Option.map_some, Option.map_some, id_of_get? hget]

theorem get?_turn_of_not_mem (table : Table) (status : Status) (h : id ∉ ids) :
    (table.turn ids status).get? id = table.get? id := by
  simp only [get?_turn, if_neg h, Option.map_id']

end Table

namespace Scheduler

variable {s t : Scheduler} {id : ItemId} {ids : List ItemId} {item : Item} {items : List Item}
variable {old new : Status}

def turnAll (s : Scheduler) (ids : List ItemId) (old new : Status) : Scheduler :=
  { s with
    table := s.table.turn ids new
    dirty := s.dirty || !ids.isEmpty
    events := s.events ++ ids.map fun id => .statusChanged id old new }

theorem turnAll_nil (s : Scheduler) (old new : Status) : s.turnAll [] old new = s := by
  simp [turnAll, Table.turn_nil]

theorem turnAll_append (s : Scheduler) (ids others : List ItemId) (old new : Status) :
    s.turnAll (ids ++ others) old new = (s.turnAll ids old new).turnAll others old new := by
  have hdirty : (s.dirty || !(ids ++ others).isEmpty) =
      (s.dirty || !ids.isEmpty || !others.isEmpty) := by
    cases ids <;> cases others <;> simp
  simp only [turnAll, Table.turn_append, List.map_append, List.append_assoc, hdirty]

theorem nodup_turnAll (h : (s.table.items.map Item.id).Nodup) (ids : List ItemId)
    (old new : Status) : ((s.turnAll ids old new).table.items.map Item.id).Nodup := by
  change ((s.table.turn ids new).items.map Item.id).Nodup
  rwa [Table.ids_turn]

structure Finds (s : Scheduler) (id : ItemId) (item : Item) : Prop where
  nodup : (s.table.items.map Item.id).Nodup
  found : s.table.get? id = some item

theorem Finds.of_table (h : s.Finds id item) (htable : t.table = s.table) : t.Finds id item :=
  ⟨htable ▸ h.nodup, htable ▸ h.found⟩

theorem Finds.turnAll (h : s.Finds id item) {other : ItemId} (hne : other ≠ id) (old new : Status) :
    (s.turnAll [other] old new).Finds id item where
  nodup := nodup_turnAll h.nodup [other] old new
  found := by
    have hnew : id ∉ [other] := by
      rw [List.mem_singleton]
      exact hne.symm
    exact (Table.get?_turn_of_not_mem s.table new hnew).trans h.found

theorem setStatus_eq_turnAll (h : s.Finds id item) (hne : item.status ≠ new) (hnew : new ≠ .failed) :
    s.setStatus id new = s.turnAll [id] item.status new := by
  have hdirty : (s.dirty || !([id] : List ItemId).isEmpty) = true := Bool.or_true _
  have hchange : withStatus new = fun item => { item with status := new, lastError := none } := by
    funext item
    rw [withStatus, if_neg hnew]
  rw [setStatus_of_ne h.found hne, modifyItem, Table.modify_eq_map h.nodup, turnAll, hdirty, hchange]
  simp only [Table.turn, List.mem_singleton]
  rfl

/-- Items that get a new status one after the other. -/
theorem foldl_setStatus_eq_turnAll (h : (s.table.items.map Item.id).Nodup) (hdistinct : ids.Nodup)
    (hids : ∀ id ∈ ids, ∃ item, s.table.get? id = some item ∧ item.status = old)
    (hne : old ≠ new) (hnew : new ≠ .failed) :
    ids.foldl (fun s id => s.setStatus id new) s = s.turnAll ids old new := by
  apply foldl_eq_whole (· ≠ ·) fun s id => ∃ item, s.Finds id item ∧ item.status = old
  · exact fun s => turnAll_nil s old new
  · exact fun s id rest _ => (turnAll_append s [id] rest old new).symm
  · intro s id ⟨item, hfinds, hstatus⟩
    rw [setStatus_eq_turnAll hfinds (hstatus ▸ hne) hnew, hstatus]
  · intro s id other hother ⟨item, hfinds, hstatus⟩
    exact ⟨item, hfinds.turnAll hother old new, hstatus⟩
  · exact hdistinct
  · intro id hmem
    obtain ⟨item, hget, hstatus⟩ := hids id hmem
    exact ⟨item, ⟨h, hget⟩, hstatus⟩

def eligible (s : Scheduler) : List Item :=
  s.table.items.filter fun item => item.status = .queued && !s.isBound item.id

/-- The scheduler with a new worker for each of these items, bound in their order. -/
def engage (s : Scheduler) (items : List Item) : Scheduler :=
  { s.turnAll (items.map Item.id) .queued .downloading with
    active := s.active ++ items.mapIdx fun i item =>
      { id := item.id, seq := s.admissions + 1 + i, startOffset := item.bytesDownloaded,
        startedAt := s.clock, cancelled := false, stop := none }
    admissions := s.admissions + items.length
    fetches := s.fetches ++ items.map fun item => s.fetchOf item.standing }

theorem engage_nil (s : Scheduler) : s.engage [] = s := by
  simp [engage, turnAll_nil]

theorem engage_cons (s : Scheduler) (item : Item) (items : List Item) :
    (s.engage [item]).engage items = s.engage (item :: items) := by
  have hseq (i : Nat) : s.admissions + 1 + 1 + i = s.admissions + 1 + (i + 1) := by omega
  simp only [engage, turnAll, List.map_cons, List.map_nil, List.mapIdx_cons, List.mapIdx_nil,
    List.length_cons, List.length_nil, List.append_assoc, List.cons_append, List.nil_append,
    List.isEmpty_cons, Bool.not_false, Bool.or_true, Bool.true_or, Nat.zero_add, Nat.add_zero,
    hseq, ← Table.turn_append]
  congr 1
  omega

theorem startTransfer_eq_engage (h : s.Finds item.id item) (hqueued : item.status = .queued) :
    s.startTransfer item.id = s.engage [item] := by
  have hne : item.status ≠ .downloading := by simp [hqueued]
  calc
    s.startTransfer item.id =
        { s with
          admissions := s.admissions + 1
          active := s.active ++ [s.newBinding item]
          fetches := s.fetches ++ [s.fetchOf item.standing] }.turnAll [item.id] item.status
            .downloading := by
      rw [startTransfer_eq h.found]
      exact setStatus_eq_turnAll (h.of_table rfl) hne (by decide)
    _ = s.engage [item] := by simp [engage, turnAll, newBinding, hqueued]

/-- Items that get workers one after the other. -/
theorem startAll_eq_engage (h : (s.table.items.map Item.id).Nodup)
    (hdistinct : (items.map Item.id).Nodup)
    (hitems : ∀ item ∈ items, s.table.get? item.id = some item ∧ item.status = .queued) :
    s.startAll (items.map Item.id) = s.engage items := by
  rw [startAll, List.foldl_map]
  apply foldl_eq_whole (fun item other => item.id ≠ other.id) fun s (item : Item) =>
    s.Finds item.id item ∧ item.status = .queued
  · exact engage_nil
  · exact fun s item rest _ => engage_cons s item rest
  · exact fun s item hitem => startTransfer_eq_engage hitem.1 hitem.2
  · intro s item other hother hitem
    have hfinds := hitem.1.turnAll hother .queued .downloading
    exact ⟨hfinds.of_table rfl, hitem.2⟩
  · exact List.pairwise_map.mp hdistinct
  · intro item hmem
    obtain ⟨hget, hqueued⟩ := hitems item hmem
    exact ⟨⟨h, hget⟩, hqueued⟩

/-- An eligible item is found by its number, and it is queued. -/
theorem get?_of_mem_eligible (h : (s.table.items.map Item.id).Nodup) (hmem : item ∈ s.eligible) :
    s.table.get? item.id = some item ∧ item.status = .queued := by
  obtain ⟨hitem, hwaits⟩ := List.mem_filter.mp hmem
  rw [Bool.and_eq_true, decide_eq_true_eq] at hwaits
  exact ⟨Table.find?_eq_some_of_mem h hitem, hwaits.1⟩

theorem admitted_eq_map (s : Scheduler) : s.admitted = (s.eligible.take s.slots).map Item.id :=
  List.map_take.symm

/-- In a list without repetition, an entry before one of the first part is in the first part. -/
theorem mem_of_sublist_append {α : Type} {front back : List α} (h : (front ++ back).Nodup)
    {earlier later : α} (horder : [earlier, later].Sublist (front ++ back))
    (hlater : later ∈ front) : earlier ∈ front := by
  rw [List.nodup_append] at h
  rw [List.sublist_append_iff] at horder
  obtain ⟨first, last, hsplit, hfirst, hlast⟩ := horder
  cases first with
  | nil =>
    obtain rfl : [earlier, later] = last := hsplit
    have hlate : later ∈ back := hlast.subset (by simp)
    exact absurd rfl (h.2.2 later hlater later hlate)
  | cons head rest =>
    rw [List.cons_append, List.cons.injEq] at hsplit
    exact hfirst.subset (hsplit.1 ▸ List.mem_cons_self)

/-- An admission takes as many of the eligible items as there are free slots. -/
theorem tick_eq_engage_take (h : (s.table.items.map Item.id).Nodup) :
    s.tick = s.engage (s.eligible.take s.slots) := by
  rw [tick_eq_startAll h, admitted_eq_map]
  apply startAll_eq_engage h
  · exact h.sublist (((List.take_sublist _ _).trans List.filter_sublist).map _)
  · exact fun item hmem => get?_of_mem_eligible h (List.mem_of_mem_take hmem)

/-- **Admission in the order of the queue.** A queue that admits workers admits them for the first of
the queued items that have none, as many as there are free slots, and leaves everything else as it
is. No item that is left stands before one that was taken. -/
theorem tick_eq_engage (hnodup : (s.table.items.map Item.id).Nodup)
    (hauto : s.autoDownload = true) (hopen : s.shuttingDown = false) :
    ∃ taken left, s.eligible = taken ++ left ∧
      taken.length = min s.eligible.length (s.maxConcurrent.toNat - s.active.length) ∧
      s.tick = s.engage taken ∧
      ∀ first ∈ taken, ∀ last ∈ left, ¬ [last, first].Sublist s.table.items := by
  have hslots : s.slots = s.maxConcurrent.toNat - s.active.length := by
    simp [slots, hauto, hopen]
  have hsplit := List.take_append_drop s.slots s.eligible
  refine ⟨_, _, hsplit.symm, ?_, tick_eq_engage_take hnodup, ?_⟩
  · rw [List.length_take, Nat.min_comm, hslots]
  · intro first hfirst last hlast horder
    have heligible : s.eligible.Nodup := hnodup.of_map.sublist List.filter_sublist
    -- Both are eligible, so they stand in the same order in the list of the eligible.
    have hboth : [last, first].Sublist s.eligible := by
      have hfiltered := horder.filter fun item => item.status = .queued && !s.isBound item.id
      have hlastWaits := (List.mem_filter.mp (List.mem_of_mem_drop hlast)).2
      have hfirstWaits := (List.mem_filter.mp (List.mem_of_mem_take hfirst)).2
      simpa only [eligible, List.filter_cons, hlastWaits, hfirstWaits, if_true, List.filter_nil]
        using hfiltered
    rw [← hsplit] at heligible hboth
    have htaken := mem_of_sublist_append heligible hboth hfirst
    exact (List.nodup_append.mp heligible).2.2 last htaken last hlast rfl

/-- Three slots, two of them taken, one by a worker that is stopping. Of the three queued items one
has that worker. -/
def crowded : Scheduler :=
  { config := {}
    table :=
      ⟨[{ Item.new ⟨1⟩ "http://h/a" ⟨"/a"⟩ .epoch with status := .downloading },
        Item.new ⟨2⟩ "http://h/b" ⟨"/b"⟩ .epoch,
        { Item.new ⟨3⟩ "http://h/c" ⟨"/c"⟩ .epoch with status := .paused },
        { Item.new ⟨4⟩ "http://h/d" ⟨"/d"⟩ .epoch with bytesDownloaded := 7 },
        Item.new ⟨5⟩ "http://h/e" ⟨"/e"⟩ .epoch], 6⟩
    active :=
      [{ id := ⟨2⟩, seq := 1, startOffset := 0, startedAt := 0, cancelled := true,
         stop := some .requeue },
        { id := ⟨1⟩, seq := 2, startOffset := 0, startedAt := 0, cancelled := false, stop := none }]
    maxConcurrent := 3
    autoDownload := true
    admissions := 2
    files := .empty
    now := .epoch
    share := 0 }

/-- The last slot goes to the first item that waits, from the seventh byte on. -/
theorem tick_eq_engage_crowded :
    (crowded.table.items.map Item.id).Nodup ∧ crowded.autoDownload = true ∧
      crowded.shuttingDown = false ∧
      ∃ taken left, crowded.eligible = taken ++ left ∧ taken.map Item.id = [⟨4⟩] ∧
        left.map Item.id = [⟨5⟩] ∧ crowded.tick = crowded.engage taken ∧
        crowded.tick.table.items.map (fun item => (item.id, item.status)) =
          [(⟨1⟩, .downloading), (⟨2⟩, .queued), (⟨3⟩, .paused), (⟨4⟩, .downloading),
            (⟨5⟩, .queued)] ∧
        crowded.tick.active.map (fun binding => (binding.id, binding.seq, binding.startOffset)) =
          [(⟨2⟩, 1, 0), (⟨1⟩, 2, 0), (⟨4⟩, 3, 7)] := by
  obtain ⟨taken, left, hsplit, hlength, htick, -⟩ :=
    tick_eq_engage (s := crowded) (by decide) rfl rfl
  have hone : taken.length = 1 := hlength
  have htaken : taken = crowded.eligible.take 1 := by
    rw [hsplit, ← hone, List.take_left]
  have hleft : left = crowded.eligible.drop 1 := by
    rw [hsplit, ← hone, List.drop_left]
  refine ⟨by decide, rfl, rfl, taken, left, hsplit, ?_, ?_, htick, ?_, ?_⟩
  · rw [htaken]
    decide
  · rw [hleft]
    decide
  · rw [htick, htaken]
    decide
  · rw [htick, htaken]
    decide

end Scheduler

end DownloadQueue
