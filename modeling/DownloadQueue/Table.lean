import DownloadQueue.Counter

/-!
The table of the queue's items in their order, with the number that the next item gets.
-/

namespace DownloadQueue

/-- The items in order. Every number from `nextId` on is free. -/
structure Table where
  items : List Item
  nextId : UInt64

namespace Table

def empty : Table := ⟨[], 1⟩

def larger (best : Option UInt64) (item : Item) : Option UInt64 :=
  match best with
  | none => some item.id.value
  | some n => some (if n < item.id.value then item.id.value else n)

def maxId? (items : List Item) : Option UInt64 :=
  items.foldl larger none

def ofItems (items : List Item) : Except Overflow Table :=
  match maxId? items with
  | none => .ok ⟨items, 1⟩
  | some n => (Counter.next64 n).map fun nextId => ⟨items, nextId⟩

def takeId (table : Table) : Except Overflow (ItemId × Table) :=
  (Counter.next64 table.nextId).map fun nextId => (⟨table.nextId⟩, { table with nextId })

def get? (table : Table) (id : ItemId) : Option Item :=
  table.items.find? fun item => item.id = id

def contains (table : Table) (id : ItemId) : Bool :=
  table.items.any fun item => item.id = id

def replaceFirst (id : ItemId) (change : Item → Item) : List Item → List Item
  | [] => []
  | item :: items =>
    if item.id = id then change item :: items else item :: replaceFirst id change items

def modify (table : Table) (id : ItemId) (change : Item → Item) : Table :=
  { table with items := replaceFirst id change table.items }

/-- Puts an item in the place of the one with its number, or at the end. -/
def place (table : Table) (item : Item) : Table :=
  if table.contains item.id then table.modify item.id fun _ => item
  else { table with items := table.items ++ [item] }

/-- Adds an item or replaces the one with its number; its number is not given away again. -/
def upsert (table : Table) (item : Item) : Except Overflow Table :=
  if table.nextId ≤ item.id.value then
    (Counter.next64 item.id.value).map fun nextId => { table with nextId }.place item
  else .ok (table.place item)

def remove (table : Table) (id : ItemId) : Option Item × Table :=
  (table.get? id, { table with items := table.items.eraseP fun item => item.id = id })

def itemsAt (table : Table) (destination : Path) : List Item :=
  table.items.filter fun item => item.destination.same destination

def idsWithStatus (table : Table) (status : Status) : List ItemId :=
  (table.items.filter fun item => item.status = status).map Item.id

def retain (table : Table) (keep : Item → Bool) : List Item × Table :=
  (table.items.filter fun item => !keep item, { table with items := table.items.filter keep })

/-- A change that keeps the number of its item keeps the numbers of the list. -/
theorem ids_replaceFirst (id : ItemId) (change : Item → Item)
    (h : ∀ item, (change item).id = item.id) (items : List Item) :
    (replaceFirst id change items).map Item.id = items.map Item.id := by
  induction items with
  | nil => rfl
  | cons item items ih =>
    rw [replaceFirst]
    split
    · rw [List.map_cons, List.map_cons, h]
    · rw [List.map_cons, List.map_cons, ih]

theorem ids_modify (table : Table) (id : ItemId) (change : Item → Item)
    (h : ∀ item, (change item).id = item.id) :
    (table.modify id change).items.map Item.id = table.items.map Item.id :=
  ids_replaceFirst id change h table.items

theorem find?_replaceFirst_self (id : ItemId) (change : Item → Item)
    (h : ∀ item, (change item).id = item.id) (items : List Item) :
    (replaceFirst id change items).find? (fun item => item.id = id) =
      (items.find? fun item => item.id = id).map change := by
  induction items with
  | nil => rfl
  | cons item items ih =>
    rw [replaceFirst]
    split
    · next heq => simp [h, heq]
    · next hne => simpa [hne] using ih

theorem get?_modify_self (table : Table) (id : ItemId) (change : Item → Item)
    (h : ∀ item, (change item).id = item.id) :
    (table.modify id change).get? id = (table.get? id).map change :=
  find?_replaceFirst_self id change h table.items

theorem find?_replaceFirst_of_ne {id other : ItemId} (hne : other ≠ id) (change : Item → Item)
    (h : ∀ item, (change item).id = item.id) (items : List Item) :
    (replaceFirst id change items).find? (fun item => item.id = other) =
      items.find? fun item => item.id = other := by
  induction items with
  | nil => rfl
  | cons item items ih =>
    rw [replaceFirst]
    split
    · next heq => simp [h, heq, hne.symm]
    · by_cases hother : item.id = other
      · simp [hother]
      · simpa [hother] using ih

theorem get?_modify_of_ne (table : Table) {id other : ItemId} (hne : other ≠ id)
    (change : Item → Item) (h : ∀ item, (change item).id = item.id) :
    (table.modify id change).get? other = table.get? other :=
  find?_replaceFirst_of_ne hne change h table.items

theorem mem_retain (table : Table) (keep : Item → Bool) (item : Item) :
    item ∈ (table.retain keep).2.items ↔ item ∈ table.items ∧ keep item = true :=
  List.mem_filter

theorem mem_removed (table : Table) (keep : Item → Bool) (item : Item) :
    item ∈ (table.retain keep).1 ↔ item ∈ table.items ∧ keep item = false := by
  rw [retain, List.mem_filter, Bool.not_eq_true']

end Table

end DownloadQueue
