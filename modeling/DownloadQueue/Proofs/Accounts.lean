import DownloadQueue.Proofs.Departures
import DownloadQueue.Proofs.Postings

/-!
# What the queue accounts for

An item keeps an error exactly while it is failed, and the error is the reason of its last failure.
It was tried again as often as the events tell of a change from failed to queued. And whatever waits
for a timer is a failed item, so no snapshot shows more of these than failed items.
-/

namespace DownloadQueue

/-- The books of an item: the reason of its last failure, how often it was tried again when it came,
and the changes of its status that were told. -/
structure Item.Booked (item : Item) (reason : Option String) (first : Nat)
    (changes : List (Status × Status)) : Prop where
  error_iff : item.lastError.isSome ↔ item.status = .failed
  error : item.status = .failed → item.lastError = reason
  attempts : item.attempts.toNat = first + changes.count (.failed, .queued)

def Item.failedFor (reason : String) (item : Item) : Item :=
  { Scheduler.withStatus .failed item with lastError := some reason }

def Item.triedAgain (attempts : UInt32) (item : Item) : Item :=
  Scheduler.withStatus .queued { item with attempts }

def lastReason (opened : List Item) (told : List (ItemId × String)) (id : ItemId) : Option String :=
  ((told.find? fun failure => failure.1 = id).map Prod.snd).or
    ((opened.find? fun item => item.id = id).bind Item.lastError)

def firstAttempts (opened : List Item) (id : ItemId) : Nat :=
  ((opened.find? fun item => item.id = id).map fun item => item.attempts.toNat).getD 0

structure Snapshot.Covered (policy : RetryPolicy) (snapshot : Snapshot) : Prop where
  pending_le : snapshot.stats.pendingRetries ≤ snapshot.stats.failed
  manual : policy = .manual → snapshot.stats.pendingRetries = 0

/-- There are fewer items than numbers. -/
theorem Table.Sound.length_lt {table : Table} (h : table.Sound) : table.items.length < UInt64.size := by
  have hnodup : (table.items.map fun item => item.id.value.toNat).Nodup := by
    have hmap : (table.items.map fun item => item.id.value.toNat) =
        (table.items.map Item.id).map fun id => id.value.toNat := by
      rw [List.map_map]
      rfl
    rw [hmap]
    refine h.nodup.map fun first second heq => ?_
    cases first
    cases second
    exact congrArg ItemId.mk (UInt64.toNat_inj.mp heq)
  have hsub : (table.items.map fun item => item.id.value.toNat) ⊆ List.range table.nextId.toNat := by
    intro n hmem
    obtain ⟨item, hitem, rfl⟩ := List.mem_map.mp hmem
    exact List.mem_range.mpr (h.lt_nextId item hitem)
  have hle := (hnodup.subperm hsub).length_le
  rw [List.length_map, List.length_range] at hle
  exact Nat.lt_of_le_of_lt hle table.nextId.toNat_lt

namespace Item.Booked

variable {item : Item} {reason : Option String} {first : Nat} {changes : List (Status × Status)}

theorem of_not_failed (h : item.Booked reason first changes) (hstatus : item.status ≠ .failed)
    (other : Option String) : item.Booked other first changes :=
  ⟨h.error_iff, fun hfailed => absurd hfailed hstatus, h.attempts⟩

theorem of_record (h : item.Booked reason first changes) {other : Item}
    (hrecord : other.record = item.record) : other.Booked reason first changes := by
  have hstatus : other.status = item.status := (congrArg Item.status hrecord :)
  have herror : other.lastError = item.lastError := (congrArg Item.lastError hrecord :)
  have hattempts : other.attempts = item.attempts := (congrArg Item.attempts hrecord :)
  exact ⟨by rw [herror, hstatus]; exact h.error_iff, by rw [herror, hstatus]; exact h.error,
    by rw [hattempts]; exact h.attempts⟩

/-- A new status other than that of a failed item takes the error away. -/
theorem withStatus (h : item.Booked reason first changes) {status : Status}
    (hstatus : status ≠ .failed) (hkept : item.status = .failed → status ≠ .queued) :
    (Scheduler.withStatus status item).Booked reason first (changes ++ [(item.status, status)]) where
  error_iff := by simp [Scheduler.withStatus, hstatus]
  error hfailed := absurd hfailed hstatus
  attempts := by
    have hne : ((item.status, status) == (Status.failed, Status.queued)) = false := by
      rw [beq_eq_false_iff_ne]
      intro heq
      rw [Prod.mk.injEq] at heq
      exact hkept heq.1 heq.2
    change item.attempts.toNat = _
    rw [List.count_append, List.count_singleton, hne, h.attempts]
    rfl

/-- A failure writes its reason and is not another attempt. -/
theorem failedFor (h : item.Booked reason first changes) (new : String) :
    (item.failedFor new).Booked (some new) first (changes ++ [(item.status, .failed)]) where
  error_iff := by simp [Item.failedFor, Scheduler.withStatus]
  error _ := rfl
  attempts := by
    change item.attempts.toNat = _
    rw [List.count_append, h.attempts]
    simp

/-- Another attempt is counted once. -/
theorem triedAgain (h : item.Booked reason first changes) {attempts : UInt32}
    (hattempts : Counter.next32 item.attempts = .ok attempts) :
    (item.triedAgain attempts).Booked reason first (changes ++ [(.failed, .queued)]) where
  error_iff := by simp [Item.triedAgain, Scheduler.withStatus]
  error hfailed := by cases hfailed
  attempts := by
    have hgrown : attempts.toNat = item.attempts.toNat + 1 := by
      rw [Counter.next32] at hattempts
      split at hattempts
      · next hroom =>
        cases hattempts
        rw [UInt32.toNat_add]
        exact Nat.mod_eq_of_lt hroom
      · cases hattempts
    change attempts.toNat = _
    rw [hgrown, List.count_append, h.attempts, Nat.add_assoc]
    rfl

end Item.Booked

namespace Scheduler

variable {own : ItemId → Prop} {tells : ItemId → String → Prop} {s t : Scheduler} {id : ItemId}
variable {item : Item} {reason : ItemId → Option String} {first : ItemId → Nat}

/-- What a new status adds to the changes that were told. -/
theorem turns_setStatus (hget : s.table.get? id = some item) (status : Status) (other : ItemId) :
    turns other (s.setStatus id status).events =
      turns other s.events ++
        if other = id ∧ item.status ≠ status then [(item.status, status)] else [] := by
  by_cases hsame : item.status = status
  · rw [setStatus_of_eq hget hsame, if_neg (fun h => h.2 hsame), List.append_nil]
  · rw [setStatus_of_ne hget hsame]
    change turns other (s.events ++ [.statusChanged id item.status status]) = _
    rw [turns, List.filterMap_append, turns]
    congr 1
    by_cases heq : other = id
    · simp [Event.turn?, heq, hsame]
    · simp [Event.turn?, heq, Ne.symm heq]

structure Books (reason : ItemId → Option String) (first : ItemId → Nat) (s : Scheduler) : Prop where
  sound : s.table.Sound
  booked : ∀ id item, s.table.get? id = some item →
    item.Booked (reason id) (first id) (turns id s.events)
  free : ∀ id : ItemId, s.table.nextId.toNat ≤ id.value.toNat → turns id s.events = [] ∧ first id = 0

theorem Books.of_get? (h : s.Books reason first) (hsound : t.table.Sound)
    (hget : ∀ id item, t.table.get? id = some item → s.table.get? id = some item)
    (hnext : t.table.nextId = s.table.nextId) (hturns : ∀ id, turns id t.events = turns id s.events) :
    t.Books reason first where
  sound := hsound
  booked id item hitem := hturns id ▸ h.booked id item (hget id item hitem)
  free id hfree := hturns id ▸ h.free id (hnext ▸ hfree)

/-- One item and what was told of it change. -/
theorem Books.alter (h : s.Books reason first) (hsound : t.table.Sound)
    (hnext : t.table.nextId = s.table.nextId) (hold : s.table.get? id = some item) {new : Item}
    (hget : ∀ other, t.table.get? other = if other = id then some new else s.table.get? other)
    (hturns : ∀ other, other ≠ id → turns other t.events = turns other s.events)
    (hnew : new.Booked (reason id) (first id) (turns id t.events)) : t.Books reason first where
  sound := hsound
  booked other found hfound := by
    rw [hget] at hfound
    split at hfound
    · next heq =>
      cases hfound
      exact heq ▸ hnew
    · next hne => exact hturns other hne ▸ h.booked other found hfound
  free other hfree := by
    rw [hnext] at hfree
    have hne : other ≠ id := by
      rintro rfl
      have hlt := h.sound.lt_nextId item (Table.mem_of_get? hold)
      rw [Table.id_of_get? hold] at hlt
      omega
    exact hturns other hne ▸ h.free other hfree

theorem Books.setStatus (h : s.Books reason first) (hget : s.table.get? id = some item)
    {status : Status} (hstatus : status ≠ .failed)
    (hkept : item.status = .failed → status ≠ .queued) : (s.setStatus id status).Books reason first := by
  by_cases hsame : item.status = status
  · rwa [setStatus_of_eq hget hsame]
  · have hbooked := (h.booked id item hget).withStatus hstatus hkept
    have htold := turns_setStatus hget status id
    rw [if_pos ⟨rfl, hsame⟩] at htold
    rw [← htold] at hbooked
    refine h.alter (sound_setStatus h.sound id status) (nextId_setStatus s id status) hget
      (fun other => ?_) (fun other hne => ?_) hbooked
    · rw [get?_setStatus, hget, Option.map_some, turned, if_neg hsame]
    · rw [turns_setStatus hget, if_neg (fun hand => hne hand.1), List.append_nil]

/-- A failure that was told is booked as the reason of the item. -/
theorem Books.fail (h : s.Books reason first) (hget : s.table.get? id = some item)
    (hstatus : item.status ≠ .failed) {new : String} (hreason : reason id = some new) :
    ((s.setStatus id .failed).modifyItem id fun item =>
      { item with lastError := some new }).Books reason first := by
  have hbooked := (h.booked id item hget).failedFor new
  have htold := turns_setStatus hget .failed id
  rw [if_pos ⟨rfl, hstatus⟩] at htold
  rw [← htold, ← hreason] at hbooked
  have hsound : ((s.setStatus id .failed).modifyItem id fun item =>
      { item with lastError := some new }).table.Sound := by
    refine (sound_setStatus h.sound id .failed).of_ids ?_ rfl
    exact Table.ids_modify _ _ _ fun _ => rfl
  refine h.alter hsound (nextId_setStatus s id .failed) hget (fun other => ?_) (fun other hne => ?_)
    hbooked
  · have hnoted := get?_modifyItem (s.setStatus id .failed) id
      (fun item => { item with lastError := some new }) (fun _ => rfl) other
    rw [hnoted, get?_setStatus, get?_setStatus, if_pos rfl, hget, Option.map_some, Option.map_some,
      turned, if_neg hstatus]
    split <;> rfl
  · exact (turns_setStatus hget _ other).trans
      (by rw [if_neg fun hand => hne hand.1, List.append_nil])

/-- A failed item that is tried again loses its error, and one more attempt is counted. -/
theorem Books.again (h : s.Books reason first) (hget : s.table.get? id = some item)
    (hstatus : item.status = .failed) {attempts : UInt32}
    (hattempts : Counter.next32 item.attempts = .ok attempts) :
    ((s.modifyItem id fun item => { item with attempts }).setStatus id .queued).Books
      reason first := by
  have hnoted := get?_modifyItem s id (fun item => { item with attempts }) fun _ => rfl
  have hfound := hnoted id
  rw [if_pos rfl, hget, Option.map_some] at hfound
  have hfailed : ¬ ({ item with attempts } : Item).status = .queued := by simp [hstatus]
  have hbooked := (h.booked id item hget).triedAgain hattempts
  have htold := turns_setStatus hfound .queued id
  rw [if_pos ⟨rfl, hfailed⟩] at htold
  have hbefore : turns id (s.modifyItem id fun item => { item with attempts }).events =
      turns id s.events := rfl
  rw [← hstatus, ← hbefore, ← htold] at hbooked
  have hsound : (s.modifyItem id fun item => { item with attempts }).table.Sound :=
    h.sound.of_ids (Table.ids_modify _ _ _ fun _ => rfl) rfl
  refine h.alter (sound_setStatus hsound id .queued) (nextId_setStatus _ id .queued) hget
    (fun other => ?_) (fun other hne => ?_) hbooked
  · rw [get?_setStatus, hfound, Option.map_some, turned, if_neg hfailed]
    split
    · rfl
    · next hne => rw [hnoted, if_neg hne]
  · rw [turns_setStatus hfound, if_neg fun hand => hne hand.1, List.append_nil]
    rfl

/-- A new item opens an account under the next number, of which nothing was known. -/
theorem Books.join (h : s.Books reason first) {next : UInt64}
    (hnext : Counter.next64 s.table.nextId = .ok next) (hid : item.id = ⟨s.table.nextId⟩)
    (hstatus : item.status ≠ .failed) (hattempts : item.attempts = 0)
    (herror : item.lastError = none) :
    ({ s with table := ⟨s.table.items ++ [item], next⟩ } : Scheduler).Books reason first := by
  have hgrown := (Counter.next64_eq_ok hnext).2
  have hvalue : item.id.value = s.table.nextId := by rw [hid]
  have hnone : s.table.get? item.id = none := hid ▸ h.sound.get?_nextId
  refine ⟨h.sound.append hnext hid, fun other found hfound => ?_, fun other hfree => ?_⟩
  · rw [Table.get?_append hnone] at hfound
    split at hfound
    · next heq =>
      cases hfound
      obtain ⟨hturns, hfirst⟩ := h.free item.id (by rw [hvalue])
      rw [heq]
      change item.Booked _ _ (turns item.id s.events)
      rw [hturns, hfirst]
      refine ⟨?_, fun hfailed => absurd hfailed hstatus, by rw [hattempts]; rfl⟩
      simp [herror, hstatus]
    · exact h.booked other found hfound
  · change next.toNat ≤ _ at hfree
    exact h.free other (by omega)

/-- No posting spoils the books, as long as the failures it tells of are those that were told. -/
theorem Posting.books (hposting : Posting own tells s t)
    (htells : ∀ id new, tells id new → reason id = some new) (h : s.Books reason first) :
    t.Books reason first := by
  have hsound := hposting.sound h.sound
  cases hposting with
  | aside htable _ _ hturns =>
    exact h.of_get? hsound (fun id item hget => htable ▸ hget) (by rw [htable]) hturns
  | release => exact h.of_get? h.sound (fun _ _ hget => hget) rfl fun _ => rfl
  | @measure _ id _ change hrecord =>
    have hid (item : Item) : (change item).id = item.id := (congrArg Item.id (hrecord item) :)
    refine ⟨hsound, fun other item hitem => ?_, h.free⟩
    rw [get?_modifyItem s id change hid] at hitem
    split at hitem
    · next heq =>
      obtain ⟨found, hfound, rfl⟩ := Option.map_eq_some_iff.mp hitem
      exact (heq ▸ h.booked id found hfound).of_record (hrecord found)
    · exact h.booked other item hitem
  | turn hstands hstatus =>
    obtain ⟨standing, hstanding, hold⟩ := hstands
    obtain ⟨item, hget, rfl⟩ := get?_of_standing? hstanding
    refine h.setStatus hget hstatus fun hfailed => ?_
    rcases hold with hne | ⟨rfl, -⟩
    · exact absurd hfailed hne
    · simp
  | @leave _ keep =>
    refine h.of_get? hsound (fun id item hget => ?_) rfl fun _ => rfl
    have hkept : (s.table.get? id).filter keep = some item :=
      (h.sound.find?_filter keep id).symm.trans hget
    exact (Option.filter_eq_some_iff.mp hkept).1
  | join hnext hid hstatus hattempts herror => exact h.join hnext hid hstatus hattempts herror
  | fail htold hget hstatus => exact h.fail hget hstatus (htells _ _ htold)
  | wait => exact h.of_get? h.sound (fun _ _ hget => hget) rfl fun _ => rfl
  | again hget hstatus _ hattempts => exact h.again hget hstatus hattempts

theorem Postings.books (hpostings : Postings own tells s t)
    (htells : ∀ id new, tells id new → reason id = some new) (h : s.Books reason first) :
    t.Books reason first := by
  induction hpostings with
  | refl => exact h
  | tail _ hposting ih => exact hposting.books htells ih

/-- Whatever waits for a timer is a failed item and waits once, nothing waits under the manual
policy, and the snapshots that were published say so. -/
structure Expectant (s : Scheduler) : Prop where
  nodup : (s.pending.map Prod.fst).Nodup
  failed : ∀ entry ∈ s.pending, s.Stands (fun status => status = .failed) entry.1
  manual : s.config.retry.policy = .manual → s.pending = []
  published : ∀ snapshot ∈ s.snapshots, snapshot.Covered s.config.retry.policy

theorem Expectant.length_pending_le (h : s.Expectant) :
    s.pending.length ≤ s.table.items.countP fun item => item.status = .failed := by
  have hsub : s.pending.map Prod.fst ⊆
      (s.table.items.filter fun item => item.status = .failed).map Item.id := by
    intro id hmem
    obtain ⟨entry, hentry, rfl⟩ := List.mem_map.mp hmem
    obtain ⟨standing, hstanding, hfailed⟩ := h.failed entry hentry
    obtain ⟨item, hget, rfl⟩ := get?_of_standing? hstanding
    refine List.mem_map.mpr ⟨item, ?_, Table.id_of_get? hget⟩
    exact List.mem_filter.mpr ⟨Table.mem_of_get? hget, decide_eq_true hfailed⟩
  have hle := (h.nodup.subperm hsub).length_le
  rwa [List.length_map, List.length_map, ← List.countP_eq_length_filter] at hle

theorem stats_of_snapshot {snapshot : Snapshot} (h : s.snapshot = .ok snapshot) :
    snapshot.stats.pendingRetries = UInt64.ofNat s.pending.length ∧
      snapshot.stats.failed = countStatus s.table.items fun status => status = .failed := by
  obtain ⟨bytes, speed, -, rfl⟩ := snapshot_eq_ok h
  exact ⟨rfl, rfl⟩

theorem Expectant.covered (h : s.Expectant) (hsound : s.table.Sound) {snapshot : Snapshot}
    (hsnapshot : s.snapshot = .ok snapshot) : snapshot.Covered s.config.retry.policy := by
  obtain ⟨hpending, hfailed⟩ := stats_of_snapshot hsnapshot
  have hle := h.length_pending_le
  have hcount : (s.table.items.countP fun item => item.status = .failed) < UInt64.size :=
    Nat.lt_of_le_of_lt List.countP_le_length hsound.length_lt
  constructor
  · rw [hpending, hfailed, countStatus, UInt64.le_iff_toNat_le,
      UInt64.toNat_ofNat_of_lt' (Nat.lt_of_le_of_lt hle hcount), UInt64.toNat_ofNat_of_lt' hcount]
    exact hle
  · intro hmanual
    rw [hpending, h.manual hmanual]
    rfl

theorem ne_of_pendingSerial?_eq_none (h : s.pendingSerial? id = none) {entry : ItemId × Nat}
    (hmem : entry ∈ s.pending) : entry.1 ≠ id := by
  rw [pendingSerial?, Option.map_eq_none_iff, List.find?_eq_none] at h
  simpa using h entry hmem

/-- What a change leaves of the timers, if the items that wait stay failed. -/
theorem Expectant.of_pending (h : s.Expectant) (hconfig : t.config = s.config)
    (hpending : t.pending = s.pending) (hsnapshots : t.snapshots = s.snapshots)
    (hfailed : ∀ entry ∈ s.pending, t.standing? entry.1 = s.standing? entry.1) : t.Expectant where
  nodup := hpending ▸ h.nodup
  failed entry hmem := by
    rw [hpending] at hmem
    exact (h.failed entry hmem).of_standing? (hfailed entry hmem)
  manual hmanual := by
    rw [hconfig] at hmanual
    rw [hpending, h.manual hmanual]
  published snapshot hmem := by
    rw [hsnapshots] at hmem
    exact hconfig ▸ h.published snapshot hmem

theorem Expectant.setStatus (h : s.Expectant) (status : Status)
    (hother : ∀ entry ∈ s.pending, entry.1 ≠ id) : (s.setStatus id status).Expectant := by
  refine h.of_pending ?_ ?_ ?_ fun entry hmem => standing?_setStatus_of_ne s status (hother entry hmem)
  all_goals rw [setStatus_eq]

theorem Expectant.modifyItem (h : s.Expectant) (id : ItemId) {change : Item → Item}
    (hchange : ∀ item, (change item).standing = item.standing) : (s.modifyItem id change).Expectant :=
  h.of_pending rfl rfl rfl fun entry _ => (alike_modifyItem s id change hchange).standing? entry.1

/-- An item of another status waits for no timer. -/
theorem Expectant.ne_of_stands (h : s.Expectant) (hstands : s.Stands (fun status => status ≠ .failed) id)
    {entry : ItemId × Nat} (hmem : entry ∈ s.pending) : entry.1 ≠ id := by
  rintro rfl
  obtain ⟨standing, hstanding, hfailed⟩ := h.failed entry hmem
  obtain ⟨same, hsame, hstatus⟩ := hstands
  rw [hstanding] at hsame
  cases hsame
  exact hstatus hfailed

/-- Items that leave without being failed wait for no timer. -/
theorem Expectant.retain (h : s.Expectant) (hsound : s.table.Sound) {keep : Item → Bool}
    (hleave : ∀ item ∈ s.table.items, keep item = false → item.status ≠ .failed) :
    ({ s with table := (s.table.retain keep).2 } : Scheduler).Expectant := by
  refine h.of_pending rfl rfl rfl fun entry hmem => ?_
  obtain ⟨standing, hstanding, hfailed⟩ := h.failed entry hmem
  obtain ⟨item, hget, rfl⟩ := get?_of_standing? hstanding
  have hkeep : keep item = true := by
    by_contra hgone
    rw [Bool.not_eq_true] at hgone
    exact hleave item (Table.mem_of_get? hget) hgone hfailed
  have hkept : (s.table.retain keep).2.get? entry.1 = some item := by
    refine (hsound.find?_filter keep entry.1).trans ?_
    rw [hget, Option.filter_some_pos hkeep]
  exact (standing?_of_get? hkept).trans hstanding.symm

/-- A failed item that waits for no timer gets one. -/
theorem Expectant.setTimer (h : s.Expectant) {timer : Timer}
    (hfailed : s.Stands (fun status => status = .failed) timer.id)
    (hnone : s.pendingSerial? timer.id = none) (hpolicy : s.config.retry.policy = .automatic) :
    (s.setTimer timer).Expectant := by
  refine ⟨?_, fun entry hmem => ?_, fun hmanual => ?_, h.published⟩
  · change ((s.pending ++ [(timer.id, timer.serial)]).map Prod.fst).Nodup
    rw [List.map_append, List.nodup_append]
    refine ⟨h.nodup, List.nodup_singleton _, fun first hfirst second hsecond => ?_⟩
    obtain ⟨entry, hentry, rfl⟩ := List.mem_map.mp hfirst
    rw [List.map_cons, List.map_nil, List.mem_singleton] at hsecond
    exact hsecond ▸ ne_of_pendingSerial?_eq_none hnone hentry
  · rcases List.mem_append.mp hmem with hold | hnew
    · exact h.failed entry hold
    · rw [List.mem_singleton.mp hnew]
      exact hfailed
  · change s.config.retry.policy = .manual at hmanual
    rw [hpolicy] at hmanual
    cases hmanual

/-- A posting sets timers for failed items only, and none under the manual policy. -/
theorem Posting.expectant (hposting : Posting own tells s t) (hsound : s.table.Sound)
    (h : s.Expectant) : t.Expectant := by
  cases hposting with
  | aside htable hconfig hpending _ hsnapshots =>
    refine ⟨h.nodup.sublist (hpending.map _), fun entry hmem => ?_, fun hmanual => ?_, ?_⟩
    · refine (h.failed entry (hpending.subset hmem)).of_standing? ?_
      rw [standing?, htable]
      rfl
    · rw [hconfig] at hmanual
      have hnone := h.manual hmanual
      rw [hnone] at hpending
      exact List.eq_nil_of_sublist_nil hpending
    · intro snapshot hmem
      rw [hconfig]
      exact (hsnapshots snapshot hmem).elim (h.published snapshot) (h.covered hsound)
  | release => exact h.of_pending rfl rfl rfl fun _ _ => rfl
  | measure _ hrecord =>
    have hstanding (item : Item) := congrArg Item.standing (hrecord item)
    exact h.modifyItem _ hstanding
  | @turn _ id status hstands =>
    refine h.setStatus status fun entry hmem heq => ?_
    obtain ⟨standing, hstanding, hne | ⟨-, hnone⟩⟩ := hstands
    · exact h.ne_of_stands ⟨standing, hstanding, hne⟩ hmem heq
    · exact ne_of_pendingSerial?_eq_none hnone hmem heq
  | leave hleave => exact h.retain hsound fun item hmem hgone => (hleave item hmem hgone).1
  | @join _ item next hnext hid =>
    have hnone : s.standing? item.id = none := hid ▸ standing?_nextId hsound
    refine h.of_pending rfl rfl rfl fun entry hmem => ?_
    rw [standing?_append hnone, if_neg]
    rintro heq
    obtain ⟨standing, hstanding, -⟩ := h.failed entry hmem
    rw [heq, hnone] at hstanding
    cases hstanding
  | @fail _ id _ _ item hget hstatus =>
    have hfailed : (s.setStatus id .failed).Expectant :=
      h.setStatus .failed fun entry hmem => h.ne_of_stands (stands_of_get? hget hstatus) hmem
    exact hfailed.modifyItem id fun _ => rfl
  | wait hfailed hnone hpolicy => exact h.setTimer hfailed hnone hpolicy
  | @again _ id item attempts hget hstatus hnone =>
    have hnoted : (s.modifyItem id fun item => { item with attempts }).Expectant :=
      h.modifyItem id fun _ => rfl
    exact hnoted.setStatus .queued fun entry hmem => ne_of_pendingSerial?_eq_none hnone hmem

theorem Postings.expectant (hpostings : Postings own tells s t) (hsound : s.table.Sound)
    (h : s.Expectant) : t.Expectant := by
  induction hpostings with
  | refl => exact h
  | tail hbefore hposting ih =>
    have hbefore : Postings own tells s _ := hbefore
    exact hposting.expectant (hbefore.sound hsound) ih

def failure? (s : Scheduler) : Action → Option (ItemId × String)
  | .message ⟨id, .ended (.failed reason _)⟩ =>
    if (s.binding? id).any fun binding => binding.stop.isNone then some (id, reason) else none
  | _ => none

def failures (s : Scheduler) : List Action → List (ItemId × String)
  | [] => []
  | action :: actions => (s.act action).failures actions ++ (s.failure? action).toList

theorem failure?_of_fails {message : Message} {new : String} {retryable : Bool}
    (hfails : s.Fails message) (hreport : message.report = .ended (.failed new retryable)) :
    s.failure? (.message message) = some (message.id, new) := by
  obtain ⟨binding, -, -, hbinding, hstop, -⟩ := hfails
  obtain ⟨id, report⟩ := message
  cases hreport
  change (if (s.binding? id).any _ then _ else _) = _
  rw [hbinding, Option.any_some, hstop]
  rfl

/-- An item with a worker is not a failed one. -/
theorem Coherent.not_failed_of_duty? (h : s.Coherent) {duty : Duty} (hduty : s.duty? id = some duty) :
    s.Stands (fun status => status ≠ .failed) id := by
  obtain ⟨standing, hstanding, -⟩ := h.fits id duty hduty
  refine ⟨standing, hstanding, fun hfailed => ?_⟩
  rw [h.duty?_eq_none hstanding (.inl hfailed)] at hduty
  cases hduty

/-- An item whose failure is told of was not failed before. -/
theorem Coherent.stands_of_failure? (h : s.Coherent) {action : Action} {new : String}
    (hfailure : s.failure? action = some (id, new)) :
    s.Stands (fun status => status ≠ .failed) id := by
  unfold failure? at hfailure
  split at hfailure
  · split at hfailure
    · next other _ _ hrunning =>
      cases hfailure
      obtain ⟨binding, hbinding, -⟩ := (Option.any_eq_true _ _).mp hrunning
      have hduty : s.duty? id = some binding.duty := by rw [duty?, hbinding]; rfl
      exact h.not_failed_of_duty? hduty
    · cases hfailure
  · cases hfailure

theorem postings_act (h : s.Coherent) (action : Action) :
    Postings (fun _ => True) (fun id new => s.failure? action = some (id, new)) s (s.act action) := by
  cases action with
  | operation operation => exact postings_operate h operation
  | message message =>
    exact postings_handleMessage h trivial fun _ _ hfails hreport => failure?_of_fails hfails hreport
  | shutdown => exact postings_shutdown (fun _ => trivial) h
  | outside files inbox clock now share =>
    exact postings_aside rfl rfl (List.Sublist.refl _) rfl rfl fun _ => rfl

variable {opened : List Item} {told : List (ItemId × String)}

/-- One more failure is the last one of its item, and the others keep theirs. -/
theorem Books.tell (h : s.Books (lastReason opened told) first)
    (hstands : s.Stands (fun status => status ≠ .failed) id) (new : String) :
    s.Books (lastReason opened ((id, new) :: told)) first := by
  refine ⟨h.sound, fun other item hget => ?_, h.free⟩
  by_cases heq : other = id
  · subst heq
    obtain ⟨standing, hstanding, hstatus⟩ := hstands
    rw [standing?_of_get? hget] at hstanding
    cases hstanding
    exact (h.booked other item hget).of_not_failed hstatus _
  · rw [lastReason, List.find?_cons_of_neg (by simpa using Ne.symm heq)]
    exact h.booked other item hget

/-- The step for a whole action: the failure it is told of comes before the older ones. -/
theorem Books.after (h : s.Books (lastReason opened told) first) (hcoherent : s.Coherent)
    (action : Action) :
    (s.act action).Books (lastReason opened ((s.failure? action).toList ++ told)) first := by
  have hpostings := postings_act hcoherent action
  cases hfailure : s.failure? action with
  | none =>
    refine hpostings.books (fun id new htells => ?_) h
    rw [hfailure] at htells
    cases htells
  | some failure =>
    obtain ⟨id, new⟩ := failure
    have hnoted := h.tell (hcoherent.stands_of_failure? hfailure) new
    refine hpostings.books (fun other reason htells => ?_) hnoted
    rw [hfailure] at htells
    cases htells
    rw [lastReason, Option.toList_some, List.singleton_append, List.find?_cons_of_pos (by simp)]
    rfl

theorem Books.foldl_act (h : s.Books (lastReason opened told) first) (horderly : s.Orderly)
    (actions : List Action) :
    (actions.foldl act s).Books (lastReason opened (s.failures actions ++ told)) first := by
  induction actions generalizing s told with
  | nil => exact h
  | cons action actions ih =>
    rw [failures, List.append_assoc]
    exact ih (h.after horderly.coherent action) (horderly.foldl_act [action])

theorem Expectant.foldl_act (h : s.Expectant) (horderly : s.Orderly) (actions : List Action) :
    (actions.foldl act s).Expectant := by
  induction actions generalizing s with
  | nil => exact h
  | cons action actions ih =>
    have hpostings := postings_act horderly.coherent action
    exact ih (hpostings.expectant horderly.coherent.sound h) (horderly.foldl_act [action])

theorem Postings.config (hpostings : Postings own tells s t) : t.config = s.config := by
  induction hpostings with
  | refl => rfl
  | tail _ hposting ih =>
    refine Eq.trans ?_ ih
    cases hposting with
    | aside _ hconfig => exact hconfig
    | turn => rw [setStatus_eq]
    | @fail id _ _ _ =>
      change (setStatus _ _ _).config = _
      rw [setStatus_eq]
    | again =>
      rw [setStatus_eq]
      rfl
    | _ => rfl

theorem config_foldl_act (h : s.Orderly) (actions : List Action) :
    (actions.foldl act s).config = s.config := by
  induction actions generalizing s with
  | nil => rfl
  | cons action actions ih =>
    exact (ih (h.foldl_act [action])).trans (postings_act h.coherent action).config

/-- What the books show after a run, from the items that were opened, those that came in and the
failures that were told, youngest first. -/
structure Accounts (policy : RetryPolicy) (opened newcomers : List Item)
    (told : List (ItemId × String)) (s : Scheduler) : Prop where
  error_iff : ∀ item ∈ s.table.items, item.lastError.isSome ↔ item.status = .failed
  error : ∀ item ∈ s.table.items, item.status = .failed →
    item.lastError = lastReason opened told item.id
  followed : ∀ item ∈ s.table.items, ∃ first ∈ opened ++ newcomers,
    first.id = item.id ∧ first.status.Leads (turns item.id s.events) item.status
  attempts : ∀ item ∈ s.table.items, item.attempts.toNat =
    firstAttempts opened item.id + (turns item.id s.events).count (.failed, .queued)
  nodup : (s.pending.map Prod.fst).Nodup
  waiting : ∀ entry ∈ s.pending, ∃ item ∈ s.table.items, item.id = entry.1 ∧ item.status = .failed
  covered : ∀ snapshot, s.snapshot = .ok snapshot ∨ snapshot ∈ s.snapshots → snapshot.Covered policy

/-- At the start the books are what the table says of its failed items. -/
theorem books_of_table (config : Config) {table : Table} (hsound : table.Sound)
    (herror : ∀ item ∈ table.items, item.lastError.isSome ↔ item.status = .failed)
    (files : FileSystem) (now : Timestamp) (share : Float) :
    (Scheduler.ofTable config table files now share).Books (lastReason table.items [])
      (firstAttempts table.items) where
  sound := hsound
  booked id item hget := by
    have hfind : table.items.find? (fun item => item.id = id) = some item := hget
    refine ⟨herror item (Table.mem_of_get? hget), fun _ => ?_, ?_⟩
    · rw [lastReason, hfind]
      rfl
    · rw [firstAttempts, hfind]
      rfl
  free id hfree := by
    refine ⟨rfl, ?_⟩
    have hnone : table.items.find? (fun item => item.id = id) = none := by
      rw [List.find?_eq_none]
      intro item hmem heq
      have hlt := hsound.lt_nextId item hmem
      rw [show item.id = id by simpa using heq] at hlt
      exact Nat.lt_irrefl _ (Nat.lt_of_lt_of_le hlt hfree)
    rw [firstAttempts, hnone]
    rfl

/-- In every run over a table in which the failed items are those with an error, errors, attempts and
timers are as the failures and the changes that were told account for. -/
theorem accounts_of_actions (config : Config) {table : Table} (hsound : table.Sound)
    (herror : ∀ item ∈ table.items, item.lastError.isSome ↔ item.status = .failed)
    (files : FileSystem) (now : Timestamp) (share : Float) (actions : List Action) :
    let start := (Scheduler.ofTable config table files now share).restore
    let s := actions.foldl act start
    Accounts config.retry.policy table.items (start.entered actions) (start.failures actions) s := by
  intro start s
  have horderly : start.Orderly := orderly_restore hsound rfl
  have hrestore : Postings (fun _ => False) (fun _ _ => False)
      (Scheduler.ofTable config table files now share) start := postings_restore hsound rfl
  have hbooks : s.Books (lastReason table.items (start.failures actions))
      (firstAttempts table.items) := by
    have hopened := books_of_table config hsound herror files now share
    have hstart := hrestore.books (fun _ _ htells => htells.elim) hopened
    have hrun := hstart.foldl_act horderly actions
    rwa [List.append_nil] at hrun
  have hexpectant : s.Expectant := by
    have hopened : (Scheduler.ofTable config table files now share).Expectant :=
      ⟨List.nodup_nil, fun _ hmem => absurd hmem List.not_mem_nil, fun _ => rfl,
        fun _ hmem => absurd hmem List.not_mem_nil⟩
    exact (hrestore.expectant hsound hopened).foldl_act horderly actions
  have hconfig : s.config = config := (config_foldl_act horderly actions).trans hrestore.config
  have hrecorded : Recorded table.items (start.entered actions) s.events s :=
    (recorded_restore (s := Scheduler.ofTable config table files now share) hsound rfl rfl).foldl_act
      horderly actions
  have hbooked (item : Item) (hmem : item ∈ s.table.items) :=
    hbooks.booked item.id item (hbooks.sound.get?_of_mem hmem)
  refine ⟨fun item hmem => (hbooked item hmem).error_iff, fun item hmem => (hbooked item hmem).error,
    fun item hmem => ?_, fun item hmem => (hbooked item hmem).attempts, hexpectant.nodup,
    fun entry hmem => ?_, fun snapshot hshown => ?_⟩
  · obtain ⟨first, hfirst, hid⟩ :=
      List.mem_map.mp (hrecorded.mem_came (List.mem_map_of_mem hmem))
    obtain ⟨last, hleads, hlast⟩ := hrecorded.followed first hfirst
    rw [hid] at hleads hlast
    rw [hlast item (hbooks.sound.get?_of_mem hmem)]
    exact ⟨first, hfirst, hid, hleads⟩
  · obtain ⟨standing, hstanding, hfailed⟩ := hexpectant.failed entry hmem
    obtain ⟨item, hget, rfl⟩ := get?_of_standing? hstanding
    exact ⟨item, Table.mem_of_get? hget, Table.id_of_get? hget, hfailed⟩
  · rw [← hconfig]
    exact hshown.elim (hexpectant.covered hbooks.sound) (hexpectant.published snapshot)

def brokenTwice : List Action :=
  [.operation .tick, .message ⟨⟨3⟩, .ended (.failed "connection reset" true)⟩, .operation .commit,
    .operation (.retry ⟨3⟩), .message ⟨⟨3⟩, .ended (.failed "HTTP 404" false)⟩]

/-- The item shows its second failure and the attempt between the two, and a snapshot shows that it
waited for that attempt. -/
theorem accounts_of_actions_brokenTwice :
    let start := (Scheduler.ofTable Watch.patientConfig ⟨[cutOff], 4⟩ roomyFiles .epoch 0).restore
    let s := brokenTwice.foldl act start
    (⟨[cutOff], 4⟩ : Table).Sound ∧ (cutOff.lastError.isSome ↔ cutOff.status = .failed) ∧
      (s.table.items.map fun item => (item.status, item.lastError, item.attempts)) =
        [(.failed, some "HTTP 404", 1)] ∧
      (s.snapshots.map fun snapshot => (snapshot.stats.pendingRetries, snapshot.stats.failed)) =
        [(1, 1)] ∧
      start.failures brokenTwice = [(⟨3⟩, "HTTP 404"), (⟨3⟩, "connection reset")] ∧
      Accounts .automatic [cutOff] (start.entered brokenTwice) (start.failures brokenTwice) s := by
  have herror : ∀ item ∈ [cutOff], item.lastError.isSome ↔ item.status = .failed := by decide
  refine ⟨sound_cutOff, by decide, by decide +kernel, by decide +kernel, by decide +kernel, ?_⟩
  exact accounts_of_actions Watch.patientConfig sound_cutOff herror roomyFiles .epoch 0 brokenTwice

end Scheduler

end DownloadQueue
