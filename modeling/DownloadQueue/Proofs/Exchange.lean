import DownloadQueue.Proofs.Imprints
import DownloadQueue.Proofs.Saturation

/-!
# Messages of different workers can change places

Two messages of different workers leave the same, whichever is handled first. What each of them leaves
of its own item does not depend on the other one. But an ending admits workers at once, and not the
same ones in either order: it is shown that an admission between the two changes nothing, since the
items that it takes, with those that the admission after both takes, are the ones that a single
admission after both would take.
-/

namespace DownloadQueue

/-- The first `count` entries that pass, and the next one after a further entry may have been let in,
are the first `count + 1` that pass then. -/
theorem take_filter_perm {α : Type} [DecidableEq α] {p q : α → Bool} {late : α}
    (hlate : p late = false) (hother : ∀ a, a ≠ late → q a = p a) (entries : List α)
    (hnodup : entries.Nodup) (count : Nat) :
    ((entries.filter p).take count ++
        (entries.filter fun a => q a && decide (a ∉ (entries.filter p).take count)).take
          (count + 1 - ((entries.filter p).take count).length)).Perm
      ((entries.filter q).take (count + 1)) := by
  induction entries generalizing count with
  | nil => simp
  | cons a entries ih =>
    obtain ⟨hnew, hnodup⟩ := List.nodup_cons.mp hnodup
    have hrest (chosen : List α) : (entries.filter fun b => q b && decide (b ∉ a :: chosen)) =
        entries.filter fun b => q b && decide (b ∉ chosen) := by
      refine List.filter_congr fun b hb => ?_
      have hne : b ≠ a := fun heq => hnew (heq ▸ hb)
      simp [hne]
    by_cases hpass : p a = true
    · have hq : q a = true := by
        rw [hother a, hpass]
        rintro rfl
        rw [hlate] at hpass
        cases hpass
      rw [List.filter_cons_of_pos hpass, List.filter_cons_of_pos hq]
      cases count with
      | zero => simp [hq]
      | succ count =>
        rw [List.take_succ_cons, List.take_succ_cons, List.length_cons, Nat.add_sub_add_right,
          List.filter_cons_of_neg (by simp), hrest]
        exact (ih hnodup count).cons a
    · rw [List.filter_cons_of_neg hpass]
      have hunchosen : a ∉ (entries.filter p).take count :=
        fun hmem => hnew (List.mem_of_mem_filter (List.mem_of_mem_take hmem))
      -- an entry that fails the one test and passes the other is the late one
      by_cases hq : q a = true
      · -- The late entry comes before whatever is left: the others have taken all the other places.
        have hsame : entries.filter q = entries.filter p := by
          refine List.filter_congr fun b hb => hother b ?_
          rintro rfl
          rw [hother a fun heq => hnew (heq ▸ hb)] at hq
          exact hpass hq
        have hlength := List.length_take_le count (entries.filter p)
        have hnone : (entries.filter fun b =>
            q b && decide (b ∉ (entries.filter p).take count)).take
              (count - ((entries.filter p).take count).length) = [] := by
          rcases Nat.lt_or_ge (entries.filter p).length count with hshort | hlong
          · rw [List.take_of_length_le (Nat.le_of_lt hshort)]
            have hempty : (entries.filter fun b => q b && decide (b ∉ entries.filter p)) = [] := by
              rw [List.filter_eq_nil_iff]
              intro b hb
              simp only [← hsame, List.mem_filter, Bool.and_eq_true, decide_eq_true_eq]
              exact fun hpassed => hpassed.2 ⟨hb, hpassed.1⟩
            rw [hempty, List.take_nil]
          · rw [List.length_take_of_le hlong, Nat.sub_self, List.take_zero]
        rw [List.filter_cons_of_pos (by simp [hq, hunchosen]), List.filter_cons_of_pos hq,
          List.take_succ_cons, Nat.sub_add_comm hlength, List.take_succ_cons, hnone, hsame]
        exact List.perm_append_singleton a _
      · rw [List.filter_cons_of_neg (by simp [hq]), List.filter_cons_of_neg hq]
        exact ih hnodup count

namespace Scheduler

variable {s t u v w : Scheduler} {id : ItemId} {item : Item} {first second imprint : Imprint}
variable {message : Message} {outcome : Except Overflow Imprint} {ids others : List ItemId}

/-- The two agree in all but the order of their events and the numbers of admissions: in the whole
table, in who has a worker and what is known of it, in who waits for a timer, in the files and in the
mark, and in all that messages do not change. -/
structure Accords (s t : Scheduler) : Prop where
  table : t.table = s.table
  worker? : ∀ id, t.worker? id = s.worker? id
  pending : ∀ id, id ∈ t.pending.map Prod.fst ↔ id ∈ s.pending.map Prod.fst
  files : t.files = s.files
  dirty : t.dirty = s.dirty
  admissions : t.admissions = s.admissions
  events : t.events.Perm s.events
  bare : t.bare = s.bare

theorem Accords.refl (s : Scheduler) : Accords s s :=
  ⟨rfl, fun _ => rfl, fun _ => .rfl, rfl, rfl, rfl, .refl _, rfl⟩

theorem Accords.symm (h : Accords s t) : Accords t s :=
  ⟨h.table.symm, fun id => (h.worker? id).symm, fun id => (h.pending id).symm, h.files.symm,
    h.dirty.symm, h.admissions.symm, h.events.symm, h.bare.symm⟩

theorem Accords.trans (h : Accords s t) (h' : Accords t u) : Accords s u :=
  ⟨h'.table.trans h.table, fun id => (h'.worker? id).trans (h.worker? id),
    fun id => (h'.pending id).trans (h.pending id), h'.files.trans h.files, h'.dirty.trans h.dirty,
    h'.admissions.trans h.admissions, h'.events.trans h.events, h'.bare.trans h.bare⟩

/-! ## Imprints on different items -/

/-- The same imprint leaves agreeing schedulers in agreement. -/
theorem Imprinted.congr (h : Imprinted imprint s t) (h' : Imprinted imprint u v)
    (haccords : Accords s u) : Accords t v where
  table := by rw [h'.table, h.table, haccords.table]
  worker? id := by rw [h'.worker?, h.worker?, haccords.worker?]
  pending id := by rw [h'.pending, h.pending, haccords.pending]
  files := by rw [h'.files, h.files, haccords.files]
  dirty := by rw [h'.dirty, h.dirty, haccords.dirty]
  admissions := by rw [h'.admissions, h.admissions, haccords.admissions]
  events := by
    rw [h'.events, h.events]
    exact haccords.events.append_right imprint.events
  bare := by rw [h'.bare, h.bare, haccords.bare]

/-- Imprints on two items, of which not both remove a file from one place, can change places. -/
theorem Imprinted.comm (hfirst : Imprinted first s t) (hboth : Imprinted second t u)
    (hsecond : Imprinted second s v) (hboth' : Imprinted first v w)
    (hne : first.item.id ≠ second.item.id)
    (hapart : first.discards = true → second.discards = true →
      s.files.placeOf first.item.destination ≠ s.files.placeOf second.item.destination) :
    Accords u w where
  table := by
    rw [hboth'.table, hsecond.table, hboth.table, hfirst.table, Table.replace_comm hne]
  worker? id := by
    rw [hboth'.worker?, hsecond.worker?, hboth.worker?, hfirst.worker?]
    by_cases heq : id = first.item.id
    · rw [if_pos heq, if_pos heq, if_neg (heq ▸ hne)]
    · rw [if_neg heq, if_neg heq]
  pending id := by
    rw [hboth'.pending, hsecond.pending, hboth.pending, hfirst.pending, or_right_comm]
  files := by
    rw [hboth'.files, hsecond.files, hboth.files, hfirst.files]
    by_cases hdiscards : first.discards = true
    · by_cases hdiscards' : second.discards = true
      · rw [if_pos hdiscards, if_pos hdiscards', if_pos hdiscards, if_pos hdiscards',
          FileSystem.without_comm (hapart hdiscards hdiscards')]
      · rw [if_neg hdiscards', if_neg hdiscards']
    · rw [if_neg hdiscards, if_neg hdiscards]
  dirty := by rw [hboth'.dirty, hsecond.dirty, hboth.dirty, hfirst.dirty, Bool.or_right_comm]
  admissions := by
    rw [hboth'.admissions, hsecond.admissions, hboth.admissions, hfirst.admissions,
      Nat.add_right_comm]
  events := by
    rw [hboth'.events, hsecond.events, hboth.events, hfirst.events, List.append_assoc,
      List.append_assoc]
    exact (List.perm_append_comm).append_left s.events
  bare := by rw [hboth'.bare, hsecond.bare, hboth.bare, hfirst.bare]

theorem measured_congr {files other : FileSystem}
    (h : other.fileLength item.destination = files.fileLength item.destination) :
    item.measured other = item.measured files := by
  rw [Item.measured, Item.measured, h]

/-- What a report comes to depends on its item and worker, the length of the file and the settings. -/
theorem imprintOfReport_congr (hbare : t.bare = s.bare)
    (hlength : t.files.fileLength item.destination = s.files.fileLength item.destination)
    (binding : Binding) (report : Report) :
    t.imprintOfReport item binding report = s.imprintOfReport item binding report := by
  have hconfig := field_eq_of_bare hbare Scheduler.config fun _ => rfl
  have hshare := field_eq_of_bare hbare Scheduler.share fun _ => rfl
  have hclock := field_eq_of_bare hbare Scheduler.clock fun _ => rfl
  have hinterruption : interruption t.files item = interruption s.files item := by
    have hmeasured : (turned .queued item).measured t.files =
        (turned .queued item).measured s.files :=
      measured_congr (by rw [destination_turned, hlength])
    unfold interruption
    rw [hmeasured, hlength]
  have hstop (reason : StopReason) : stop t.files item reason = stop s.files item reason := by
    unfold stop
    rw [measured_congr hlength, hlength]
  cases report with
  | progress progress =>
    cases progress with
    | started offset total =>
      unfold imprintOfReport
      rw [hclock]
    | reached bytes total => rfl
  | ended ending =>
    unfold imprintOfReport imprintOfEnding
    rw [hconfig, hshare, hinterruption]
    simp only [hstop]

/-- What a message comes to does not change by an imprint on another item, unless that removes the
file. -/
theorem Prompts.of_imprinted (h : s.Prompts message outcome) (himprinted : Imprinted imprint s t)
    (hne : message.id ≠ imprint.item.id)
    (hapart : ∀ item, s.table.get? message.id = some item → imprint.discards = true →
      s.files.placeOf imprint.item.destination ≠ s.files.placeOf item.destination) :
    t.Prompts message outcome := by
  obtain ⟨item, binding, hget, hworker, houtcome⟩ := h
  refine ⟨item, binding, (himprinted.get?_of_ne hne).trans hget,
    (himprinted.worker?_of_ne hne).trans hworker, ?_⟩
  rw [← houtcome]
  refine imprintOfReport_congr himprinted.bare ?_ binding message.report
  rw [himprinted.files]
  split
  · next hdiscards =>
    rw [fileLength_eq, fileLength_eq, FileSystem.content?_without (hapart item hget hdiscards)]
  · rfl

/-! ## Admissions -/

def Idle (s : Scheduler) (id : ItemId) : Prop :=
  (∃ item, s.table.get? id = some item) ∧ s.worker? id = none

theorem id_admission (clock : Nat) (item : Item) : (admission clock item).item.id = item.id :=
  id_turned .downloading item

theorem Idle.of_imprinted (h : s.Idle id) (himprinted : Imprinted imprint s t)
    (hne : id ≠ imprint.item.id) : t.Idle id := by
  obtain ⟨⟨item, hget⟩, hfree⟩ := h
  exact ⟨⟨item, (himprinted.get?_of_ne hne).trans hget⟩, (himprinted.worker?_of_ne hne).trans hfree⟩

theorem Idle.ne_of_prompts (h : s.Idle id) (hprompts : s.Prompts message outcome) :
    message.id ≠ id := by
  rintro rfl
  obtain ⟨-, binding, -, hworker, -⟩ := hprompts
  rw [h.2] at hworker
  cases hworker

theorem Idle.startTransfer {other : ItemId} (h : s.Idle id) (hother : s.Idle other)
    (hne : id ≠ other) : (s.startTransfer other).Idle id := by
  obtain ⟨⟨item, hget⟩, hfree⟩ := hother
  refine h.of_imprinted (imprinted_startTransfer hget hfree) ?_
  rwa [id_admission, Table.id_of_get? hget]

theorem Prompts.startTransfer (h : s.Prompts message outcome) (hidle : s.Idle id) :
    (s.startTransfer id).Prompts message outcome := by
  have hne := hidle.ne_of_prompts h
  obtain ⟨⟨item, hget⟩, hfree⟩ := hidle
  refine h.of_imprinted (imprinted_startTransfer hget hfree) ?_ fun _ _ hdiscards => nomatch hdiscards
  rwa [id_admission, Table.id_of_get? hget]

theorem Accords.startTransfer (haccords : Accords s t) (h : s.Idle id) :
    Accords (s.startTransfer id) (t.startTransfer id) := by
  obtain ⟨⟨item, hget⟩, hfree⟩ := h
  have hget' : t.table.get? id = some item := by rw [haccords.table, hget]
  have himprinted := imprinted_startTransfer hget' (by rw [haccords.worker?, hfree])
  rw [field_eq_of_bare haccords.bare Scheduler.clock fun _ => rfl] at himprinted
  exact (imprinted_startTransfer hget hfree).congr himprinted haccords

/-- An admission and whatever leaves its imprint on another item can change places. -/
theorem Imprinted.startTransfer (h : Imprinted imprint s t) (hidle : s.Idle id)
    (hne : id ≠ imprint.item.id) (hlater : Imprinted imprint (s.startTransfer id) u) :
    Accords (t.startTransfer id) u := by
  obtain ⟨⟨item, hget⟩, hfree⟩ := hidle
  have hstarted := imprinted_startTransfer ((h.get?_of_ne hne).trans hget)
    ((h.worker?_of_ne hne).trans hfree)
  rw [field_eq_of_bare h.bare Scheduler.clock fun _ => rfl] at hstarted
  refine h.comm hstarted (imprinted_startTransfer hget hfree) hlater ?_ fun _ hnone => nomatch hnone
  rw [id_admission, Table.id_of_get? hget]
  exact hne.symm

/-- Two items get their workers in either order; only the numbers of the admissions change
places. -/
theorem accords_startTransfer_comm {other : ItemId} (h : s.Idle id) (hother : s.Idle other)
    (hne : id ≠ other) :
    Accords ((s.startTransfer id).startTransfer other)
      ((s.startTransfer other).startTransfer id) := by
  obtain ⟨⟨item, hget⟩, hfree⟩ := h
  obtain ⟨⟨found, hfound⟩, hfreeOther⟩ := hother
  have hstarted := imprinted_startTransfer hget hfree
  have hstartedOther := imprinted_startTransfer hfound hfreeOther
  have hapart : id ≠ (admission s.clock found).item.id := by
    rwa [id_admission, Table.id_of_get? hfound]
  have hlater := imprinted_startTransfer ((hstartedOther.get?_of_ne hapart).trans hget)
    ((hstartedOther.worker?_of_ne hapart).trans hfree)
  rw [field_eq_of_bare hstartedOther.bare Scheduler.clock fun _ => rfl] at hlater
  refine hstarted.startTransfer ⟨⟨found, hfound⟩, hfreeOther⟩ ?_ hlater
  rw [id_admission, Table.id_of_get? hget]
  exact hne.symm

def startAll (s : Scheduler) (ids : List ItemId) : Scheduler :=
  ids.foldl Scheduler.startTransfer s

theorem startAll_append (s : Scheduler) (ids others : List ItemId) :
    s.startAll (ids ++ others) = (s.startAll ids).startAll others :=
  List.foldl_append

structure Idlers (s : Scheduler) (ids : List ItemId) : Prop where
  nodup : ids.Nodup
  idle : ∀ id ∈ ids, s.Idle id

theorem Idlers.head (h : s.Idlers (id :: ids)) : s.Idle id :=
  h.idle id List.mem_cons_self

theorem Idlers.tail (h : s.Idlers (id :: ids)) : (s.startTransfer id).Idlers ids where
  nodup := (List.nodup_cons.mp h.nodup).2
  idle other hmem := by
    refine (h.idle other (List.mem_cons_of_mem id hmem)).startTransfer h.head ?_
    rintro rfl
    exact (List.nodup_cons.mp h.nodup).1 hmem

theorem Idlers.of_perm (h : s.Idlers ids) (hperm : ids.Perm others) : s.Idlers others where
  nodup := hperm.nodup_iff.mp h.nodup
  idle id hmem := h.idle id (hperm.mem_iff.mpr hmem)

/-- What a message leaves of its item does not concern items without workers. -/
theorem Idlers.of_imprinted (h : s.Idlers ids) (hprompts : s.Prompts message outcome)
    (hid : imprint.item.id = message.id) (himprinted : Imprinted imprint s t) : t.Idlers ids where
  nodup := h.nodup
  idle id hmem :=
    (h.idle id hmem).of_imprinted himprinted
      (hid ▸ ((h.idle id hmem).ne_of_prompts hprompts).symm)

theorem Accords.startAll (haccords : Accords s t) (h : s.Idlers ids) :
    Accords (s.startAll ids) (t.startAll ids) := by
  induction ids generalizing s t with
  | nil => exact haccords
  | cons id ids ih => exact ih (haccords.startTransfer h.head) h.tail

/-- The order of admissions does not matter but for their numbers. -/
theorem accords_of_perm (hperm : ids.Perm others) (h : s.Idlers ids) :
    Accords (s.startAll ids) (s.startAll others) := by
  induction hperm generalizing s with
  | nil => exact .refl s
  | cons id _ ih => exact ih h.tail
  | swap first second ids =>
    -- Two neighbours change places, and the others are admitted after them in one order.
    have hne : second ≠ first := by
      rintro rfl
      exact (List.nodup_cons.mp h.nodup).1 List.mem_cons_self
    have hfirst : s.Idle first := h.idle first (by simp)
    exact (accords_startTransfer_comm h.head hfirst hne).startAll h.tail.tail
  | trans hfirst _ ih ih' => exact (ih h).trans (ih' (h.of_perm hfirst))

/-- Admissions do not change what a message comes to. -/
theorem Prompts.startAll (hprompts : s.Prompts message outcome) (h : s.Idlers ids) :
    (s.startAll ids).Prompts message outcome := by
  induction ids generalizing s with
  | nil => exact hprompts
  | cons id ids ih => exact ih (hprompts.startTransfer h.head) h.tail

/-- A message is absorbed after admissions as well as before them. -/
theorem Prompts.absorb_startAll (hprompts : s.Prompts message (.ok imprint))
    (hid : imprint.item.id = message.id) (himprinted : Imprinted imprint s t) (h : s.Idlers ids) :
    ∃ u, (s.startAll ids).absorb message = .done u () ∧ Accords (t.startAll ids) u := by
  induction ids generalizing s t with
  | nil =>
    obtain ⟨u, hdone, hlater⟩ := hprompts.leaves
    exact ⟨u, hdone, himprinted.congr hlater (.refl s)⟩
  | cons id ids ih =>
    have hne : id ≠ imprint.item.id := hid ▸ (h.head.ne_of_prompts hprompts).symm
    have hprompted := hprompts.startTransfer h.head
    obtain ⟨v, -, hlater⟩ := hprompted.leaves
    -- The first admission is moved behind the message, and the others are behind it already.
    obtain ⟨u, hdone, haccords⟩ := ih hprompted hlater h.tail
    have hswapped := himprinted.startTransfer h.head hne hlater
    have hkept : t.Idlers (id :: ids) := h.of_imprinted hprompts hid himprinted
    exact ⟨u, hdone, (hswapped.startAll hkept.tail).trans haccords⟩

/-! ## Who is admitted -/

def slots (s : Scheduler) : Nat :=
  if !s.autoDownload || s.shuttingDown then 0 else s.maxConcurrent.toNat - s.active.length

def admitted (s : Scheduler) : List ItemId :=
  s.candidates.take s.slots

theorem Ready.idle (h : s.Ready id) : s.Idle id := by
  obtain ⟨⟨standing, hstanding, -⟩, hfree⟩ := h
  obtain ⟨item, hget, -⟩ := get?_of_standing? hstanding
  rw [duty?, Option.map_eq_none_iff] at hfree
  exact ⟨⟨item, hget⟩, by rw [worker?, hfree]; rfl⟩

theorem length_active_startTransfer (h : s.Idle id) :
    (s.startTransfer id).active.length = s.active.length + 1 := by
  obtain ⟨⟨item, hget⟩, -⟩ := h
  rw [← length_duties, duties_startTransfer hget, List.length_append, length_duties]
  rfl

theorem length_active_startAll (h : s.Idlers ids) :
    (s.startAll ids).active.length = s.active.length + ids.length := by
  induction ids generalizing s with
  | nil => rfl
  | cons id ids ih =>
    have hrest : (s.startAll (id :: ids)).active.length =
        (s.startTransfer id).active.length + ids.length := ih h.tail
    rw [hrest, length_active_startTransfer h.head, List.length_cons]
    omega

/-- To fill the slots is to admit as many of the idle items as there are slots, from the front. -/
theorem fillSlots_eq_startAll (h : s.Idlers ids) :
    s.fillSlots ids = s.startAll (ids.take (s.maxConcurrent.toNat - s.active.length)) := by
  induction ids generalizing s with
  | nil =>
    rw [List.take_nil]
    rfl
  | cons id ids ih =>
    rw [fillSlots]
    split
    · next hfull =>
      rw [Nat.sub_eq_zero_of_le hfull, List.take_zero]
      rfl
    · next hroom =>
      have hslots : s.maxConcurrent.toNat - s.active.length =
          s.maxConcurrent.toNat - (s.active.length + 1) + 1 := by omega
      rw [ih h.tail, hslots, List.take_succ_cons, maxConcurrent_startTransfer,
        length_active_startTransfer h.head]
      rfl

theorem idlers_candidates (h : (s.table.items.map Item.id).Nodup) : s.Idlers s.candidates :=
  ⟨nodup_candidates h, fun _ hmem => (ready_of_mem_candidates h hmem).idle⟩

theorem idlers_admitted (h : (s.table.items.map Item.id).Nodup) : s.Idlers s.admitted where
  nodup := (nodup_candidates h).sublist (List.take_sublist _ _)
  idle id hmem := (idlers_candidates h).idle id (List.mem_of_mem_take hmem)

theorem tick_eq_startAll (h : (s.table.items.map Item.id).Nodup) :
    s.tick = s.startAll s.admitted := by
  unfold tick admitted slots
  split
  · rw [List.take_zero]
    rfl
  · exact fillSlots_eq_startAll (idlers_candidates h)

def waiting (s : Scheduler) (id : ItemId) : Bool :=
  (s.table.get? id).any (fun item => item.status = .queued) && (s.worker? id).isNone

theorem isBound_eq_isSome (s : Scheduler) (id : ItemId) :
    s.isBound id = (s.worker? id).isSome := by
  rw [worker?, Option.isSome_map, binding?, isBound, Bool.eq_iff_iff, List.any_eq_true,
    List.find?_isSome]

theorem candidates_eq_filter (h : s.table.Sound) :
    s.candidates = (s.table.items.map Item.id).filter s.waiting := by
  rw [candidates, List.filter_map]
  congr 1
  refine List.filter_congr fun item hmem => ?_
  rw [Function.comp_apply, waiting, h.get?_of_mem hmem, isBound_eq_isSome, Option.not_isSome]
  rfl

theorem ids_active_eq (s : Scheduler) : s.active.map Binding.id = s.duties.map Duty.id := by
  rw [duties, List.map_map]
  rfl

theorem mem_ids_active_iff : id ∈ s.active.map Binding.id ↔ (s.worker? id).isSome = true := by
  rw [← isBound_eq_isSome, isBound, List.any_eq_true, List.mem_map]
  simp only [decide_eq_true_eq]

theorem length_active_congr (h : s.Coherent) (h' : t.Coherent)
    (hbound : ∀ id, (t.worker? id).isSome = (s.worker? id).isSome) :
    t.active.length = s.active.length := by
  have hperm : (t.active.map Binding.id).Perm (s.active.map Binding.id) := by
    rw [List.perm_ext_iff_of_nodup (by rw [ids_active_eq]; exact h'.nodup)
      (by rw [ids_active_eq]; exact h.nodup)]
    intro id
    rw [mem_ids_active_iff, mem_ids_active_iff, hbound]
  simpa using hperm.length_eq

theorem waiting_eq_false (h : s.worker? id ≠ none) : s.waiting id = false := by
  rw [waiting, Option.isNone_eq_false_iff.mpr (Option.isSome_iff_ne_none.mpr h), Bool.and_false]

theorem Imprinted.waiting_of_ne (h : Imprinted imprint s t) (hne : id ≠ imprint.item.id) :
    t.waiting id = s.waiting id := by
  rw [waiting, h.get?_of_ne hne, h.worker?_of_ne hne, waiting]

theorem slots_eq_of_bare (hbare : t.bare = s.bare) :
    t.slots = if !s.autoDownload || s.shuttingDown then 0
      else s.maxConcurrent.toNat - t.active.length := by
  have hauto := field_eq_of_bare hbare Scheduler.autoDownload fun _ => rfl
  have hopen := field_eq_of_bare hbare Scheduler.shuttingDown fun _ => rfl
  have hlimit := field_eq_of_bare hbare Scheduler.maxConcurrent fun _ => rfl
  rw [slots, hauto, hopen, hlimit]

theorem admitted_congr (h : s.Coherent) (h' : t.Coherent) (hbare : t.bare = s.bare)
    (hids : t.table.items.map Item.id = s.table.items.map Item.id)
    (hwaiting : ∀ id, t.waiting id = s.waiting id)
    (hbound : ∀ id, (t.worker? id).isSome = (s.worker? id).isSome) : t.admitted = s.admitted := by
  rw [admitted, admitted, candidates_eq_filter h.sound, candidates_eq_filter h'.sound, hids,
    funext hwaiting, slots_eq_of_bare hbare, slots, length_active_congr h h' hbound]

/-- As long as an item keeps its worker, the next admissions stay the same. -/
theorem Imprinted.admitted_of_stays (himprinted : Imprinted imprint s t) (h : s.Coherent)
    (h' : t.Coherent) (hbound : s.worker? imprint.item.id ≠ none)
    (hstays : imprint.worker ≠ none) : t.admitted = s.admitted := by
  have hids : t.table.items.map Item.id = s.table.items.map Item.id := by
    rw [himprinted.table, Table.ids_replace]
  have hbound' : t.worker? imprint.item.id ≠ none := himprinted.worker?_self rfl ▸ hstays
  refine admitted_congr h h' himprinted.bare hids (fun id => ?_) fun id => ?_
  · by_cases heq : id = imprint.item.id
    · rw [heq, waiting_eq_false hbound, waiting_eq_false hbound']
    · exact himprinted.waiting_of_ne heq
  · by_cases heq : id = imprint.item.id
    · rw [heq, Option.isSome_iff_ne_none.mpr hbound, Option.isSome_iff_ne_none.mpr hbound']
    · rw [himprinted.worker?_of_ne heq]

theorem Accords.tick (haccords : Accords s t) (h : s.Coherent) (h' : t.Coherent) :
    Accords s.tick t.tick := by
  have hsame : t.admitted = s.admitted := by
    refine admitted_congr h h' haccords.bare (by rw [haccords.table]) (fun id => ?_) fun id => ?_
    · rw [waiting, haccords.table, haccords.worker?, waiting]
    · rw [haccords.worker?]
  rw [tick_eq_startAll h.sound.nodup, tick_eq_startAll h'.sound.nodup, hsame]
  exact haccords.startAll (idlers_admitted h.sound.nodup)

theorem Idle.duty?_eq_none (h : s.Idle id) : s.duty? id = none := by
  have hnone : s.binding? id = none := Option.map_eq_none_iff.mp h.2
  rw [duty?, hnone]
  rfl

/-- What admissions leave alone. -/
theorem startAll_frame (hidlers : s.Idlers ids) (h : s.Coherent) :
    (s.startAll ids).Coherent ∧ (s.startAll ids).bare = s.bare ∧
      (s.startAll ids).table.items.map Item.id = s.table.items.map Item.id ∧
      ∀ other, (s.startAll ids).waiting other =
        (s.waiting other && decide (other ∉ ids)) := by
  induction ids generalizing s with
  | nil => exact ⟨h, rfl, rfl, fun other => by simp [startAll]⟩
  | cons id ids ih =>
    have hfree := hidlers.head.duty?_eq_none
    obtain ⟨⟨item, hget⟩, hnone⟩ := hidlers.head
    have hstarted := imprinted_startTransfer hget hnone
    have hid : (admission s.clock item).item.id = id := by rw [id_admission, Table.id_of_get? hget]
    obtain ⟨hcoherent, hbare, hids, hwaiting⟩ := ih hidlers.tail (h.startTransfer hget hfree)
    refine ⟨hcoherent, hbare.trans hstarted.bare, hids.trans (ids_startTransfer s id),
      fun other => (hwaiting other).trans ?_⟩
    by_cases heq : other = id
    · subst heq
      rw [waiting, hstarted.worker?_self hid]
      simp [admission]
    · have hne : other ≠ (admission s.clock item).item.id := hid ▸ heq
      rw [waiting, hstarted.get?_of_ne hne, hstarted.worker?_of_ne hne, ← waiting]
      simp [heq]

theorem slots_startAll (hidlers : s.Idlers ids) (h : s.Coherent) :
    (s.startAll ids).slots = s.slots - ids.length := by
  obtain ⟨-, hbare, -⟩ := startAll_frame hidlers h
  rw [slots_eq_of_bare hbare, slots, length_active_startAll hidlers]
  split <;> omega

/-- An ending frees the slot of its worker. -/
theorem length_active_of_gone (h : s.Coherent) (h' : t.Coherent)
    (himprinted : Imprinted imprint s t) (hbound : s.worker? imprint.item.id ≠ none)
    (hgone : imprint.worker = none) : s.active.length = t.active.length + 1 := by
  have hnodup : (s.active.map Binding.id).Nodup := by rw [ids_active_eq]; exact h.nodup
  have hmem : imprint.item.id ∈ s.active.map Binding.id :=
    mem_ids_active_iff.mpr (Option.isSome_iff_ne_none.mpr hbound)
  have hperm : (t.active.map Binding.id).Perm
      ((s.active.map Binding.id).erase imprint.item.id) := by
    rw [List.perm_ext_iff_of_nodup (by rw [ids_active_eq]; exact h'.nodup) (hnodup.erase _)]
    intro id
    rw [mem_ids_active_iff, hnodup.mem_erase_iff, mem_ids_active_iff, himprinted.worker?, hgone]
    split
    · next heq => simp [heq]
    · next hne => simp [hne]
  have hlength := hperm.length_eq
  rw [List.length_erase_of_mem hmem, List.length_map, List.length_map] at hlength
  have hpos := List.length_pos_of_mem hmem
  rw [List.length_map] at hpos
  omega

/-- Where there are slots, a worker that is gone leaves one more. -/
theorem slots_of_gone (h : s.Coherent) (h' : t.Coherent) (himprinted : Imprinted imprint s t)
    (hbound : s.worker? imprint.item.id ≠ none) (hgone : imprint.worker = none)
    (hslots : s.slots ≠ 0) : t.slots = s.slots + 1 := by
  have hlength := length_active_of_gone h h' himprinted hbound hgone
  rw [slots_eq_of_bare himprinted.bare]
  unfold slots at hslots ⊢
  split
  · next hclosed => exact absurd (if_pos hclosed) hslots
  · next hopen =>
    rw [if_neg hopen] at hslots
    omega

/-- Those who are admitted before an ending, with those who are admitted after it, are the ones who
would be admitted after it alone. -/
theorem admitted_perm (h : s.Coherent) (h' : t.Coherent) (himprinted : Imprinted imprint s t)
    (hbound : s.worker? imprint.item.id ≠ none) (hgone : imprint.worker = none)
    (hidlers : t.Idlers s.admitted) :
    (s.admitted ++ (t.startAll s.admitted).admitted).Perm t.admitted := by
  by_cases hslots : s.slots = 0
  · have hnone : s.admitted = [] := by rw [admitted, hslots, List.take_zero]
    rw [hnone]
    exact .refl _
  · obtain ⟨hcoherent, -, hids, hwaiting⟩ := startAll_frame hidlers h'
    have hsameIds : t.table.items.map Item.id = s.table.items.map Item.id := by
      rw [himprinted.table, Table.ids_replace]
    have hmore : t.slots = s.slots + 1 := slots_of_gone h h' himprinted hbound hgone hslots
    have hadmitted : s.admitted =
        ((s.table.items.map Item.id).filter s.waiting).take s.slots := by
      rw [admitted, candidates_eq_filter h.sound]
    have hchosen := take_filter_perm (waiting_eq_false hbound)
      (fun _ hne => himprinted.waiting_of_ne hne) (s.table.items.map Item.id) h.sound.nodup s.slots
    rw [← hadmitted] at hchosen
    rw [admitted.eq_1 (t.startAll s.admitted), slots_startAll hidlers h', hmore,
      candidates_eq_filter hcoherent.sound, hids, funext hwaiting, admitted.eq_1 t, hmore,
      candidates_eq_filter h'.sound, hsameIds]
    exact hchosen

/-! ## Two messages -/

/-- What a message comes to concerns its item, and its worker is gone after an ending only. -/
theorem Prompts.concerns (h : s.Prompts message (.ok imprint)) :
    ∃ item, s.table.get? message.id = some item ∧ imprint.item.id = message.id ∧
      imprint.item.destination = item.destination ∧
      (imprint.worker = none ↔ message.isEnding = true) := by
  obtain ⟨item, binding, hget, -, houtcome⟩ := h
  refine ⟨item, hget, ?_⟩
  rw [← Table.id_of_get? hget, Message.isEnding]
  cases hreport : message.report with
  | progress progress =>
    rw [hreport] at houtcome
    cases progress with
    | started offset total =>
      cases houtcome
      simp
    | reached bytes total =>
      cases houtcome
      split <;> simp
  | ended ending =>
    rw [hreport] at houtcome
    have hfinal := final_of_ending houtcome
    exact ⟨hfinal.id, hfinal.destination, by simp [hfinal.worker]⟩

theorem Prompts.worker?_ne_none (h : s.Prompts message outcome) : s.worker? message.id ≠ none := by
  obtain ⟨-, binding, -, hworker, -⟩ := h
  simp [hworker]

/-- Between a message and the admissions that follow it nothing is out of order. -/
theorem Coherent.absorb (h : s.Coherent) (hprompts : s.Prompts message outcome)
    (hdone : s.absorb message = .done t ()) : t.Coherent := by
  obtain ⟨-, binding, -, hworker, -⟩ := hprompts
  unfold Scheduler.absorb at hdone
  cases hreport : message.report with
  | progress progress =>
    rw [hreport] at hdone
    obtain ⟨rfl, -⟩ := Step.eq_done_iff.mp hdone
    exact h.of_alike (alike_handleProgress s message.id progress)
  | ended ending =>
    obtain ⟨found, hfound, rfl⟩ := Option.map_eq_some_iff.mp hworker
    have hduty : s.duty? message.id = some found.duty := by rw [duty?, hfound]; rfl
    have hchain : Chain (fun _ _ => True) s _ := chain_settle hduty ending trivial
    rw [hreport, hworker] at hdone
    obtain ⟨rfl, -⟩ := Step.eq_done_iff.mp hdone
    exact hchain.coherent h

theorem Prompts.imprinted (h : s.Prompts message (.ok imprint))
    (hdone : s.absorb message = .done t ()) : Imprinted imprint s t := by
  obtain ⟨u, hleft, himprinted⟩ := h.leaves
  rw [hdone] at hleft
  obtain ⟨rfl, -⟩ := Step.eq_done_iff.mp hleft
  exact himprinted

/-- A message that is handled after an admission leaves what it leaves before one. -/
theorem Prompts.handleMessage_tick (hprompts : s.Prompts message (.ok imprint)) (h : s.Coherent)
    (hdone : s.absorb message = .done t ()) :
    ∃ u, s.tick.handleMessage message = .done u () ∧ Accords t.tick u := by
  obtain ⟨-, -, hid, -, hworker⟩ := hprompts.concerns
  have himprinted := hprompts.imprinted hdone
  have ht := h.absorb hprompts hdone
  have hidlers : s.Idlers s.admitted := idlers_admitted h.sound.nodup
  have hkept : t.Idlers s.admitted := hidlers.of_imprinted hprompts hid himprinted
  obtain ⟨u, hlater, haccords⟩ := hprompts.absorb_startAll hid himprinted hidlers
  have hticked := hprompts.startAll hidlers
  rw [← tick_eq_startAll h.sound.nodup] at hlater hticked
  have hbound := hprompts.worker?_ne_none
  obtain ⟨binding, hbinding⟩ := Option.ne_none_iff_exists'.mp hticked.worker?_ne_none
  rw [handleMessage_eq hbinding, hlater]
  refine ⟨_, rfl, ?_⟩
  split
  · next hending =>
    -- The ending admits workers of its own, for the slot that it leaves.
    have hchain : Chain (fun _ _ => True) s s.tick := chain_tick h
    have hu := (hchain.coherent h).absorb hticked hlater
    have hperm := admitted_perm h ht himprinted (hid ▸ hbound) (hworker.mpr hending) hkept
    have hfilled : (t.startAll s.admitted).Coherent := (startAll_frame hkept ht).1
    refine Accords.trans ?_ (haccords.tick hfilled hu)
    rw [tick_eq_startAll ht.sound.nodup, tick_eq_startAll hfilled.sound.nodup, ← startAll_append]
    exact accords_of_perm hperm.symm (idlers_admitted ht.sound.nodup)
  · next hprogress =>
    -- No slot is left, and the same workers are admitted after the message as before it.
    have hstays : imprint.worker ≠ none := fun hgone => hprogress (hworker.mp hgone)
    rw [tick_eq_startAll ht.sound.nodup, himprinted.admitted_of_stays h ht (hid ▸ hbound) hstays]
    exact haccords

def handleBoth (s : Scheduler) (first second : Message) : Step Unit :=
  (s.handleMessage first).andThen fun s () => s.handleMessage second

theorem Prompts.handleMessage_eq (h : s.Prompts message outcome) :
    s.handleMessage message = (s.absorb message).andThen fun s () =>
      .done (if message.isEnding then s.tick else s) () := by
  obtain ⟨-, binding, -, hworker, -⟩ := h
  exact Scheduler.handleMessage_eq hworker

/-- Of all the admissions that two messages bring about, the last one is enough. -/
theorem handleBoth_accords (h : s.Coherent) {former latter : Message}
    (hformer : s.Prompts former (.ok first)) (hdone : s.absorb former = .done t ())
    (hlatter : t.Prompts latter (.ok second)) (hdone' : t.absorb latter = .done u ()) :
    ∃ v, s.handleBoth former latter = .done v () ∧
      Accords (if former.isEnding || latter.isEnding then u.tick else u) v := by
  have ht := h.absorb hformer hdone
  rw [handleBoth, hformer.handleMessage_eq, hdone]
  change ∃ v, (if former.isEnding then t.tick else t).handleMessage latter = .done v () ∧ _
  cases former.isEnding with
  | true => exact hlatter.handleMessage_tick ht hdone'
  | false =>
    rw [if_neg Bool.false_ne_true, hlatter.handleMessage_eq, hdone', Bool.false_or]
    exact ⟨_, rfl, .refl _⟩

theorem Prompts.handleMessage_error {overflow : Overflow} (h : s.Prompts message (.error overflow)) :
    (s.handleMessage message).result = .error overflow := by
  have hfailed : (s.absorb message).result = .error overflow := h.leaves
  rw [h.handleMessage_eq, Step.andThen, hfailed]
  rfl

theorem Coherent.exists_prompts (h : s.Coherent) (hbound : s.isBound message.id = true) :
    ∃ outcome, s.Prompts message outcome := by
  obtain ⟨duty, hduty⟩ := isBound_iff.mp hbound
  obtain ⟨standing, hstanding, -⟩ := h.fits _ _ hduty
  obtain ⟨item, hget, -⟩ := get?_of_standing? hstanding
  rw [isBound_eq_isSome, Option.isSome_iff_exists] at hbound
  obtain ⟨binding, hbinding⟩ := hbound
  exact ⟨_, item, binding, hget, hbinding, rfl⟩

/-- Two messages about different items whose destinations lead to different places. -/
structure Disjoint (s : Scheduler) (former latter : Message) : Prop where
  ne : former.id ≠ latter.id
  apart : ∀ a b, s.table.get? former.id = some a → s.table.get? latter.id = some b →
    s.files.placeOf a.destination ≠ s.files.placeOf b.destination

variable {former latter : Message} {outcome' : Except Overflow Imprint}

theorem Disjoint.symm (h : s.Disjoint former latter) : s.Disjoint latter former :=
  ⟨h.ne.symm, fun a b ha hb => (h.apart b a hb ha).symm⟩

/-- The one message does not change what the other one comes to. -/
theorem Disjoint.prompts (h : s.Disjoint former latter) (hformer : s.Prompts former (.ok imprint))
    (himprinted : Imprinted imprint s t) (hlatter : s.Prompts latter outcome) :
    t.Prompts latter outcome := by
  obtain ⟨a, ha, hid, hdestination, -⟩ := hformer.concerns
  refine hlatter.of_imprinted himprinted (hid ▸ h.ne.symm) fun b hb _ => ?_
  rw [hdestination]
  exact h.apart a b ha hb

/-- If one of two messages overflows, they break down in either order. -/
theorem Disjoint.isOk_eq_false (h : s.Disjoint former latter) (hcoherent : s.Coherent)
    (hformer : s.Prompts former outcome) (hlatter : s.Prompts latter outcome')
    (herror : outcome.isOk = false ∨ outcome'.isOk = false) :
    (s.handleBoth former latter).result.isOk = false := by
  cases outcome with
  | error overflow =>
    rw [handleBoth, Step.andThen, hformer.handleMessage_error]
    rfl
  | ok imprint =>
    cases outcome' with
    | ok _ => rcases herror with herror | herror <;> cases herror
    | error overflow =>
      obtain ⟨t, hdone, himprinted⟩ := hformer.leaves
      have hlater := h.prompts hformer himprinted hlatter
      have ht := hcoherent.absorb hformer hdone
      have hticked : t.tick.Prompts latter (.error overflow) := by
        rw [tick_eq_startAll ht.sound.nodup]
        exact hlater.startAll (idlers_admitted ht.sound.nodup)
      rw [handleBoth, hformer.handleMessage_eq, hdone]
      change (Scheduler.handleMessage (if former.isEnding then t.tick else t)
        latter).result.isOk = false
      split
      · rw [hticked.handleMessage_error]
        rfl
      · rw [hlater.handleMessage_error]
        rfl

/-- Two messages of different workers leave the same in either order, or break down in either
order. -/
theorem Disjoint.handleBoth_comm (h : s.Disjoint former latter) (hcoherent : s.Coherent)
    (hformer : s.isBound former.id = true) (hlatter : s.isBound latter.id = true) :
    (∃ t u, s.handleBoth former latter = .done t () ∧ s.handleBoth latter former = .done u () ∧
      Accords t u) ∨
    ((s.handleBoth former latter).result.isOk = false ∧
      (s.handleBoth latter former).result.isOk = false) := by
  obtain ⟨outcome, hfirst⟩ := hcoherent.exists_prompts hformer
  obtain ⟨outcome', hsecond⟩ := hcoherent.exists_prompts hlatter
  -- whether a message overflows hangs on its own item only
  by_cases herror : outcome.isOk = false ∨ outcome'.isOk = false
  · exact .inr ⟨h.isOk_eq_false hcoherent hfirst hsecond herror,
      h.symm.isOk_eq_false hcoherent hsecond hfirst herror.symm⟩
  cases outcome with
  | error overflow => exact absurd (.inl rfl) herror
  | ok first =>
    cases outcome' with
    | error overflow => exact absurd (.inr rfl) herror
    | ok second =>
      obtain ⟨a, ha, hid, hdestination, -⟩ := hfirst.concerns
      obtain ⟨b, hb, hid', hdestination', -⟩ := hsecond.concerns
      obtain ⟨t, ht, hst⟩ := hfirst.leaves
      have hsecondLater := h.prompts hfirst hst hsecond
      obtain ⟨u, hu, htu⟩ := hsecondLater.leaves
      obtain ⟨v, hv, hsv⟩ := hsecond.leaves
      have hfirstLater := h.symm.prompts hsecond hsv hfirst
      obtain ⟨w, hw, hvw⟩ := hfirstLater.leaves
      -- both orders leave the same two imprints, and workers are admitted after both
      have haccords : Accords u w := by
        refine hst.comm htu hsv hvw (hid ▸ hid' ▸ h.ne) fun _ _ => ?_
        rw [hdestination, hdestination']
        exact h.apart a b ha hb
      have hticks := haccords.tick ((hcoherent.absorb hfirst ht).absorb hsecondLater hu)
        ((hcoherent.absorb hsecond hv).absorb hfirstLater hw)
      obtain ⟨x, hx, hux⟩ := handleBoth_accords hcoherent hfirst ht hsecondLater hu
      obtain ⟨y, hy, hwy⟩ := handleBoth_accords hcoherent hsecond hv hfirstLater hw
      refine .inl ⟨x, y, hx, hy, hux.symm.trans (Accords.trans ?_ hwy)⟩
      rw [Bool.or_comm latter.isEnding]
      split
      · exact hticks
      · exact haccords

/-- Whatever state a queue has reached between two rounds, messages of two workers whose items have
destinations that lead to different places leave the same in either order, but for the order of the
events and the numbers of admissions. -/
theorem exchange_of_run {config : Config} {around : Surroundings} {c : Controller}
    (hstart : Controller.start config around = .started c)
    (hrun : Run (fun _ _ => True) c.scheduler s) {a b : Item} (ha : a ∈ s.table.items)
    (hb : b ∈ s.table.items) (hbound : s.isBound a.id = true) (hbound' : s.isBound b.id = true)
    (hne : a.id ≠ b.id)
    (hplace : s.files.placeOf a.destination ≠ s.files.placeOf b.destination)
    (report report' : Report) :
    (∃ t u, s.handleBoth ⟨a.id, report⟩ ⟨b.id, report'⟩ = .done t () ∧
      s.handleBoth ⟨b.id, report'⟩ ⟨a.id, report⟩ = .done u () ∧ Accords t u) ∨
    ((s.handleBoth ⟨a.id, report⟩ ⟨b.id, report'⟩).result.isOk = false ∧
      (s.handleBoth ⟨b.id, report'⟩ ⟨a.id, report⟩).result.isOk = false) := by
  have hcoherent := (Run.orderly hrun (Controller.orderly_of_start hstart)).coherent
  have hdisjoint : s.Disjoint ⟨a.id, report⟩ ⟨b.id, report'⟩ := by
    refine ⟨hne, fun found other hfound hother => ?_⟩
    rw [hcoherent.sound.get?_of_mem ha] at hfound
    rw [hcoherent.sound.get?_of_mem hb] at hother
    cases hfound
    cases hother
    exact hplace
  exact hdisjoint.handleBoth_comm hcoherent hbound hbound'

def twins (destination : Path) : List Item :=
  [Item.new ⟨3⟩ "http://h/a" ⟨"/a"⟩ .epoch, Item.new ⟨4⟩ "http://h/b" destination .epoch]

def twinFiles (destination : Path) : FileSystem :=
  ⟨[], [(["q"], .file (QueueFile.render (twins destination))), (["a"], .file [1, 2, 3])]⟩

theorem load_twinFiles (destination : Path) :
    QueueFile.load (twinFiles destination) ⟨"/q"⟩ = .ok (twins destination) := by
  have hnodup : ((twins destination).map Item.id).Nodup :=
    (by decide : [(⟨3⟩ : ItemId), ⟨4⟩].Nodup)
  exact QueueFile.load_of_read hnodup rfl

def twinLaunch (destination : Path) : Step Unit :=
  (Scheduler.ofTable roomyConfig ⟨twins destination, 5⟩ (twinFiles destination) .epoch 0).launch

def twinCancel (destination : Path) : Step (Except QueueError Reply) :=
  (twinLaunch destination).scheduler.request (.dispatch (.cancel ⟨3⟩))

def twinPause (destination : Path) : Step (Except QueueError Reply) :=
  (twinCancel destination).scheduler.request (.dispatch (.pause ⟨4⟩))

def twinsReady (destination : Path) : Bool :=
  (twinLaunch destination).result.isOk && (twinCancel destination).result.isOk &&
    (twinPause destination).result.isOk &&
    !(twinLaunch destination).scheduler.shuttingDown &&
    !(twinCancel destination).scheduler.shuttingDown &&
    (twinPause destination).scheduler.table.items.all (fun item =>
      (twinPause destination).scheduler.isBound item.id) &&
    (twinPause destination).scheduler.table.items.map Item.destination = [⟨"/a"⟩, destination] &&
    (twinPause destination).scheduler.table.items.map Item.id = [⟨3⟩, ⟨4⟩]

/-- How the two come to their workers, wherever the destination of the second one leads. -/
theorem twins_run (destination : Path) (h : twinsReady destination = true) :
    (∃ c, Controller.start roomyConfig ⟨twinFiles destination, 0, .epoch, "", 0⟩ = .started c ∧
        Run (fun _ _ => True) c.scheduler (twinPause destination).scheduler) ∧
      ∃ a b, (twinPause destination).scheduler.table.items = [a, b] ∧ a.id = ⟨3⟩ ∧ b.id = ⟨4⟩ ∧
        a.destination = ⟨"/a"⟩ ∧ b.destination = destination ∧
        (twinPause destination).scheduler.isBound a.id = true ∧
        (twinPause destination).scheduler.isBound b.id = true := by
  simp only [twinsReady, Bool.and_eq_true, Bool.not_eq_true', decide_eq_true_eq] at h
  obtain ⟨⟨⟨⟨⟨⟨⟨hlaunch, hcancel⟩, hpause⟩, hopen⟩, hopen'⟩, hbound⟩, hdestinations⟩, hids⟩ := h
  have hload := load_twinFiles destination
  obtain ⟨answer, hanswer⟩ := Step.exists_eq_done_of_isOk hcancel
  obtain ⟨answer', hanswer'⟩ := Step.exists_eq_done_of_isOk hpause
  have hcancelPlain : Request.Plain (.dispatch (.cancel ⟨3⟩)) := trivial
  have hpausePlain : Request.Plain (.dispatch (.pause ⟨4⟩)) := trivial
  have hcancelled : Turn (twinLaunch destination).scheduler
      (twinCancel destination).scheduler := .request hopen hcancelPlain hanswer
  have hpaused : Turn (twinCancel destination).scheduler
      (twinPause destination).scheduler := .request hopen' hpausePlain hanswer'
  refine ⟨⟨_, Controller.start_eq_started (by decide +kernel) hload rfl
    (Step.eq_done_of_isOk hlaunch),
    (Relation.ReflTransGen.single (.inl hcancelled)).tail (.inl hpaused)⟩, ?_⟩
  obtain ⟨a, rest, hitems, ha, hrest⟩ := List.map_eq_cons_iff.mp hids
  obtain ⟨b, others, rfl, hb, hothers⟩ := List.map_eq_cons_iff.mp hrest
  obtain rfl := List.map_eq_nil_iff.mp hothers
  rw [hitems] at hbound hdestinations
  simp only [List.all_cons, List.all_nil, Bool.and_true, Bool.and_eq_true] at hbound
  simp only [List.map_cons, List.map_nil, List.cons.injEq, and_true] at hdestinations
  exact ⟨a, b, hitems, ha, hb, hdestinations.1, hdestinations.2, hbound.1, hbound.2⟩

/-- The endings of two workers that were told to stop: one throws its file away, one keeps it. -/
theorem exchange_of_run_twins :
    ∃ (c : Controller) (s : Scheduler) (a b : Item),
      Controller.start roomyConfig ⟨twinFiles ⟨"/b"⟩, 0, .epoch, "", 0⟩ = .started c ∧
      Run (fun _ _ => True) c.scheduler s ∧ a ∈ s.table.items ∧ b ∈ s.table.items ∧
      s.isBound a.id = true ∧ s.isBound b.id = true ∧ a.id ≠ b.id ∧
      s.files.placeOf a.destination ≠ s.files.placeOf b.destination ∧
      ((∃ t u, s.handleBoth ⟨a.id, .ended .cancelled⟩ ⟨b.id, .ended .cancelled⟩ = .done t () ∧
          s.handleBoth ⟨b.id, .ended .cancelled⟩ ⟨a.id, .ended .cancelled⟩ = .done u () ∧
          Accords t u) ∨
        ((s.handleBoth ⟨a.id, .ended .cancelled⟩ ⟨b.id, .ended .cancelled⟩).result.isOk = false ∧
          (s.handleBoth ⟨b.id, .ended .cancelled⟩ ⟨a.id, .ended .cancelled⟩).result.isOk =
            false)) := by
  obtain ⟨⟨c, hstart, hrun⟩, a, b, hitems, ha, hb, hplace, hplace', hbound, hbound'⟩ :=
    twins_run ⟨"/b"⟩ (by decide +kernel)
  have hmem : a ∈ (twinPause ⟨"/b"⟩).scheduler.table.items := by simp [hitems]
  have hmem' : b ∈ (twinPause ⟨"/b"⟩).scheduler.table.items := by simp [hitems]
  have hne : a.id ≠ b.id := by simp [ha, hb]
  have hapart : (twinPause ⟨"/b"⟩).scheduler.files.placeOf a.destination ≠
      (twinPause ⟨"/b"⟩).scheduler.files.placeOf b.destination := by
    rw [hplace, hplace']
    decide +kernel
  exact ⟨c, _, a, b, hstart, hrun, hmem, hmem', hbound, hbound', hne, hapart,
    exchange_of_run hstart hrun hmem hmem' hbound hbound' hne hapart _ _⟩

/-- That the destinations differ is not enough: if both lead to one file, the item that was paused
has as much of it as there is when its worker ends, and that is nothing once the other one's is thrown
away. -/
theorem not_always_exchanged :
    ∃ (c : Controller) (s : Scheduler) (a b : Item) (report report' : Report) (t u : Scheduler),
      Controller.start roomyConfig ⟨twinFiles ⟨"/../a"⟩, 0, .epoch, "", 0⟩ = .started c ∧
      Run (fun _ _ => True) c.scheduler s ∧ a ∈ s.table.items ∧ b ∈ s.table.items ∧
      s.isBound a.id = true ∧ s.isBound b.id = true ∧ a.id ≠ b.id ∧
      a.destination.same b.destination = false ∧
      s.handleBoth ⟨a.id, report⟩ ⟨b.id, report'⟩ = .done t () ∧
      s.handleBoth ⟨b.id, report'⟩ ⟨a.id, report⟩ = .done u () ∧
      t.table.items.map Item.bytesDownloaded = [0, 0] ∧
      u.table.items.map Item.bytesDownloaded = [0, 3] := by
  obtain ⟨⟨c, hstart, hrun⟩, a, b, hitems, ha, hb, hplace, hplace', hbound, hbound'⟩ :=
    twins_run ⟨"/../a"⟩ (by decide +kernel)
  have hfirst : ((twinPause ⟨"/../a"⟩).scheduler.handleBoth ⟨a.id, .ended .cancelled⟩
      ⟨b.id, .ended .cancelled⟩).result.isOk = true := by
    rw [ha, hb]
    decide +kernel
  have hlast : ((twinPause ⟨"/../a"⟩).scheduler.handleBoth ⟨b.id, .ended .cancelled⟩
      ⟨a.id, .ended .cancelled⟩).result.isOk = true := by
    rw [ha, hb]
    decide +kernel
  have hmem : a ∈ (twinPause ⟨"/../a"⟩).scheduler.table.items := by simp [hitems]
  have hmem' : b ∈ (twinPause ⟨"/../a"⟩).scheduler.table.items := by simp [hitems]
  have hne : a.id ≠ b.id := by simp [ha, hb]
  refine ⟨c, _, a, b, .ended .cancelled, .ended .cancelled, _, _, hstart, hrun, hmem, hmem', hbound,
    hbound', hne, ?_, Step.eq_done_of_isOk hfirst, Step.eq_done_of_isOk hlast, ?_, ?_⟩
  · rw [hplace, hplace']
    decide +kernel
  · rw [ha, hb]
    decide +kernel
  · rw [ha, hb]
    decide +kernel

end Scheduler

end DownloadQueue
