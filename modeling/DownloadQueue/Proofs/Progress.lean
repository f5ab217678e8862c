import DownloadQueue.Proofs.Postings
import DownloadQueue.Proofs.Stops

/-!
# Progress belongs to the worker

How far an item has come is written when its worker reports, and when its file is looked at while it
has no worker. So as long as a worker is bound, nothing but its own reports moves the progress of
its item: no command, no other worker, no timer and no shutdown. Of the reports, a start sets the
number of bytes, and any other one can only raise it.
-/

namespace DownloadQueue

def Progress.onto (known : UInt64 × Option UInt64) : Progress → UInt64 × Option UInt64
  | .started offset total => (offset, Scheduler.knownTotal total known.2)
  | .reached bytes total =>
    if bytes < known.1 then known else (bytes, Scheduler.knownTotal total known.2)

theorem Progress.le_onto_reached (known : UInt64 × Option UInt64) (bytes : UInt64)
    (total : Option UInt64) : known.1 ≤ (Progress.onto known (.reached bytes total)).1 := by
  rw [onto]
  split
  · exact UInt64.le_refl _
  · next hnew => exact UInt64.not_lt.mp hnew

namespace Scheduler

variable {own : ItemId → Prop} {tells : ItemId → String → Prop} {s t : Scheduler} {id : ItemId}
variable {seq : Nat} {known : UInt64 × Option UInt64}

def progress? (s : Scheduler) (id : ItemId) : Option (UInt64 × Option UInt64) :=
  (s.table.get? id).map fun item => (item.bytesDownloaded, item.bytesTotal)

structure Carries (s : Scheduler) (id : ItemId) (seq : Nat) (known : UInt64 × Option UInt64) :
    Prop where
  held : s.holder? id = some seq
  known : s.progress? id = some known

theorem Carries.bound (h : s.Carries id seq known) : s.duty? id ≠ none := by
  intro hfree
  have hheld := h.held
  rw [holder?, hfree] at hheld
  cases hheld

theorem Carries.of_get? (h : s.Carries id seq known) (hheld : t.holder? id = s.holder? id)
    (hget : t.table.get? id = s.table.get? id) : t.Carries id seq known :=
  ⟨hheld.trans h.held, by rw [progress?, hget]; exact h.known⟩

theorem progress?_setStatus (s : Scheduler) (other : ItemId) (status : Status) (id : ItemId) :
    (s.setStatus other status).progress? id = s.progress? id := by
  rw [progress?, get?_setStatus]
  split
  · next heq =>
    rw [heq, progress?, Option.map_map]
    congr 1
    funext item
    rw [Function.comp_apply, turned]
    split <;> rfl
  · rfl

theorem holder?_setStatus (s : Scheduler) (other : ItemId) (status : Status) (id : ItemId) :
    (s.setStatus other status).holder? id = s.holder? id := by
  rw [holder?, duty?_setStatus]
  rfl

theorem Carries.setStatus (h : s.Carries id seq known) (other : ItemId) (status : Status) :
    (s.setStatus other status).Carries id seq known :=
  ⟨(holder?_setStatus s other status id).trans h.held,
    (progress?_setStatus s other status id).trans h.known⟩

/-- A change of an item that is no progress. -/
theorem Carries.modifyItem (h : s.Carries id seq known) (other : ItemId) {change : Item → Item}
    (hid : ∀ item, (change item).id = item.id)
    (hsame : ∀ item, (change item).bytesDownloaded = item.bytesDownloaded ∧
      (change item).bytesTotal = item.bytesTotal) :
    (s.modifyItem other change).Carries id seq known := by
  refine ⟨h.held, ?_⟩
  rw [← h.known, progress?, progress?, get?_modifyItem s other change hid]
  split
  · next heq =>
    rw [heq, Option.map_map]
    congr 1
    funext item
    rw [Function.comp_apply, (hsame item).1, (hsame item).2]
  · rfl

/-- An entry that is not made for the worker of an item leaves the progress of the item alone. -/
theorem Posting.carries (hposting : Posting own tells s t) (hsound : s.table.Sound)
    (hown : ¬ own id) (h : s.Carries id seq known) : t.Carries id seq known := by
  cases hposting with
  | aside htable _ _ _ _ hheld => exact h.of_get? (hheld id h.bound) (by rw [htable])
  | @release other hother =>
    have hne : id ≠ other := fun heq => hown (heq ▸ hother)
    refine h.of_get? ?_ rfl
    rw [holder?, duty?_unbind, if_neg hne]
    rfl
  | @measure _ other hgrounds change hrecord =>
    have hid (item : Item) : (change item).id = item.id := (congrArg Item.id (hrecord item) :)
    have hne : id ≠ other := by
      rintro rfl
      exact hgrounds.elim hown h.bound
    refine h.of_get? rfl ?_
    rw [get?_modifyItem s other change hid, if_neg hne]
  | turn => exact h.setStatus _ _
  | @leave _ keep hgone =>
    refine h.of_get? rfl ?_
    change (⟨s.table.items.filter keep, s.table.nextId⟩ : Table).get? id = _
    obtain ⟨item, hget, -⟩ := Option.map_eq_some_iff.mp h.known
    have hkept : keep item = true := by
      rw [← Bool.not_eq_false]
      -- only items without a worker leave
      intro hleaves
      have hfree := (hgone item (Table.mem_of_get? hget) hleaves).2
      rw [Table.id_of_get? hget] at hfree
      exact h.bound hfree
    refine (hsound.find?_filter keep id).trans ?_
    rw [hget, Option.filter_some, if_pos hkept]
  | @join _ item next hnext hid =>
    have hnone : s.table.get? item.id = none := hid ▸ hsound.get?_nextId
    have hne : id ≠ item.id := by
      rintro rfl
      have hknown := h.known
      rw [progress?, hnone] at hknown
      cases hknown
    refine h.of_get? rfl ?_
    rw [Table.get?_append hnone, if_neg hne]
  | fail => exact (h.setStatus _ .failed).modifyItem _ (fun _ => rfl) fun _ => ⟨rfl, rfl⟩
  | wait => exact h.of_get? rfl rfl
  | again =>
    refine Carries.setStatus ?_ _ .queued
    exact h.modifyItem _ (fun _ => rfl) fun _ => ⟨rfl, rfl⟩

theorem Postings.carries (hpostings : Postings own tells s t) (hsound : s.table.Sound)
    (hown : ¬ own id) (h : s.Carries id seq known) : t.Carries id seq known := by
  induction hpostings with
  | refl => exact h
  | tail hbefore hposting ih => exact hposting.carries (Postings.sound hbefore hsound) hown ih

/-- A report that is heard is all that is known from then on. -/
theorem Carries.handleProgress (h : s.Carries id seq known) (progress : Progress) :
    (s.handleProgress id progress).Carries id seq (progress.onto known) := by
  obtain ⟨item, hget, rfl⟩ := Option.map_eq_some_iff.mp h.known
  refine ⟨?_, ?_⟩
  · rw [holder?, (alike_handleProgress s id progress).duty?]
    exact h.held
  · have hbound : s.isBound id = true := by
      rw [← Bool.not_eq_false, isBound_eq_false_iff]
      exact h.bound
    rw [Scheduler.handleProgress, hbound, hget]
    cases progress with
    | started offset total =>
      change (s.modifyItem id _).progress? id = _
      rw [progress?, get?_modifyItem s id _ (by exact fun _ => rfl), if_pos rfl, hget]
      rfl
    | reached bytes total =>
      by_cases hstale : bytes < item.bytesDownloaded
      · simp only [Bool.not_true, Bool.false_eq_true, if_false, if_pos hstale, Progress.onto]
        rw [progress?, hget]
        rfl
      · simp only [Bool.not_true, Bool.false_eq_true, if_false, if_neg hstale, Progress.onto]
        change (s.modifyItem id _).progress? id = _
        rw [progress?, get?_modifyItem s id _ (by exact fun _ => rfl), if_pos rfl, hget]
        rfl

theorem postings_undergo (h : s.Coherent) {happening : Happening}
    (hown : ∀ message, happening = .message message → own message.id) :
    Postings own (fun _ _ => True) s (s.undergo happening) := by
  cases happening with
  | operation operation => exact postings_operate h operation
  | message message => exact postings_handleMessage h (hown message rfl) fun _ _ _ _ => trivial
  | beginShutdown => exact postings_beginShutdown h
  | outside files inbox clock now share =>
    exact postings_aside rfl rfl (List.Sublist.refl _) rfl rfl fun _ => rfl

def Happening.report? (id : ItemId) : Happening → Option Progress
  | .message ⟨other, .progress progress⟩ => if other = id then some progress else none
  | _ => none

def reportsOf (id : ItemId) (happenings : List Happening) : List Progress :=
  happenings.filterMap (Happening.report? id)

/-- Whatever happens while a worker is bound, short of its ending, moves the progress of its item as
the worker reports. -/
theorem Carries.undergo (h : s.Carries id seq known) (hcoherent : s.Coherent)
    {happening : Happening} (hunheard : ∀ ending, happening ≠ .message ⟨id, .ended ending⟩) :
    (s.undergo happening).Carries id seq
      ((happening.report? id).toList.foldl Progress.onto known) := by
  by_cases hself : ∃ report, happening = .message ⟨id, report⟩
  · obtain ⟨report, rfl⟩ := hself
    cases report with
    | progress progress =>
      rw [Happening.report?, if_pos rfl]
      exact h.handleProgress progress
    | ended ending => exact absurd rfl (hunheard ending)
  · have hreport : happening.report? id = none := by
      unfold Happening.report?
      split
      · next other progress =>
        refine if_neg fun heq => hself ⟨.progress progress, ?_⟩
        rw [heq]
      · rfl
    have hpostings : Postings (fun other => other ≠ id) (fun _ _ => True) s
        (s.undergo happening) := by
      refine postings_undergo hcoherent fun message hmessage heq => hself ⟨message.report, ?_⟩
      rw [hmessage, ← heq]
    rw [hreport]
    exact hpostings.carries hcoherent.sound (fun hne => hne rfl) h

/-- Over a whole run with one worker, the progress of its item is what the worker reported. -/
theorem Carries.foldl_undergo (h : s.Carries id seq known) (horderly : s.Orderly)
    (happenings : List Happening)
    (hunheard : ∀ ending, .message ⟨id, .ended ending⟩ ∉ happenings) :
    (happenings.foldl Scheduler.undergo s).Carries id seq
      ((reportsOf id happenings).foldl Progress.onto known) := by
  induction happenings generalizing s known with
  | nil => exact h
  | cons happening rest ih =>
    have hnext := h.undergo horderly.coherent fun ending heq =>
      hunheard ending (heq ▸ List.mem_cons_self)
    have hlast := ih hnext (orderly_undergo horderly happening) fun ending hmem =>
      hunheard ending (List.mem_cons_of_mem _ hmem)
    rw [← List.foldl_append] at hlast
    rw [reportsOf, List.filterMap_cons]
    rw [List.foldl_cons]
    cases hreport : happening.report? id with
    | none => rwa [hreport] at hlast
    | some progress => rwa [hreport] at hlast

/-- Reports that are no start never lower the number of bytes. -/
theorem le_foldl_onto (reports : List Progress) (h : ∀ offset total, .started offset total ∉ reports)
    (known : UInt64 × Option UInt64) : known.1 ≤ (reports.foldl Progress.onto known).1 := by
  induction reports generalizing known with
  | nil => exact UInt64.le_refl _
  | cons report rest ih =>
    have hrest := ih (fun offset total hmem => h offset total (List.mem_cons_of_mem _ hmem))
      (report.onto known)
    cases report with
    | started offset total => exact absurd List.mem_cons_self (h offset total)
    | reached bytes total => exact UInt64.le_trans (Progress.le_onto_reached known bytes total) hrest

/-- What may happen to the progress of an item while its worker is bound. -/
structure Governed (s : Scheduler) (id : ItemId) (seq : Nat) (known : UInt64 × Option UInt64) :
    Prop where
  carries : s.Carries id seq known
  apart : ∀ happening, (∀ report, happening ≠ .message ⟨id, report⟩) →
    (s.undergo happening).Carries id seq known
  spared : ∀ others : List ItemId, id ∉ others → (others.foldl abandon s).Carries id seq known
  started : ∀ offset total,
    (s.undergo (.message ⟨id, .progress (.started offset total)⟩)).Carries id seq
      (offset, knownTotal total known.2)
  rises : ∀ after : List Happening,
    (∀ offset total, .message ⟨id, .progress (.started offset total)⟩ ∉ after) →
    (∀ ending, .message ⟨id, .ended ending⟩ ∉ after) →
    ∃ later, (after.foldl undergo s).Carries id seq later ∧ known.1 ≤ later.1

theorem Carries.foldl_abandon (h : s.Carries id seq known) (hsound : s.table.Sound)
    (others : List ItemId) (hspared : id ∉ others) :
    (others.foldl abandon s).Carries id seq known := by
  induction others generalizing s with
  | nil => exact h
  | cons other others ih =>
    rw [List.mem_cons, not_or] at hspared
    have hpostings : Postings (fun other => other ≠ id) (fun _ _ => True) s (s.abandon other) :=
      postings_abandon (fun heq => hspared.1 heq.symm) s
    exact ih (hpostings.carries hsound (fun hne => hne rfl) h) (hpostings.sound hsound) hspared.2

/-- What may become of the progress while the worker is bound, from any moment at which it is. -/
theorem Carries.governed (h : s.Carries id seq known) (horderly : s.Orderly) :
    s.Governed id seq known where
  carries := h
  apart happening hother := by
    have hpostings : Postings (fun other => other ≠ id) (fun _ _ => True) s
        (s.undergo happening) := by
      refine postings_undergo horderly.coherent fun message hmessage heq => ?_
      exact hother message.report (by rw [hmessage, ← heq])
    exact hpostings.carries horderly.coherent.sound (fun hne => hne rfl) h
  spared := h.foldl_abandon horderly.coherent.sound
  started offset total := h.handleProgress (.started offset total)
  rises after hgoing hunheard := by
    refine ⟨_, h.foldl_undergo horderly after hunheard, le_foldl_onto _ ?_ known⟩
    intro offset total hmem
    obtain ⟨happening, hhappens, hreport⟩ := List.mem_filterMap.mp hmem
    unfold Happening.report? at hreport
    split at hreport
    · next other progress =>
      split at hreport
      · next heq =>
        cases hreport
        exact hgoing offset total (heq ▸ hhappens)
      · cases hreport
    · cases hreport

/-- A worker that is bound carries an item. -/
theorem Coherent.carries (h : s.Coherent) {binding : Binding}
    (hbinding : s.binding? id = some binding) : ∃ known, s.Carries id binding.seq known := by
  have hduty : s.duty? id = some binding.duty := by rw [duty?, hbinding]; rfl
  obtain ⟨standing, hstanding, -⟩ := h.fits id _ hduty
  obtain ⟨item, hget, -⟩ := get?_of_standing? hstanding
  refine ⟨(item.bytesDownloaded, item.bytesTotal), ?_, ?_⟩
  · rw [holder?, hduty]
    rfl
  · rw [progress?, hget]
    rfl

/-- What is not heard from the worker of an item leaves the progress of the item as it is. -/
theorem Postings.progress? (hpostings : Postings own tells s t) (h : s.Coherent) (hown : ¬ own id)
    (hbound : s.duty? id ≠ none) : t.progress? id = s.progress? id := by
  obtain ⟨duty, hduty⟩ := Option.ne_none_iff_exists'.mp hbound
  obtain ⟨binding, hbinding, -⟩ := Option.map_eq_some_iff.mp hduty
  obtain ⟨known, hcarries⟩ := h.carries hbinding
  exact (hpostings.carries h.sound hown hcarries).known.trans hcarries.known.symm

/-- In every state that a queue can reach, the progress of an item whose worker is bound is moved by
that worker alone, and lowered only when it starts. -/
theorem governed_of_happenings (config : Config) {table : Table} (hsound : table.Sound)
    (files : FileSystem) (now : Timestamp) (share : Float) (before : List Happening) {id : ItemId}
    {binding : Binding}
    (hbound : (before.foldl undergo
      (Scheduler.ofTable config table files now share).restore).binding? id = some binding) :
    ∃ known, (before.foldl undergo
      (Scheduler.ofTable config table files now share).restore).Governed id binding.seq known := by
  have horderly := orderly_foldl_undergo
    (orderly_restore (s := .ofTable config table files now share) hsound rfl) before
  obtain ⟨known, hcarries⟩ := horderly.coherent.carries hbound
  exact ⟨known, hcarries.governed horderly⟩

def overtaken : List Happening :=
  [.operation .tick, .message ⟨⟨3⟩, .progress (.started 2 (some 9))⟩,
    .message ⟨⟨3⟩, .progress (.reached 7 none)⟩, .operation (.dispatch (.delete ⟨3⟩) []),
    .message ⟨⟨3⟩, .progress (.reached 5 (some 6))⟩, .operation .commit]

/-- The item still has the larger number of bytes, and its worker is the first one. -/
theorem governed_of_happenings_overtaken :
    let s := overtaken.foldl undergo
      (Scheduler.ofTable Watch.patientConfig ⟨[cutOff], 4⟩ roomyFiles .epoch 0).restore
    (⟨[cutOff], 4⟩ : Table).Sound ∧ s.progress? ⟨3⟩ = some (7, some 9) ∧
      s.standing? ⟨3⟩ = some (cutOff.standing.withStatus .deleted) ∧
      ∃ binding, s.binding? ⟨3⟩ = some binding ∧ binding.stop = some .delete ∧
        ∃ known, s.Governed ⟨3⟩ binding.seq known := by
  refine ⟨sound_cutOff, by decide +kernel, by decide +kernel,
    ⟨⟨3⟩, 1, 2, 0, true, some .delete⟩, by decide +kernel, rfl, ?_⟩
  exact governed_of_happenings Watch.patientConfig sound_cutOff roomyFiles .epoch 0 overtaken
    (by decide +kernel)

end Scheduler

end DownloadQueue
