import DownloadQueue.Proofs.Binding
import DownloadQueue.Proofs.Notices

namespace DownloadQueue

namespace Scheduler

variable {completed lost : ItemId → Prop} {s t u : Scheduler} {items more : List Item}

/-- Motions, and the items that joined the table in between. -/
inductive Story (completed lost : ItemId → Prop) : Scheduler → List Item → Scheduler → Prop
  | refl (s : Scheduler) : Story completed lost s [] s
  | motion {s t u : Scheduler} {items : List Item} (hstory : Story completed lost s items t)
      (hmotion : Motion completed lost t u) : Story completed lost s items u
  | join {s t : Scheduler} {items : List Item} (hstory : Story completed lost s items t)
      {item : Item} {next : UInt64} (hnext : Counter.next64 t.table.nextId = .ok next)
      (hid : item.id = ⟨t.table.nextId⟩) (hstatus : item.status ≠ .deleted) :
      Story completed lost s (items ++ [item])
        (({ t with table := ⟨t.table.items ++ [item], next⟩ } : Scheduler).emit
          (.queued item.id item.sourceUrl))

theorem Story.motions (hstory : Story completed lost s items t)
    (hmotions : Motions completed lost t u) : Story completed lost s items u := by
  induction hmotions with
  | refl => exact hstory
  | tail _ hmotion ih => exact ih.motion hmotion

theorem story_of_motions (hmotions : Motions completed lost s t) : Story completed lost s [] t :=
  (Story.refl s).motions hmotions

theorem Story.trans (hstory : Story completed lost s items t)
    (hmore : Story completed lost t more u) : Story completed lost s (items ++ more) u := by
  induction hmore with
  | refl => rwa [List.append_nil]
  | motion _ hmotion ih => exact ih.motion hmotion
  | join _ hnext hid hstatus ih =>
    rw [← List.append_assoc]
    exact ih.join hnext hid hstatus

theorem Story.sound (hstory : Story completed lost s items t) (h : s.table.Sound) :
    t.table.Sound := by
  induction hstory with
  | refl => exact h
  | motion _ hmotion ih => exact hmotion.sound ih
  | join _ hnext hid _ ih => exact ih.append hnext hid

theorem sourceUrl_newItem (s : Scheduler) (url : String) (destination : Path)
    (status : Option Status) : (s.newItem url destination status).sourceUrl = url := by
  unfold newItem
  cases status <;> cases (s.files.fileLength? destination).map UInt64.ofNat <;> rfl

/-- An item is added and told of, or nothing happens. -/
theorem story_addItem (h : s.table.Sound) (url : String) (destination : Path)
    {status : Option Status} (hstatus : status = none ∨ status = some .finished) :
    ∃ items, Story completed lost s items (s.addItem url destination status).scheduler ∧
      (s.addItem url destination status).scheduler.table.items = s.table.items ++ items := by
  rcases scheduler_addItem h url destination status with hsame | ⟨next, hnext, hadded⟩
  · rw [hsame]
    exact ⟨[], .refl s, (List.append_nil _).symm⟩
  · rw [hadded]
    have hid := s.id_newItem url destination status
    have hurl := s.sourceUrl_newItem url destination status
    have hlive := s.status_newItem url destination hstatus
    generalize s.newItem url destination status = item at hid hurl hlive ⊢
    have hkept : item.status ≠ .deleted := by
      rintro hdeleted
      rw [hdeleted] at hlive
      rcases hlive with ⟨hqueued, -⟩ | hcomplete
      · cases hqueued
      · cases hcomplete
    have hjoin : Story completed lost s ([] ++ [item]) _ := (Story.refl s).join hnext hid hkept
    rw [hid, hurl] at hjoin
    exact ⟨[item], hjoin, rfl⟩

/-- The newcomers stand at the end of the table in the order of their entries. -/
theorem story_addEntries (h : s.table.Sound) (count : Nat) (entries : List TextQueue.Entry)
    (hplain : ∀ entry ∈ entries, entry.Plain) :
    ∃ items, Story completed lost s items (s.addEntries count entries).scheduler ∧
      (s.addEntries count entries).scheduler.table.items = s.table.items ++ items := by
  induction entries generalizing s count with
  | nil => exact ⟨[], .refl s, (List.append_nil _).symm⟩
  | cons entry entries ih =>
    have hrest : ∀ entry ∈ entries, entry.Plain := fun entry hmem =>
      hplain entry (List.mem_cons_of_mem _ hmem)
    rw [addEntries]
    split
    · exact ih h count hrest
    · next destination hnew =>
      obtain ⟨first, hfirst, htable⟩ : ∃ first, Story completed lost s first _ ∧ _ :=
        story_addItem h entry.url destination (hplain entry List.mem_cons_self)
      rw [Step.andThen]
      split
      · next id hid =>
        obtain ⟨others, hothers, hmore⟩ := ih (hfirst.sound h) (count + 1) hrest
        exact ⟨first ++ others, hfirst.trans hothers, by rw [hmore, htable, List.append_assoc]⟩
      · exact ⟨first, hfirst, htable⟩

def newcomers (s : Scheduler) (entries : List TextQueue.Entry) : List Item :=
  (s.addEntries 0 entries).scheduler.table.items.drop s.table.items.length

theorem story_newcomers (h : s.table.Sound) {entries : List TextQueue.Entry}
    (hplain : ∀ entry ∈ entries, entry.Plain) :
    Story completed lost s (s.newcomers entries) (s.addEntries 0 entries).scheduler := by
  obtain ⟨items, hstory, htable⟩ : ∃ items, Story completed lost s items _ ∧ _ :=
    story_addEntries h 0 entries hplain
  rw [newcomers, htable, List.drop_left]
  exact hstory

def soleEntry (url : String) (destination : Path) : TextQueue.Entry :=
  { line := 1, url, destination, status := none }

theorem sound_addEntries (h : s.table.Sound) {entries : List TextQueue.Entry}
    (hplain : ∀ entry ∈ entries, entry.Plain) :
    (s.addEntries 0 entries).scheduler.table.Sound := by
  have hstory : Story (fun _ => True) (fun _ => True) s (s.newcomers entries) _ :=
    story_newcomers h hplain
  exact hstory.sound h

theorem plain_soleEntry (url : String) (destination : Path) :
    ∀ entry ∈ [soleEntry url destination], entry.Plain := by
  intro entry hmem
  rw [List.mem_singleton.mp hmem]
  exact .inl rfl

/-- To add one item is to add one entry, and to admit workers if the item was added. -/
theorem motions_enqueue (h : s.table.Sound) (url : String) (destination : Path) :
    Motions completed lost (s.addEntries 0 [soleEntry url destination]).scheduler
      (s.enqueue url destination).scheduler := by
  have hsound := sound_addEntries h (plain_soleEntry url destination)
  rw [addEntries, soleEntry] at hsound ⊢
  rw [enqueue]
  dsimp only at hsound ⊢
  cases hnew : s.newDestination url destination with
  | error error => exact motions_refl s
  | ok resolved =>
    rw [hnew] at hsound
    dsimp only at hsound ⊢
    rw [Step.andThen, Step.andThen]
    rw [Step.andThen] at hsound
    cases hadded : (s.addItem url resolved none).result with
    | error overflow => exact motions_refl _
    | ok id =>
      rw [hadded] at hsound
      exact (Relation.ReflTransGen.single (.mark _)).trans (motions_tick hsound)

theorem motions_addAll (h : s.table.Sound) {entries : List TextQueue.Entry}
    (hplain : ∀ entry ∈ entries, entry.Plain) :
    Motions completed lost (s.addEntries 0 entries).scheduler (s.addAll entries).scheduler := by
  have hsound := sound_addEntries h hplain
  rw [addAll]
  refine reach_andThen (motions_refl _) fun count _ => ?_
  change Motions completed lost _ (if 0 < count then _ else _)
  split
  · exact (Relation.ReflTransGen.single (.mark _)).trans (motions_tick hsound)
  · exact motions_refl _

def joining (s : Scheduler) : Action → List Item
  | .operation (.enqueue url destination) => s.newcomers [soleEntry url destination]
  | .operation (.addText text) => s.newcomers (TextQueue.parse text).entries
  | _ => []

def heard (s : Scheduler) : Action → List Message
  | .message message => [message]
  | .shutdown => s.beginShutdown.awaited s.beginShutdown.inbox
  | _ => []

def loses (s : Scheduler) (action : Action) (id : ItemId) : Prop :=
  match action with
  | .message message => message.id = id ∧ s.outruns message = true
  | .shutdown => True
  | _ => False

/-- Every action is a story. An item is finished only when a worker was heard to have completed its
transfer. -/
theorem story_act (h : s.Coherent) (action : Action) :
    Story (fun id => ⟨id, .ended .completed⟩ ∈ s.heard action) (s.loses action) s
      (s.joining action) (s.act action) := by
  cases action with
  | operation operation =>
    cases operation with
    | enqueue url destination =>
      exact (story_newcomers h.sound (plain_soleEntry url destination)).motions
        (motions_enqueue h.sound url destination)
    | addText text =>
      have hplain : ∀ entry ∈ (TextQueue.parse text).entries, entry.Plain := fun entry hmem =>
        TextQueue.plain_of_mem_parse hmem
      exact (story_newcomers h.sound hplain).motions (motions_addAll h.sound hplain)
    | dispatch command ended => exact story_of_motions (motions_dispatch h command ended)
    | retry id => exact story_of_motions (motions_handleRetry h id)
    | tick => exact story_of_motions (motions_tick h.sound)
    | commit => exact story_of_motions (motions_commit s)
  | message message =>
    refine story_of_motions (motions_handleMessage h message ?_ fun houtruns => ⟨rfl, houtruns⟩)
    intro hreport
    rw [heard, ← hreport, List.mem_singleton]
  | shutdown => exact story_of_motions (motions_shutdown h (fun _ hmem => hmem) fun _ => trivial)
  | outside files inbox clock now share =>
    exact story_of_motions (motions_aside rfl rfl rfl fun _ => rfl)

end Scheduler

end DownloadQueue
