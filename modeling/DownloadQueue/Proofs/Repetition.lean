import DownloadQueue.Proofs.Additions

namespace DownloadQueue

namespace Scheduler

variable {s t : Scheduler} {entry : TextQueue.Entry} {entries : List TextQueue.Entry}
variable {destination : Path} {next : UInt64} {count total : Nat} {overflow : Overflow}

def Refuses (s : Scheduler) (entry : TextQueue.Entry) : Prop :=
  ∃ error, s.newDestination entry.url entry.destination = .error error

/-- An entry is refused for its address, or since no destination is free for it. -/
theorem refuses_iff : s.Refuses entry ↔
    (∀ url, validateUrl entry.url ≠ .ok url) ∨
      ∀ destination, resolveDestination s.files.cwd s.config.queue.downloadDir entry.destination =
        .ok destination → s.destinationTaken destination = true := by
  unfold Refuses newDestination
  cases validateUrl entry.url with
  | error fault => simp [bind, Except.bind]
  | ok url =>
    simp only [bind, Except.bind]
    cases resolveDestination s.files.cwd s.config.queue.downloadDir entry.destination with
    | error fault => simp
    | ok destination =>
      by_cases htaken : s.destinationTaken destination = true
      · simp [htaken]
      · simp [htaken]

theorem addEntries_of_refuses (h : ∀ entry ∈ entries, s.Refuses entry) (count : Nat) :
    s.addEntries count entries = .done s count := by
  induction entries with
  | nil => rfl
  | cons entry entries ih =>
    obtain ⟨error, hnew⟩ := h entry List.mem_cons_self
    rw [addEntries_of_error hnew]
    exact ih fun entry hmem => h entry (List.mem_cons_of_mem _ hmem)

theorem addAll_of_refuses (h : ∀ entry ∈ entries, s.Refuses entry) :
    s.addAll entries = .done s 0 := by
  rw [addAll, addEntries_of_refuses h]
  rfl

/-- A refusal stays while destinations that are taken stay so. -/
theorem Refuses.mono (h : s.Refuses entry) (hfiles : t.files = s.files) (hconfig : t.config = s.config)
    (htaken : ∀ destination, s.destinationTaken destination = true →
      t.destinationTaken destination = true) : t.Refuses entry := by
  rw [refuses_iff, hfiles, hconfig]
  exact (refuses_iff.mp h).imp id fun hheld destination hresolved =>
    htaken destination (hheld destination hresolved)

theorem refuses_tick (h : s.table.Sound) (hrefuses : s.Refuses entry) : s.tick.Refuses entry := by
  obtain ⟨error, hnew⟩ := hrefuses
  exact ⟨error, (newDestination_tick h _ _).trans hnew⟩

def withEntry (s : Scheduler) (entry : TextQueue.Entry) (destination : Path) (next : UInt64) :
    Scheduler :=
  ({ s with
    table := ⟨s.table.items ++ [s.newItem entry.url destination entry.status], next⟩ } :
      Scheduler).emit (.queued ⟨s.table.nextId⟩ entry.url)

theorem Refuses.withEntry {other : TextQueue.Entry} (h : s.Refuses other) (destination : Path)
    (next : UInt64) : (s.withEntry entry destination next).Refuses other := by
  have hheld (held : Path) (htaken : s.destinationTaken held = true) :
      (s.withEntry entry destination next).destinationTaken held = true := by
    rw [destinationTaken_eq] at htaken ⊢
    exact List.any_append.trans (Bool.or_eq_true_iff.mpr (.inl htaken))
  exact h.mono rfl rfl hheld

/-- The item of an accepted entry holds the destination of the entry. -/
theorem refuses_withEntry (hplain : entry.Plain)
    (hnew : s.newDestination entry.url entry.destination = .ok destination) (next : UInt64) :
    (s.withEntry entry destination next).Refuses entry := by
  have hresolved := (newDestination_eq_ok hnew).1
  have hheld : (s.withEntry entry destination next).destinationTaken destination = true := by
    have hstatus : (s.newItem entry.url destination entry.status).status ≠ .deleted := by
      rcases s.status_newItem entry.url destination hplain with ⟨hqueued, -⟩ | hcomplete
      · rw [hqueued]
        decide
      · intro hdeleted
        rw [hdeleted] at hcomplete
        cases hcomplete
    rw [destinationTaken_eq, List.any_eq_true]
    refine ⟨s.newItem entry.url destination entry.status,
      List.mem_append_right _ List.mem_cons_self, ?_⟩
    rw [destination_newItem]
    simp [Path.same, hstatus]
  rw [refuses_iff]
  right
  intro other hother
  obtain rfl : destination = other := Except.ok.inj (hresolved.symm.trans hother)
  exact hheld

theorem addEntries_of_accepted (h : s.table.Sound)
    (hnew : s.newDestination entry.url entry.destination = .ok destination)
    (hnext : Counter.next64 s.table.nextId = .ok next) :
    s.addEntries count (entry :: entries) =
      (s.withEntry entry destination next).addEntries (count + 1) entries := by
  rw [addEntries, hnew]
  dsimp only
  rw [addItem_of_ok h hnext]
  rfl

theorem sound_withEntry (h : s.table.Sound) (hnext : Counter.next64 s.table.nextId = .ok next)
    (entry : TextQueue.Entry) (destination : Path) :
    (s.withEntry entry destination next).table.Sound :=
  h.append hnext (s.id_newItem entry.url destination entry.status)

/-- Entries of a text can be added while there are numbers for them, and are refused afterwards, like
everything that was refused before. -/
theorem addEntries_refuses (h : s.table.Sound) (hplain : ∀ entry ∈ entries, entry.Plain)
    (count : Nat) :
    (∃ t total, s.addEntries count entries = .done t total ∧ t.table.Sound ∧
      (∀ entry ∈ entries, t.Refuses entry) ∧ ∀ entry, s.Refuses entry → t.Refuses entry) ∨
    ∃ overflow, (s.addEntries count entries).result = .error overflow ∧
      UInt64.size ≤ s.table.nextId.toNat + entries.length := by
  induction entries generalizing s count with
  | nil => exact .inl ⟨s, count, rfl, h, fun _ hmem => absurd hmem List.not_mem_nil, fun _ => id⟩
  | cons entry entries ih =>
    have hrest : ∀ entry ∈ entries, entry.Plain := fun entry hmem =>
      hplain entry (List.mem_cons_of_mem _ hmem)
    cases hnew : s.newDestination entry.url entry.destination with
    | error error =>
      rw [addEntries_of_error hnew]
      rcases ih h hrest count with ⟨t, total, hdone, hsound, hlater, hbefore⟩ | ⟨overflow, hstop, hlarge⟩
      · refine .inl ⟨t, total, hdone, hsound, ?_, hbefore⟩
        intro other hmem
        rcases List.mem_cons.mp hmem with rfl | hmem
        -- what is refused once stays refused when more entries are added
        · exact hbefore other ⟨error, hnew⟩
        · exact hlater other hmem
      · exact .inr ⟨overflow, hstop, by rw [List.length_cons]; omega⟩
    | ok destination =>
      cases hnext : Counter.next64 s.table.nextId with
      | error overflow =>
        have hlarge : UInt64.size ≤ s.table.nextId.toNat + 1 :=
          (Counter.add64_eq_error hnext).1
        refine .inr ⟨overflow, ?_, by rw [List.length_cons]; omega⟩
        rw [addEntries_of_overflow hnew hnext]
        rfl
      | ok next =>
        have hnumber := (Counter.next64_eq_ok hnext).2
        rw [addEntries_of_accepted h hnew hnext]
        rcases ih (sound_withEntry h hnext entry destination) hrest (count + 1) with
          ⟨t, total, hdone, hsound, hlater, hbefore⟩ | ⟨overflow, hstop, hlarge⟩
        · refine .inl ⟨t, total, hdone, hsound, ?_, fun other hother =>
            hbefore other (hother.withEntry destination next)⟩
          intro other hmem
          rcases List.mem_cons.mp hmem with rfl | hmem
          · exact hbefore other (refuses_withEntry (hplain other List.mem_cons_self) hnew next)
          · exact hlater other hmem
        · refine .inr ⟨overflow, hstop, ?_⟩
          change UInt64.size ≤ next.toNat + entries.length at hlarge
          rw [List.length_cons]
          omega

/-- What was added just now is refused as a whole. -/
theorem addAll_again (h : s.table.Sound) (hplain : ∀ entry ∈ entries, entry.Plain) :
    (∃ t count, s.addAll entries = .done t count ∧ t.addAll entries = .done t 0) ∨
    ∃ overflow, (s.addAll entries).result = .error overflow ∧
      UInt64.size ≤ s.table.nextId.toNat + entries.length := by
  rcases addEntries_refuses h hplain 0 with
    ⟨t, total, hdone, hsound, hrefuses, -⟩ | ⟨overflow, hstop, hlarge⟩
  · left
    refine ⟨if 0 < total then t.markDirty.tick else t, total, ?_, addAll_of_refuses ?_⟩
    · rw [addAll, hdone]
      rfl
    · intro entry hmem
      split
      · exact refuses_tick hsound (hrefuses entry hmem)
      · exact hrefuses entry hmem
  · refine .inr ⟨overflow, ?_, hlarge⟩
    rw [addAll, Step.andThen, hstop]
    rfl

/-- **To add a text twice is to add it once.** Whatever was done with a queue before, and whatever the
text says: once its entries were added, to add them again adds none, changes nothing and tells of
nothing. Only if the numbers for items run out the entries are not added in the first place. -/
theorem addAll_again_of_actions (config : Config) {files : FileSystem} {path : Path}
    {items : List Item} (hload : QueueFile.load files path = .ok items) {table : Table}
    (htable : Table.ofItems items = .ok table) (now : Timestamp) (share : Float)
    (actions : List Action) (hactions : s =
      actions.foldl act (Scheduler.ofTable config table files now share).restore)
    (text : String) :
    (∃ t count, s.addAll (TextQueue.parse text).entries = .done t count ∧
      t.addAll (TextQueue.parse text).entries = .done t 0) ∨
    ∃ overflow, (s.addAll (TextQueue.parse text).entries).result = .error overflow ∧
      UInt64.size ≤ s.table.nextId.toNat + (TextQueue.parse text).entries.length := by
  have hsound : table.Sound := (Table.Sound.ofItems (QueueFile.nodup_of_load hload) htable).1
  have hstart : (Scheduler.ofTable config table files now share).restore.Orderly :=
    orderly_restore hsound rfl
  rw [hactions]
  exact addAll_again (hstart.foldl_act actions).coherent.sound fun _ => TextQueue.plain_of_mem_parse

/-- Six lines: one for a destination that is taken, two for one new destination, one without an
address, one for a file that is there, and one that says that its file is complete. -/
def sixLines : String :=
  "http://h/a /d/a\nhttp://h/c c\nhttp://h/d ./c\nnowhere d\nhttp://h/q /q\nhttp://h/e e played\n"

def lonelyFile : FileSystem :=
  ⟨[], [(["q"], .file [7])]⟩

/-- An item was added and deleted while its worker runs, so that its destination is still taken; three
of the lines are added. -/
theorem addAll_again_of_actions_sixLines :
    ∃ s t : Scheduler,
      s = [.operation (.enqueue "http://h/a" ⟨"/d/a"⟩), .operation (.dispatch (.delete ⟨1⟩) [])].foldl
        act (Scheduler.ofTable {} .empty lonelyFile .epoch 0).restore ∧
      QueueFile.load lonelyFile ⟨"/p"⟩ = .ok [] ∧ Table.ofItems [] = .ok .empty ∧
      s.addAll (TextQueue.parse sixLines).entries = .done t 3 ∧
      t.addAll (TextQueue.parse sixLines).entries = .done t 0 := by
  have hload : QueueFile.load lonelyFile ⟨"/p"⟩ = .ok [] := by rfl
  have htable : Table.ofItems [] = .ok .empty := by rfl
  have hadded : (([.operation (.enqueue "http://h/a" ⟨"/d/a"⟩),
      .operation (.dispatch (.delete ⟨1⟩) [])].foldl act
        (Scheduler.ofTable {} .empty lonelyFile .epoch 0).restore).addAll
          (TextQueue.parse sixLines).entries).result.toOption = some 3 := by
    decide +kernel
  rcases addAll_again_of_actions {} hload htable .epoch 0
      [.operation (.enqueue "http://h/a" ⟨"/d/a"⟩), .operation (.dispatch (.delete ⟨1⟩) [])] rfl
      sixLines with
    ⟨t, count, hdone, hagain⟩ | ⟨overflow, hstop, -⟩
  · rw [hdone] at hadded
    obtain rfl : count = 3 := Option.some.inj hadded
    exact ⟨_, t, rfl, hload, htable, hdone, hagain⟩
  · rw [hstop] at hadded
    cases hadded

end Scheduler

end DownloadQueue
