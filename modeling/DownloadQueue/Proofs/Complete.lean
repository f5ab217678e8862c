import DownloadQueue.Proofs.Chronicle
import DownloadQueue.Proofs.Resumption

/-!
# The life cycle of an item, and complete files

An item's status changes only as its life cycle allows, and an item is finished only when its worker
was heard to have completed the transfer. From then on its file is safe. No item may claim the
destination of a complete one, so as long as destinations that differ lead to different places nothing
is fetched into that file and nothing removes it, even after the record has left the table.
-/

namespace DownloadQueue

namespace Scheduler

variable {heard : ItemId → Ending → Prop} {completed lost : ItemId → Prop} {s t u : Scheduler}
variable {id : ItemId} {a : Path} {setting : Setting} {items : List Item}

/-- Every change of status that is told of may follow the status before it, and only a completed
transfer makes an item finished. -/
def Lawful (completed : ItemId → Prop) (told : List Event) : Prop :=
  ∀ id old new, .statusChanged id old new ∈ told →
    new ∈ old.next ∧ (new = .finished → completed id)

/-- Whatever a motion tells obeys the rules of the life cycle. -/
theorem Motion.lawful (hmotion : Motion completed lost s t) :
    ∃ told, t.events = s.events ++ told ∧ Lawful completed told := by
  have hquiet (hevents : t.events = s.events) :
      ∃ told, t.events = s.events ++ told ∧ Lawful completed told :=
    ⟨[], by rw [hevents, List.append_nil], fun id old new hmem => absurd hmem List.not_mem_nil⟩
  have hleave (gone : List Item) : Lawful completed (gone.map fun item => .removed item.id) := by
    intro id old new hmem
    obtain ⟨item, -, heq⟩ := List.mem_map.mp hmem
    cases heq
  cases hmotion with
  | aside _ _ hevents _ => exact hquiet hevents
  | mark => exact hquiet rfl
  | note => exact hquiet rfl
  | tell event hpassing =>
    refine ⟨[event], rfl, fun id old new hmem => ?_⟩
    rw [← List.mem_singleton.mp hmem] at hpassing
    cases hpassing
  | @turn id status hstands hfinished =>
    obtain ⟨standing, hstanding, hadmits⟩ := hstands
    obtain ⟨item, hget, rfl⟩ := get?_of_standing? hstanding
    by_cases heq : item.status = status
    · rw [setStatus_of_eq hget heq] at hquiet ⊢
      exact hquiet rfl
    · refine ⟨[.statusChanged id item.status status], ?_, fun other old new hmem => ?_⟩
      · rw [setStatus_of_ne hget heq]
        rfl
      · cases List.mem_singleton.mp hmem
        exact ⟨hadmits.resolve_left heq, hfinished⟩
  | leave keep => exact ⟨_, rfl, hleave _⟩
  | sweep => exact ⟨_, rfl, hleave _⟩
  | release => exact hquiet rfl

theorem Lawful.append {first second : List Event} (h : Lawful completed first)
    (h' : Lawful completed second) : Lawful completed (first ++ second) := by
  intro id old new hmem
  rcases List.mem_append.mp hmem with hmem | hmem
  · exact h id old new hmem
  · exact h' id old new hmem

theorem Story.lawful (hstory : Story completed lost s items t) :
    ∃ told, t.events = s.events ++ told ∧ Lawful completed told := by
  induction hstory with
  | refl => exact ⟨[], by rw [List.append_nil], fun id old new hmem => absurd hmem List.not_mem_nil⟩
  | motion _ hmotion ih =>
    obtain ⟨first, hfirst, hlawful⟩ := ih
    obtain ⟨second, hsecond, hlast⟩ := hmotion.lawful
    exact ⟨first ++ second, by rw [hsecond, hfirst, List.append_assoc], hlawful.append hlast⟩
  | @join t items _ item next _ _ _ ih =>
    obtain ⟨first, hfirst, hlawful⟩ := ih
    refine ⟨first ++ [.queued item.id item.sourceUrl], ?_, hlawful.append fun id old new hmem => ?_⟩
    · rw [Scheduler.emit, hfirst, List.append_assoc]
    · cases List.mem_singleton.mp hmem

def Proceeds (opened joining : List Item) (completed : ItemId → Prop) (s t : Scheduler) : Prop :=
  ∃ told, t.events = s.events ++ told ∧ Chronicle opened joining told t ∧ Lawful completed told

theorem Story.proceeds (hstory : Story completed lost s items t) (h : s.table.Sound) :
    Proceeds s.table.items items completed s t := by
  obtain ⟨told, htold, hrecorded⟩ := hstory.recorded (recorded_refl h)
  obtain ⟨same, hsame, hlawful⟩ := hstory.lawful
  obtain rfl : told = same := List.append_cancel_left (htold.symm.trans hsame)
  exact ⟨told, htold, hrecorded.toChronicle, hlawful⟩

def Sealed (a : Path) (s : Scheduler) : Prop :=
  ∀ id standing, s.standing? id = some standing → s.Open id standing.status →
    standing.destination ≠ a

structure Spares (a : Path) (s t : Scheduler) : Prop where
  content? : t.files.content? a = s.files.content? a
  fetches : ∃ begun, t.fetches = s.fetches ++ begun ∧
    ∀ request ∈ begun, s.files.placeOf request.destination ≠ s.files.placeOf a
  removals : ∃ removed, t.removals = s.removals ++ removed ∧
    ∀ removal ∈ removed, s.files.placeOf removal.destination ≠ s.files.placeOf a

theorem Spares.of_eq (hfiles : t.files.content? a = s.files.content? a)
    (hfetches : t.fetches = s.fetches) (hremovals : t.removals = s.removals) : Spares a s t where
  content? := hfiles
  fetches := ⟨[], by rw [hfetches, List.append_nil], fun _ hmem => absurd hmem List.not_mem_nil⟩
  removals := ⟨[], by rw [hremovals, List.append_nil], fun _ hmem => absurd hmem List.not_mem_nil⟩

theorem Spares.refl (a : Path) (s : Scheduler) : Spares a s s :=
  .of_eq rfl rfl rfl

theorem Spares.trans (h : Spares a s t) (h' : Spares a t u) (hcwd : t.files.cwd = s.files.cwd) :
    Spares a s u where
  content? := h'.content?.trans h.content?
  fetches := by
    obtain ⟨first, hfirst, hbegun⟩ := h.fetches
    obtain ⟨second, hsecond, hmore⟩ := h'.fetches
    refine ⟨first ++ second, by rw [hsecond, hfirst, List.append_assoc], fun request hmem => ?_⟩
    unfold FileSystem.placeOf at hmore ⊢
    rw [hcwd] at hmore
    exact (List.mem_append.mp hmem).elim (hbegun request) (hmore request)
  removals := by
    obtain ⟨first, hfirst, hremoved⟩ := h.removals
    obtain ⟨second, hsecond, hmore⟩ := h'.removals
    refine ⟨first ++ second, by rw [hsecond, hfirst, List.append_assoc], fun removal hmem => ?_⟩
    unfold FileSystem.placeOf at hmore ⊢
    rw [hcwd] at hmore
    exact (List.mem_append.mp hmem).elim (hremoved removal) (hmore removal)

theorem Lodged.placeOf_ne_of_ne (h : s.Lodged setting) {standing : Standing}
    (hstanding : s.standing? id = some standing) (ha : a.Resolved) (hne : standing.destination ≠ a) :
    s.files.placeOf standing.destination ≠ s.files.placeOf a :=
  fun heq => hne ((h.resolved id standing hstanding).eq_of_fold ha heq)

/-- An item that is complete when its file is there seals the destination. -/
theorem Lodged.sealed (h : s.Lodged setting) {standing : Standing}
    (hstanding : s.standing? id = some standing) (hcomplete : standing.status.isComplete = true) :
    Sealed standing.destination s := by
  intro other found hfound hopen heq
  have hholds : s.Holds other standing.destination := heq ▸ Open.holds hfound hopen
  by_cases hsame : other = id
  · subst hsame
    rw [hstanding] at hfound
    cases hfound
    rcases hopen with hbound | ⟨hpartial, -⟩
    · exact hbound (h.coherent.duty?_eq_none hstanding (.inr hcomplete))
    · rw [hcomplete] at hpartial
      cases hpartial
  · have hapart := h.exclusive other id _ _ hholds (holds_of_isComplete hstanding hcomplete) hsame
    simp [Path.same] at hapart

/-- Nobody comes to claim the destination of a complete file as long as the file stands there. -/
theorem Change.sealed (hchange : Change heard s t) (h : s.Coherent) (hsealed : Sealed a s)
    (hfile : s.files.content? a ≠ none) : Sealed a t := by
  intro id standing hstanding hopen heq
  rcases hchange.traces h id with htraces | ⟨item, rfl, harrives⟩
  · obtain ⟨old, hold, hevolves⟩ := htraces standing hstanding
    exact hsealed id _ hold (hevolves.open_of_open hopen) heq
  · rw [harrives.standing?] at hstanding
    cases hstanding
    subst heq
    rcases harrives.status with hmissing | hcomplete
    · exact hfile (content?_eq_none_of_fileLength? hmissing)
    · have hfree := (hchange.coherent h).duty?_eq_none harrives.standing? (.inr hcomplete)
      rcases hopen with hbound | ⟨hpartial, -⟩
      · exact hbound hfree
      · change item.status.isComplete = false at hpartial
        rw [hcomplete] at hpartial
        cases hpartial

theorem Lodged.spares_discardPartial (h : s.Lodged setting) (ha : a.Resolved) {item : Item}
    (hget : s.table.get? id = some item) (hne : item.destination ≠ a) :
    Spares a s (s.discardPartial id) := by
  have hstanding := standing?_of_get? hget
  have hplace : s.files.placeOf item.destination ≠ s.files.placeOf a :=
    h.placeOf_ne_of_ne hstanding ha hne
  refine ⟨?_, ?_, _, removals_discardPartial hget, ?_⟩
  · rw [files_discardPartial hget]
    exact ((FileSystem.edits_removePartial h.sound item.destination).1).content? h.sound ha
      (Ne.symm hplace)
  · exact ⟨[], by rw [fetches_discardPartial, List.append_nil], by simp⟩
  · intro removal hmem
    rw [List.mem_singleton.mp hmem]
    exact hplace

/-- A change leaves the file alone if none of the queue's own items has this destination. -/
theorem Change.spares (hchange : Change heard s t) (h : s.Lodged setting) (ha : a.Resolved)
    (hclear : setting.Clear a) (hsealed : Sealed a s) : Spares a s t := by
  cases hchange with
  | note halike => exact .of_eq (by rw [halike.files]) halike.fetches halike.removals
  | save =>
    refine .of_eq ?_ rfl rfl
    exact (edits_persist h.sound).content? h.sound ha (h.not_reserved hclear)
  | @engage id item hget hqueued hfree hroom hopen =>
    refine ⟨by rw [files_startTransfer], ⟨_, (grows_startTransfer hget).fetches, ?_⟩, ?_⟩
    · intro request hmem
      rw [List.mem_singleton.mp hmem]
      refine h.placeOf_ne_of_ne (standing?_of_get? hget) ha ?_
      -- a queued item may write to its file, so that is not the sealed one
      refine hsealed id _ (standing?_of_get? hget) (.inr ?_)
      simp [hqueued, Status.isComplete]
    · refine ⟨[], ?_, by simp⟩
      rw [startTransfer_eq hget, removals_setStatus, List.append_nil]
  | stop hduty hstanding hlive hsuits =>
    exact .of_eq (by rw [files_setStatus]; rfl) (fetches_setStatus _ _ _) (removals_setStatus _ _ _)
  | shift hstanding hlive hstatus hfree hcomplete =>
    exact .of_eq (by rw [files_setStatus]) (fetches_setStatus _ _ _) (removals_setStatus _ _ _)
  | @discard id item hget hfree hlive hpartial =>
    refine h.spares_discardPartial ha hget ?_
    exact hsealed id _ (standing?_of_get? hget) (.inr ⟨hpartial, hlive⟩)
  | finish hduty hheard halike hstatus =>
    refine .of_eq ?_ ?_ ?_
    · rw [files_setStatus, halike.files]
      rfl
    · rw [fetches_setStatus, halike.fetches]
      rfl
    · rw [removals_setStatus, halike.removals]
      rfl
  | @clear id duty hduty ending hheard reason hstop hdiscards =>
    obtain ⟨standing, hstanding, -⟩ := h.coherent.fits id duty hduty
    obtain ⟨item, hget, rfl⟩ := get?_of_standing? hstanding
    have hleave : Change heard s (s.unbind id) := .leave hduty hheard (by simp [hstop])
    have hne : item.destination ≠ a := hsealed id _ hstanding (.inl (by simp [hduty]))
    have hspares : Spares a (s.unbind id) ((s.unbind id).discardPartial id) :=
      (h.change hleave).spares_discardPartial ha hget hne
    exact ⟨hspares.content?, hspares.fetches, hspares.removals⟩
  | _ => exact .of_eq rfl rfl rfl

structure Shelters (setting : Setting) (a : Path) (s : Scheduler) : Prop where
  lodged : s.Lodged setting
  sealed : Sealed a s
  file : s.files.content? a ≠ none

def Progresses (s t : Scheduler) : Prop :=
  Change (fun _ _ => True) s t ∨ ∃ inbox, t = { s with inbox }

theorem Shelters.progress (h : s.Shelters setting a) (ha : a.Resolved) (hclear : setting.Clear a)
    (hprogress : Progresses s t) : Spares a s t ∧ t.Shelters setting a := by
  rcases hprogress with hchange | ⟨inbox, rfl⟩
  · have hspares := hchange.spares h.lodged ha hclear h.sealed
    refine ⟨hspares, h.lodged.change hchange, hchange.sealed h.lodged.coherent h.sealed h.file, ?_⟩
    rw [hspares.content?]
    exact h.file
  · exact ⟨.of_eq rfl rfl rfl, h.lodged.inbox inbox, h.sealed, h.file⟩

theorem Shelters.progresses (h : s.Shelters setting a) (ha : a.Resolved) (hclear : setting.Clear a)
    (hprogress : Relation.ReflTransGen Progresses s t) :
    Spares a s t ∧ t.Shelters setting a := by
  induction hprogress with
  | refl => exact ⟨.refl a s, h⟩
  | tail _ hstep ih =>
    obtain ⟨hspares, hshelters⟩ := ih
    obtain ⟨hnext, hlast⟩ := hshelters.progress ha hclear hstep
    exact ⟨hspares.trans hnext (hshelters.lodged.cwd.trans h.lodged.cwd.symm), hlast⟩

theorem progresses_of_chain (hchain : Chain (fun _ _ => True) s t) :
    Relation.ReflTransGen Progresses s t :=
  Relation.ReflTransGen.mono (fun _ _ hchange => Or.inl hchange) _ _ hchain

/-- A shutdown that waits takes messages in and handles them, and nothing else. -/
theorem progresses_awaitWorkers (h : s.Coherent) (messages : List Message) :
    Relation.ReflTransGen Progresses s (s.awaitWorkers messages).scheduler := by
  induction messages generalizing s with
  | nil => exact .single (.inr ⟨[], rfl⟩)
  | cons message messages ih =>
    rw [awaitWorkers]
    split
    · exact .single (.inr ⟨message :: messages, rfl⟩)
    · have htaken : ({ s with inbox := messages } : Scheduler).Coherent :=
        ⟨h.sound, h.nodup, h.fits⟩
      have hchain : Chain (fun _ _ => True) { s with inbox := messages } _ :=
        chain_handleMessage htaken message fun _ _ => trivial
      have hhandled : Relation.ReflTransGen Progresses s _ :=
        (Relation.ReflTransGen.single (.inr ⟨messages, rfl⟩)).trans (progresses_of_chain hchain)
      exact reach_andThen hhandled fun _ _ => ih (hchain.coherent htaken)

theorem progresses_shutdown (h : s.Coherent) :
    Relation.ReflTransGen Progresses s s.shutdown.scheduler := by
  have hbegin : Chain (fun _ _ => True) s s.beginShutdown := chain_beginShutdown h
  have hbegun := hbegin.coherent h
  have hawait : Trail (fun _ _ => True) s.beginShutdown _ :=
    trail_awaitWorkers (fun _ _ => trivial) hbegun s.beginShutdown.inbox
  rw [shutdown]
  refine (progresses_of_chain hbegin).trans (reach_andThen ?_ fun _ _ => progresses_of_chain ?_)
  · exact progresses_awaitWorkers hbegun _
  · have habandon : Chain (fun _ _ => True) _
        (takeFinalMessages s.beginShutdown).scheduler.abandonAll :=
      chain_abandonAll (fun _ => trivial) (hawait.coherent hbegun)
        (hawait.stopping (stopping_beginShutdown s))
    exact habandon.trans (chain_concludeShutdown _)

def found (s : Scheduler) : Action → FileSystem
  | .outside files _ _ _ _ => files
  | _ => s.files

/-- What the scheduler does in an action goes on in small steps; all else comes from outside. -/
theorem act_cases (h : s.Coherent) (action : Action) :
    s.found action = s.files ∧ Relation.ReflTransGen Progresses s (s.act action) ∨
      ∃ files inbox clock now share, action = .outside files inbox clock now share := by
  cases action with
  | operation operation => exact .inl ⟨rfl, progresses_of_chain (chain_operate h operation)⟩
  | message message =>
    exact .inl ⟨rfl, progresses_of_chain (chain_handleMessage h message fun _ _ => trivial)⟩
  | shutdown => exact .inl ⟨rfl, progresses_shutdown h⟩
  | outside files inbox clock now share => exact .inr ⟨files, inbox, clock, now, share, rfl⟩

def Action.Spares (setting : Setting) (a : Path) (action : Action) : Prop :=
  action.Tidy setting ∧
    match action with
    | .outside files _ _ _ _ => files.content? a ≠ none
    | _ => True

theorem Shelters.act (h : s.Shelters setting a) (ha : a.Resolved) (hclear : setting.Clear a)
    {action : Action} (hspares : action.Spares setting a) :
    Spares a { s with files := s.found action } (s.act action) ∧
      (s.act action).Shelters setting a := by
  rcases act_cases h.lodged.coherent action with
    ⟨hfound, hprogress⟩ | ⟨files, inbox, clock, now, share, rfl⟩
  · rw [hfound]
    exact h.progresses ha hclear hprogress
  · exact ⟨.of_eq rfl rfl rfl, h.lodged.act hspares.1, h.sealed, hspares.2⟩

theorem Shelters.foldl_act (h : s.Shelters setting a) (ha : a.Resolved) (hclear : setting.Clear a)
    {actions : List Action} (hspares : ∀ action ∈ actions, action.Spares setting a) :
    (actions.foldl Scheduler.act s).Shelters setting a := by
  induction actions generalizing s with
  | nil => exact h
  | cons action actions ih =>
    have hnext := (h.act ha hclear (hspares action List.mem_cons_self)).2
    exact ih hnext fun later hmem => hspares later (List.mem_cons_of_mem _ hmem)

/-- Once an item is complete and a file stands at its destination, no later action removes that file
or begins a fetch into it, unless others remove it. -/
def Safe (setting : Setting) (s : Scheduler) : Prop :=
  ∀ item ∈ s.table.items, item.status.isComplete = true → setting.Clear item.destination →
    s.files.content? item.destination ≠ none →
    ∀ later : List Action, (∀ action ∈ later, action.Spares setting item.destination) →
      (later.foldl act s).files.content? item.destination ≠ none ∧
      ∀ action : Action, action.Spares setting item.destination →
        Spares item.destination
          { later.foldl act s with files := (later.foldl act s).found action }
          ((later.foldl act s).act action)

theorem Lodged.safe (h : s.Lodged setting) : s.Safe setting := by
  intro item hitem hcomplete hclear hfile later hlater
  have hstanding := standing?_of_get? (h.coherent.sound.get?_of_mem hitem)
  have hresolved : item.destination.Resolved := h.resolved item.id item.standing hstanding
  have hshelters : s.Shelters setting item.destination :=
    ⟨h, h.sealed hstanding hcomplete, hfile⟩
  have hlast := hshelters.foldl_act hresolved hclear hlater
  exact ⟨hlast.file, fun action haction => (hlast.act hresolved hclear haction).1⟩

/-- From every table with distinct numbers every sequence of actions goes by the life cycle. If the
destinations of the table differ and are in the form that new items get, complete files are safe. -/
theorem lifecycle_of_actions (config : Config) {table : Table} (hsound : table.Sound)
    (files : FileSystem) (now : Timestamp) (share : Float) (actions : List Action) :
    let opened := Scheduler.ofTable config table files now share
    let s := actions.foldl act opened.restore
    Proceeds table.items [] (fun _ => False) opened opened.restore ∧
    (∀ action, Proceeds s.table.items (s.joining action)
      (fun id => ⟨id, .ended .completed⟩ ∈ s.heard action) s (s.act action)) ∧
    ∀ setting : Setting, table.Apart → (∀ item ∈ table.items, item.destination.Resolved) →
      files.Sound → files.cwd = setting.cwd → config.queue.queueFile = setting.queueFile →
      (∀ action ∈ actions, action.Tidy setting) → s.Safe setting := by
  intro opened s
  have horderly : s.Orderly := (orderly_restore hsound rfl).foldl_act actions
  refine ⟨?_, fun action => ?_, fun setting hapart hresolved hfiles hcwd hqueueFile htidy => ?_⟩
  · have hmotions : Motions (fun _ => False) (fun _ => True) opened opened.restore :=
      motions_restore hsound rfl
    exact (story_of_motions hmotions).proceeds hsound
  · exact (story_act horderly.coherent action).proceeds horderly.coherent.sound
  · have hlodged : s.Lodged setting :=
      lodged_of_actions hsound hapart hresolved hfiles hcwd hqueueFile now share htidy
    exact hlodged.safe

def doneItem : Item :=
  { Item.new ⟨3⟩ "http://h/a" ⟨"/a"⟩ .epoch with status := .finished }

def doneFiles : FileSystem :=
  ⟨[], [(["a"], .file [1, 2])]⟩

/-- The record of the complete item leaves the table, and its destination is given to a new item,
which is cancelled and deleted before the queue is shut down. -/
def rewritten : List Action :=
  [.operation (.dispatch (.delete ⟨3⟩) []), .operation .commit,
    .operation (.enqueue "http://h/a" ⟨"/a"⟩), .operation .commit,
    .operation (.dispatch (.cancel ⟨4⟩) []), .operation (.dispatch (.delete ⟨4⟩) []), .shutdown]

theorem sound_doneFiles : doneFiles.Sound :=
  .flat (by simp)

theorem clear_doneItem : Site.sampleSetting.Clear doneItem.destination := by
  unfold Setting.Clear QueueFile.Reserved
  decide +kernel

/-- The new item was found complete, and the file is there to the end. -/
theorem lifecycle_of_actions_rewritten :
    let opened := Scheduler.ofTable roomyConfig ⟨[doneItem], 4⟩ doneFiles .epoch 0
    (⟨[doneItem], 4⟩ : Table).Sound ∧ (⟨[doneItem], 4⟩ : Table).Apart ∧ doneFiles.Sound ∧
      ((rewritten.take 4).foldl act opened.restore).table.items.map Item.status =
        [.alreadyDownloaded] ∧
      opened.restore.Safe Site.sampleSetting ∧
      (rewritten.foldl act opened.restore).files.content? ⟨"/a"⟩ ≠ none := by
  intro opened
  have hsound : (⟨[doneItem], 4⟩ : Table).Sound :=
    (Table.Sound.ofItems (by decide : ([doneItem].map Item.id).Nodup) rfl).1
  have hapart : (⟨[doneItem], 4⟩ : Table).Apart := List.pairwise_singleton _ _
  have hresolved : ∀ item ∈ [doneItem], item.destination.Resolved := by
    intro item hmem
    obtain rfl := List.mem_singleton.mp hmem
    exact ⟨["a"], by simp [Path.IsName], rfl⟩
  have hsafe : opened.restore.Safe Site.sampleSetting :=
    (lifecycle_of_actions roomyConfig hsound doneFiles .epoch 0 []).2.2 Site.sampleSetting hapart
      hresolved sound_doneFiles rfl rfl (by simp)
  refine ⟨hsound, hapart, sound_doneFiles, by decide +kernel, hsafe, ?_⟩
  exact (hsafe doneItem (by decide +kernel) rfl clear_doneItem (by decide +kernel) rewritten
    (by simp [rewritten, Action.Spares, Action.Tidy])).1

def detour : Item :=
  Item.new ⟨4⟩ "http://h/b" ⟨"/../a"⟩ .epoch

def detourStart : Scheduler :=
  (Scheduler.ofTable roomyConfig ⟨[doneItem, detour], 5⟩ doneFiles .epoch 0).restore

/-- Destinations that differ may yet lead to one place, and then a complete file is not safe. -/
theorem not_safe_of_apart :
    ¬ ∀ (config : Config) (table : Table) (files : FileSystem) (now : Timestamp) (share : Float)
      (setting : Setting) (actions : List Action), table.Sound → table.Apart → files.Sound →
      files.cwd = setting.cwd → config.queue.queueFile = setting.queueFile →
      (∀ item ∈ table.items, setting.Clear item.destination) →
      (∀ action ∈ actions, action.Tidy setting) →
      (actions.foldl act (Scheduler.ofTable config table files now share).restore).Safe setting := by
  intro hsafe
  have hclear : ∀ item ∈ [doneItem, detour], Site.sampleSetting.Clear item.destination := by
    unfold Setting.Clear QueueFile.Reserved
    decide +kernel
  have hsound : (⟨[doneItem, detour], 5⟩ : Table).Sound :=
    (Table.Sound.ofItems (by decide : ([doneItem, detour].map Item.id).Nodup) rfl).1
  have hapart : (⟨[doneItem, detour], 5⟩ : Table).Apart := by
    unfold Table.Apart
    decide +kernel
  have hstart : detourStart.Safe Site.sampleSetting :=
    hsafe roomyConfig _ doneFiles .epoch 0 Site.sampleSetting [] hsound hapart sound_doneFiles rfl rfl
      hclear (by simp)
  have hlater := (hstart doneItem (by decide +kernel) rfl (hclear doneItem (by simp))
    (by decide +kernel) [.operation (.dispatch (.delete ⟨4⟩) [])]
    (by simp [Action.Spares, Action.Tidy])).1
  exact hlater (by decide +kernel)

end Scheduler

end DownloadQueue
