import DownloadQueue.Proofs.Integrity
import DownloadQueue.Proofs.Removals
import DownloadQueue.Proofs.Restart
import DownloadQueue.Proofs.Stops

/-!
# Where the next fetch begins

A fetch resumes at the length of what stands at its destination. If nobody else touches the file,
that is what the last worker of the item has left: nothing once the item was cancelled, and all that
had come in if the worker was told to keep it.
-/

namespace DownloadQueue

namespace Scheduler

variable {heard : ItemId → Ending → Prop} {s t u : Scheduler} {id other : ItemId} {a : Path}
variable {setting : Setting}

/-! ## What happens while an item waits -/

def Respects (id : ItemId) (destination : Path) (s : Scheduler) (happening : Happening) : Prop :=
  (s.files.removePartial destination).isOk = true ∧
    match happening with
    | .outside files _ _ _ _ => files.Sound ∧ files.cwd = s.files.cwd ∧
        (s.duty? id = none → files.content? destination = s.files.content? destination)
    | _ => True

def Alone (id : ItemId) (destination : Path) : Scheduler → List Happening → Prop
  | _, [] => True
  | s, happening :: rest =>
    Respects id destination s happening ∧ Alone id destination (s.undergo happening) rest

theorem Lodged.undergo (h : s.Lodged setting) {happening : Happening}
    (hrespects : Respects id a s happening) : (s.undergo happening).Lodged setting := by
  rcases undergo_cases h.coherent happening with hchain | ⟨files, inbox, clock, now, share, rfl⟩
  · exact h.chain hchain
  · obtain ⟨-, hsound, hcwd, -⟩ := hrespects
    exact h.outside hsound (hcwd.trans h.cwd) inbox clock now share

theorem content?_onItem {operation : Item → Step Verdict}
    (hoperation : ∀ item, item.id = other → s.table.get? item.id = some item →
      (operation item).scheduler.files.content? a = s.files.content? a) :
    (s.onItem other operation).scheduler.files.content? a = s.files.content? a := by
  rw [onItem]
  split
  · rfl
  · next item hget =>
    have hid := Table.id_of_get? hget
    exact hoperation item hid (hid.symm ▸ hget)

/-- A cancellation or a deletion that is refused changes nothing. -/
theorem apply_of_not_granted {command : Command}
    (hcommand : command = .cancel id ∨ command = .delete id)
    (hrefused : s.granted command = false) : (s.apply command).scheduler = s := by
  rcases hcommand with rfl | rfl
  · rw [granted, apply, onItem] at hrefused
    rw [apply, onItem]
    split
    · rfl
    · next item hget =>
      rw [hget] at hrefused
      dsimp only [plain, Step.done] at hrefused ⊢
      rw [cancel] at hrefused ⊢
      cases hstatus : item.status with
      | downloading => simp [hstatus] at hrefused
      | queued => simp [hstatus] at hrefused
      | paused => simp [hstatus] at hrefused
      | _ => rfl
  · rw [granted, apply, onItem] at hrefused
    rw [apply, onItem]
    split
    · rfl
    · next item hget =>
      rw [hget] at hrefused
      dsimp only [plain, Step.done] at hrefused ⊢
      rw [delete] at hrefused ⊢
      by_cases hdeleted : item.status = .deleted
      · rw [if_pos hdeleted]
      · simp [hdeleted] at hrefused

/-- A command that does not discard the partial file of an item leaves the file alone. -/
theorem Lodged.content?_apply (h : s.Lodged setting) (ha : s.Holds id a) {command : Command}
    (hkeeps : ∀ stop ∈ s.told id command, stop.discardsPartial = false) :
    (s.apply command).scheduler.files.content? a = s.files.content? a := by
  cases command with
  | cancel other =>
    by_cases heq : other = id
    · subst heq
      rw [apply_of_not_granted (.inl rfl)]
      rw [← Bool.not_eq_true]
      intro hgranted
      have hdiscards := hkeeps .cancel (by simp [told, hgranted])
      cases hdiscards
    · refine content?_onItem fun item hid hget => ?_
      exact h.content?_cancel ha hget fun hsame => heq (hid.symm.trans hsame.symm)
  | delete other =>
    by_cases heq : other = id
    · subst heq
      rw [apply_of_not_granted (.inr rfl)]
      rw [← Bool.not_eq_true]
      intro hgranted
      have hdiscards := hkeeps .delete (by simp [told, hgranted])
      cases hdiscards
    · refine content?_onItem fun item hid hget => ?_
      exact h.content?_delete ha hget fun hsame => heq (hid.symm.trans hsame.symm)
  | _ => rw [files_apply h.coherent (by simp)]

/-- The file of an item without a worker stays as it is until the item is cancelled or deleted. -/
theorem Lodged.content?_undergo (h : s.Lodged setting) (ha : s.Holds id a)
    (hclear : setting.Clear a) (hfree : s.duty? id = none) {happening : Happening}
    (hrespects : Respects id a s happening)
    (hkeeps : ∀ stop ∈ s.asked id happening, stop.discardsPartial = false) :
    (s.undergo happening).files.content? a = s.files.content? a := by
  -- where nothing is discarded no file changes at all
  have hquiet {may : Deed → Prop} {t : Scheduler} (hstrokes : Strokes may s t)
      (hmay : ¬ may .discard) : t.files.content? a = s.files.content? a := by
    rw [hstrokes.files_of_not_discard hmay]
  cases happening with
  | operation operation =>
    cases operation with
    | enqueue url destination =>
      exact congrArg (FileSystem.content? · a) (files_enqueue s url destination)
    | addText text => exact congrArg (FileSystem.content? · a) (files_addAll s _)
    | dispatch command ended =>
      change (s.dispatch command ended).scheduler.files.content? a = _
      rw [scheduler_dispatch]
      exact h.content?_apply ha hkeeps
    | retry other =>
      have hstrokes : Strokes (fun deed => deed ≠ .discard) s (s.handleRetry other).scheduler :=
        strokes_handleRetry h.coherent (by simp)
      exact hquiet hstrokes fun hne => hne rfl
    | tick => exact congrArg (FileSystem.content? · a) (files_tick s)
    | commit =>
      rcases files_commit s with hsame | hsaved
      · exact congrArg (FileSystem.content? · a) hsame
      · change s.commit.scheduler.files.content? a = _
        rw [hsaved]
        exact h.content?_of_edits (edits_persist h.sound) ha (h.not_reserved hclear)
  | message message =>
    obtain ⟨other, report⟩ := message
    cases report with
    | progress progress =>
      exact congrArg (FileSystem.content? · a) (alike_handleProgress s other progress).files
    | ended ending =>
      change (s.handleEnding other ending).scheduler.files.content? a = _
      by_cases heq : id = other
      -- the item has no worker, so its ending is not listened to
      · subst heq
        rw [duty?, Option.map_eq_none_iff] at hfree
        rw [handleEnding, hfree]
        rfl
      · exact h.content?_handleEnding ha heq ending
  | beginShutdown =>
    have hstrokes : Strokes (fun _ => False) s s.beginShutdown := strokes_beginShutdown h.coherent
    exact hquiet hstrokes not_false
  | outside files inbox clock now share => exact hrespects.2.2.2 hfree

/-! ## Fetches that are begun -/

structure Follows (id : ItemId) (s t : Scheduler) : Prop where
  future : s.table.nextId.toNat ≤ t.table.nextId.toNat
  traces : id.value.toNat < s.table.nextId.toNat → ∀ standing, t.standing? id = some standing →
    ∃ old, s.standing? id = some (standing.withStatus old) ∧
      (t.Open id standing.status → s.Open id old)

theorem Follows.refl (id : ItemId) (s : Scheduler) : Follows id s s :=
  ⟨Nat.le_refl _, fun _ standing hstanding => ⟨standing.status, hstanding, fun hopen => hopen⟩⟩

theorem Follows.trans (h : Follows id s t) (h' : Follows id t u) : Follows id s u where
  future := Nat.le_trans h.future h'.future
  traces hold standing hstanding := by
    obtain ⟨next, hnext, hopenNext⟩ :=
      h'.traces (Nat.lt_of_lt_of_le hold h.future) standing hstanding
    obtain ⟨old, holdStanding, hopenOld⟩ := h.traces hold _ hnext
    exact ⟨old, holdStanding, fun hopen => hopenOld (hopenNext hopen)⟩

theorem Change.follows (hchange : Change heard s t) (h : s.Coherent) (id : ItemId) :
    Follows id s t := by
  refine ⟨hchange.nextId_le, fun hold standing hstanding => ?_⟩
  rcases hchange.traces h id with htraces | ⟨item, rfl, harrives⟩
  · obtain ⟨old, holdStanding, hevolves⟩ := htraces standing hstanding
    exact ⟨old, holdStanding, hevolves.open_of_open⟩
  · rw [harrives.new] at hold
    exact absurd hold (Nat.lt_irrefl _)

theorem Chain.follows (hchain : Chain heard s t) (h : s.Coherent) (id : ItemId) :
    Follows id s t := by
  induction hchain with
  | refl => exact .refl id s
  | tail hbefore hchange ih => exact ih.trans (hchange.follows (Chain.coherent hbefore h) id)

theorem map_id_enlist (first : Nat) (requests : List FetchRequest) :
    (enlist first requests).map (fun worker => worker.request.id) =
      requests.map FetchRequest.id := by
  induction requests generalizing first with
  | nil => rfl
  | cons request requests ih => rw [enlist, List.map_cons, List.map_cons, ih]

theorem Grows.ids {begun : List FetchRequest} (h : Grows s t begun) :
    t.duties.map Duty.id = s.duties.map Duty.id ++ begun.map FetchRequest.id := by
  have hids := congrArg (List.map Prod.snd) h.tickets
  rw [List.map_append, List.map_map, List.map_map, List.map_map] at hids
  rw [← map_id_enlist (s.admissions + 1) begun]
  exact hids

structure Onward (setting : Setting) (id : ItemId) (s t : Scheduler) (begun : List FetchRequest) :
    Prop where
  follows : Follows id s t
  fetches : t.fetches = s.fetches ++ begun
  assigned : ∀ request ∈ begun, t.Assigned setting request
  recruited : s.duty? id = none → t.duty? id ≠ none → ∃ request ∈ begun, request.id = id
  occupied : s.duty? id ≠ none → ∀ request ∈ begun, request.id ≠ id

/-- New workers are recruited after everything else an action does, so they see the files as they
are then. -/
theorem onward_of_grows {begun : List FetchRequest} (ht : t.Coherent) (hfollows : Follows id s t)
    (hrecruits : Recruits setting s t) (hduty : u.duty? id = s.duty? id)
    (hfetches : u.fetches = s.fetches) (hgrows : Grows u t begun) :
    Onward setting id s t begun := by
  obtain ⟨others, hothers, hassigned⟩ := hrecruits
  have hbegun : t.fetches = s.fetches ++ begun := hfetches ▸ hgrows.fetches
  obtain rfl : others = begun := List.append_cancel_left (hothers.symm.trans hbegun)
  have hids := hgrows.ids
  refine ⟨hfollows, hbegun, hassigned, fun hfree hbound => ?_, fun hbound request hmem heq => ?_⟩
  · rw [← hduty, duty?_eq_none_iff] at hfree
    rw [Ne, duty?_eq_none_iff, Classical.not_not, hids, List.mem_append] at hbound
    exact List.mem_map.mp (hbound.resolve_left hfree)
  · rw [← hduty, Ne, duty?_eq_none_iff, Classical.not_not] at hbound
    have hnodup := ht.nodup
    rw [hids, List.nodup_append] at hnodup
    exact hnodup.2.2 id hbound _ (List.mem_map_of_mem hmem) heq.symm

theorem onward_of_chain (h : s.Lodged setting) (hchain : Chain (fun _ _ => False) s t) :
    ∃ begun, Onward setting id s t begun := by
  obtain ⟨begun, hgrows⟩ := hchain.grows
  exact ⟨begun, onward_of_grows (hchain.coherent h.coherent) (hchain.follows h.coherent id)
    ((course_of_chain hchain).recruits h) rfl rfl hgrows⟩

theorem onward_of_same (hstanding : t.standing? id = s.standing? id)
    (hduty : t.duty? id = s.duty? id) (hnextId : t.table.nextId = s.table.nextId)
    (hfetches : t.fetches = s.fetches) : Onward setting id s t [] := by
  refine ⟨⟨Nat.le_of_eq (congrArg UInt64.toNat hnextId.symm), fun _ standing hfound => ?_⟩,
    by rw [hfetches, List.append_nil], fun request hmem => absurd hmem List.not_mem_nil,
    fun hfree hbound => absurd (hduty.trans hfree) hbound,
    fun _ request hmem => absurd hmem List.not_mem_nil⟩
  refine ⟨standing.status, hstanding ▸ hfound, fun hopen => ?_⟩
  rwa [Open, ← hduty]

/-- Whatever happens, unless it is the ending of the worker, keeps the item on its way. -/
theorem onward_undergo (h : s.Lodged setting) {happening : Happening}
    (hunheard : ∀ ending, happening = .message ⟨id, .ended ending⟩ → s.duty? id = none) :
    ∃ begun, Onward setting id s (s.undergo happening) begun := by
  have hcoherent := h.coherent
  cases happening with
  | operation operation => exact onward_of_chain h (chain_operate hcoherent operation)
  | beginShutdown => exact onward_of_chain h (chain_beginShutdown hcoherent)
  | outside files inbox clock now share => exact ⟨[], onward_of_same rfl rfl rfl rfl⟩
  | message message =>
    obtain ⟨other, report⟩ := message
    cases report with
    | progress progress =>
      exact onward_of_chain h (Chain.note (alike_handleProgress s other progress))
    | ended ending =>
      change ∃ begun, Onward setting id s (s.handleEnding other ending).scheduler begun
      cases hduty : s.duty? other with
      | none =>
        rw [duty?, Option.map_eq_none_iff] at hduty
        rw [handleEnding, hduty]
        exact ⟨[], onward_of_same rfl rfl rfl rfl⟩
      | some duty =>
        have hne : id ≠ other := by
          rintro rfl
          rw [hunheard ending rfl] at hduty
          cases hduty
        have hchain : Chain (fun _ _ => True) s (s.handleEnding other ending).scheduler :=
          chain_handleEnding hcoherent other ending trivial
        have hcourse : Course _ s (s.handleEnding other ending).scheduler :=
          course_handleMessage hcoherent ⟨other, .ended ending⟩
        have hkept : (s.unbind other).duty? id = s.duty? id := by rw [duty?_unbind, if_neg hne]
        obtain ⟨begun, hgrows⟩ := grows_handleEnding hcoherent hduty ending
        exact ⟨begun, onward_of_grows (hchain.coherent hcoherent) (hchain.follows hcoherent id)
          (hcourse.recruits h) hkept rfl hgrows⟩

/-! ## Items that wait for their next fetch -/

def Rests (id : ItemId) (destination : Path) (content : Option (List UInt8)) (s : Scheduler) :
    Prop :=
  ∀ standing, s.standing? id = some standing → s.Open id standing.status →
    standing.destination = destination ∧ s.files.content? destination = content

inductive Due (id : ItemId) (destination : Path) (content : Option (List UInt8)) (s : Scheduler) :
    Prop
  | stopping {duty : Duty} (hduty : s.duty? id = some duty) (hpending : 2 ≤ duty.pending)
      (hnone : content = none) (hstanding : ∃ standing, s.standing? id = some standing ∧
        standing.destination = destination)
  | waiting (hold : id.value.toNat < s.table.nextId.toNat) (hfree : s.duty? id = none)
      (hrests : s.Rests id destination content)

/-- The first fetch that is begun for the item finds this content, or it is due still. -/
def Reaches (id : ItemId) (destination : Path) (content : Option (List UInt8)) (s t : Scheduler) :
    Prop :=
  ∃ begun, t.fetches = s.fetches ++ begun ∧
    match begun.find? fun request => request.id = id with
    | some request => request.resumeOffset = UInt64.ofNat ((content.map List.length).getD 0)
    | none => t.Due id destination content

variable {content : Option (List UInt8)}

/-- An item without a worker either gets one now or rests with its file untouched. -/
theorem Onward.reaches {begun : List FetchRequest} (h : Onward setting id s t begun)
    (hold : id.value.toNat < s.table.nextId.toNat) (hfree : s.duty? id = none)
    (hclear : setting.Clear a) (hrests : t.Rests id a content) : Reaches id a content s t := by
  refine ⟨begun, h.fetches, ?_⟩
  split
  · next request hfind =>
    have hid : request.id = id := by simpa using List.find?_some hfind
    subst hid
    have hassigned := h.assigned request (List.mem_of_find?_eq_some hfind)
    obtain ⟨status, hstanding⟩ := hassigned.standing?
    -- the request was measured when its worker was bound, and nothing was written since
    obtain ⟨rfl, hcontent⟩ := hrests _ hstanding (.inl hassigned.bound)
    rw [hassigned.measured hclear, fileLength_eq, hcontent]
  · next hnone =>
    refine .waiting (Nat.lt_of_lt_of_le hold h.follows.future) ?_ hrests
    refine Classical.byContradiction fun hbound => ?_
    obtain ⟨request, hmem, heq⟩ := h.recruited hfree hbound
    have hne := List.find?_eq_none.mp hnone request hmem
    exact hne (decide_eq_true heq)

theorem Onward.reaches_of_bound {begun : List FetchRequest} (h : Onward setting id s t begun)
    (hbound : s.duty? id ≠ none) (hdue : t.Due id a content) : Reaches id a content s t := by
  refine ⟨begun, h.fetches, ?_⟩
  have hnone : (begun.find? fun request => request.id = id) = none :=
    List.find?_eq_none.mpr fun request hmem heq =>
      h.occupied hbound request hmem (of_decide_eq_true heq)
  rw [hnone]
  exact hdue

theorem Reaches.of_fetches (h : Reaches id a content u t) (hfetches : u.fetches = s.fetches) :
    Reaches id a content s t := by
  obtain ⟨begun, hbegun, hfound⟩ := h
  exact ⟨begun, hfetches ▸ hbegun, hfound⟩

theorem Rests.follows (h : s.Rests id a content) (hold : id.value.toNat < s.table.nextId.toNat)
    (hfollows : Follows id s t)
    (hcontent : s.Holds id a → s.files.content? a = content → t.files.content? a = content) :
    t.Rests id a content := by
  intro standing hstanding hopen
  obtain ⟨old, holdStanding, hopenOld⟩ := hfollows.traces hold standing hstanding
  obtain ⟨hdestination, hfound⟩ := h _ holdStanding (hopenOld hopen)
  refine ⟨hdestination, hcontent ?_ hfound⟩
  exact hdestination ▸ Open.holds holdStanding (hopenOld hopen)

theorem Coherent.lt_nextId_of_get? (h : s.Coherent) {item : Item}
    (hget : s.table.get? id = some item) : id.value.toNat < s.table.nextId.toNat := by
  rw [← Table.id_of_get? hget]
  exact h.sound.lt_nextId item (Table.mem_of_get? hget)

theorem Follows.destination (hfollows : Follows id s t) (h : s.Coherent) {item : Item}
    (hget : s.table.get? id = some item) {standing : Standing}
    (hstanding : t.standing? id = some standing) : standing.destination = item.destination := by
  have hold := h.lt_nextId_of_get? hget
  obtain ⟨old, holdStanding, -⟩ := hfollows.traces hold standing hstanding
  rw [standing?_of_get? hget] at holdStanding
  exact (congrArg Standing.destination (Option.some.inj holdStanding)).symm

theorem Rests.reaches_tick (h : s.Rests id a content) (hlodged : s.Lodged setting)
    (hclear : setting.Clear a) (hold : id.value.toNat < s.table.nextId.toNat)
    (hfree : s.duty? id = none) : Reaches id a content s s.tick := by
  obtain ⟨begun, honward⟩ : ∃ begun, Onward setting id s s.tick begun :=
    onward_of_chain hlodged (chain_tick hlodged.coherent)
  refine honward.reaches hold hfree hclear ?_
  exact h.follows hold honward.follows fun _ hsame => by rw [files_tick, hsame]

/-- Where nothing stands nothing comes to stand while the item has no worker. -/
theorem Chain.rests_none (hchain : Chain heard s t) (h : s.Lodged setting)
    (hclear : setting.Clear a) (hold : id.value.toNat < s.table.nextId.toNat) (hrests : s.Rests id a none) :
    t.Rests id a none := by
  induction hchain with
  | refl => exact hrests
  | @tail u v hbefore hchange ih =>
    have hlodged := h.chain hbefore
    have holdThen := Nat.lt_of_lt_of_le hold (Chain.follows hbefore h.coherent id).future
    refine ih.follows holdThen (hchange.follows hlodged.coherent id) fun hholds hnone => ?_
    rcases hchange.content? hlodged hholds hclear with hsame | ⟨hgone, -⟩
    · rw [hsame, hnone]
    · exact hgone

theorem not_open_of_isComplete {standing : Standing} (hfree : s.duty? id = none)
    (hcomplete : standing.status.isComplete = true) : ¬ s.Open id standing.status := by
  rintro (hbound | ⟨hpartial, -⟩)
  · exact hbound hfree
  · rw [hcomplete] at hpartial
    cases hpartial

theorem not_open_of_deleted {standing : Standing} (hfree : s.duty? id = none)
    (hdeleted : standing.status = .deleted) : ¬ s.Open id standing.status := by
  rintro (hbound | ⟨-, hlive⟩)
  · exact hbound hfree
  · exact hlive hdeleted

/-- After a worker that was told to stop has ended, its item waits for what the ending has left. -/
theorem Lodged.reaches_ending (h : s.Lodged setting) {binding : Binding}
    (hbinding : s.binding? id = some binding) {stop : StopReason} (hstop : binding.stop = some stop)
    {item : Item} (hget : s.table.get? id = some item) (hclear : setting.Clear item.destination)
    {ending : Ending}
    (hcontent : ending ≠ .completed →
      (if stop.discardsPartial then (s.files.removePartial item.destination).toOption.getD s.files
        else s.files).content? item.destination = content) :
    Reaches id item.destination content s (s.handleEnding id ending).scheduler := by
  have hduty : s.duty? id = some binding.duty := by rw [duty?, hbinding]; rfl
  have hfound : (s.unbind id).table.get? id = some item := hget
  have hsettle : Chain (fun _ _ => True) s
      ((s.unbind id).settle id (some stop) ending).scheduler :=
    hstop ▸ chain_settle hduty ending trivial
  have hgrows := grows_settle (s.unbind id) id (some stop) ending
  rw [settle_of_stop] at hsettle hgrows
  have hfree : ((s.unbind id).settled id stop ending).duty? id = none := by
    rw [duty?_settled, if_pos rfl]
  have hrests : ((s.unbind id).settled id stop ending).Rests id item.destination content := by
    intro standing hstanding hopen
    by_cases hcompleted : ending = .completed
    · -- what is finished or deleted is not open, so a complete file is not fetched again
      subst hcompleted
      have hrecord := standing?_of_get? (settled_completed hfound stop).2
      rw [hstanding] at hrecord
      cases hrecord
      split at hopen
      · next hgone =>
        have hsuits := h.coherent.suits_of_stop_eq_some hduty (standing?_of_get? hget) hstop
        exact absurd hopen (not_open_of_deleted hfree (hsuits.2.mp hgone))
      · refine absurd hopen (not_open_of_isComplete hfree ?_)
        rw [Item.standing_status, status_turned]
        rfl
    · obtain ⟨hfiles, hrecord⟩ := settled_of_ne_completed hfound stop hcompleted
      have hsame := standing?_of_get? hrecord
      rw [hstanding] at hsame
      cases hsame
      refine ⟨by split <;> rfl, ?_⟩
      rw [hfiles]
      exact hcontent hcompleted
  have hold := Nat.lt_of_lt_of_le (h.coherent.lt_nextId_of_get? hget)
    (hsettle.follows h.coherent id).future
  rw [handleEnding_of_stop hbinding hstop]
  refine (hrests.reaches_tick (h.chain hsettle) hclear hold hfree).of_fetches ?_
  rw [← List.append_nil s.fetches]
  exact hgrows.fetches

/-- A worker that is bound when its item is cancelled will throw away what has come in. -/
theorem Lodged.reaches_cancel_of_bound (h : s.Lodged setting) {duty : Duty}
    (hduty : s.duty? id = some duty) {item : Item} (hget : s.table.get? id = some item)
    (hgranted : s.granted (.cancel id) = true) :
    Reaches id item.destination none s (s.apply (.cancel id)).scheduler := by
  have hchain : Chain (fun _ _ => False) s (s.apply (.cancel id)).scheduler :=
    chain_apply h.coherent (.cancel id)
  obtain ⟨begun, honward⟩ : ∃ begun, Onward setting id s (s.apply (.cancel id)).scheduler begun :=
    onward_of_chain h hchain
  obtain ⟨next, hnext, hpending⟩ := heeds_cancel hduty hget
  have htold : s.told id (.cancel id) = some .cancel := if_pos ⟨rfl, hgranted⟩
  rw [htold] at hpending
  have hstrong : 2 ≤ next.pending := hpending ▸ Nat.le_max_right _ _
  refine honward.reaches_of_bound (by simp [hduty]) (.stopping hnext hstrong rfl ?_)
  obtain ⟨standing, hstanding, -⟩ := (hchain.coherent h.coherent).fits id next hnext
  exact ⟨standing, hstanding, honward.follows.destination h.coherent hget hstanding⟩

/-- Without a worker a granted cancellation finds the item queued or paused. -/
theorem Live.waits_of_granted (h : s.Live) (hfree : s.duty? id = none) {item : Item}
    (hget : s.table.get? id = some item) (hgranted : s.granted (.cancel id) = true) :
    item.status = .queued ∨ item.status = .paused := by
  have happly : s.apply (.cancel id) = plain (s.cancel item) := apply_of_get? hget _
  rw [granted, happly, cancel] at hgranted
  cases hstatus : item.status with
  | queued => exact .inl rfl
  | paused => exact .inr rfl
  | downloading =>
    obtain ⟨duty, hbound, -⟩ := h id item.standing (standing?_of_get? hget) hstatus
    rw [hfree] at hbound
    cases hbound
  | _ => simp [hstatus, plain, Step.done] at hgranted

theorem apply_cancel_of_waiting (hfree : s.duty? id = none) {item : Item}
    (hget : s.table.get? id = some item)
    (hwaiting : item.status = .queued ∨ item.status = .paused) :
    (s.apply (.cancel id)).scheduler = ((s.discardPartial id).setStatus id .queued).tick := by
  have hid : item.id = id := Table.id_of_get? hget
  have hidle : s.isBound id = false := isBound_eq_false_iff.mpr hfree
  have happly : s.apply (.cancel id) = plain (s.cancel item) := apply_of_get? hget _
  rw [happly, cancel, hid]
  rcases hwaiting with hstatus | hstatus <;> simp [hstatus, hidle, plain, Step.done]

/-- Of an item without a worker a granted cancellation throws away what has come in. -/
theorem Lodged.reaches_cancel_of_free (h : s.Lodged setting) (hfree : s.duty? id = none)
    {item : Item} (hget : s.table.get? id = some item) (hclear : setting.Clear item.destination)
    (hwaiting : item.status = .queued ∨ item.status = .paused)
    (hremoves : (s.files.removePartial item.destination).isOk = true) :
    Reaches id item.destination none s (s.apply (.cancel id)).scheduler := by
  have hpartial : item.status.isComplete = false := by
    rcases hwaiting with hstatus | hstatus <;> rw [hstatus] <;> rfl
  have hlive : item.status ≠ .deleted := by
    rcases hwaiting with hstatus | hstatus <;> simp [hstatus]
  rw [apply_cancel_of_waiting hfree hget hwaiting]
  have hdiscard : Chain (fun _ _ => False) s ((s.discardPartial id).setStatus id .queued) :=
    chain_discard hget hfree hlive hpartial (.inl rfl)
  have hold := Nat.lt_of_lt_of_le (h.coherent.lt_nextId_of_get? hget)
    (hdiscard.follows h.coherent id).future
  have hstill : ((s.discardPartial id).setStatus id .queued).duty? id = none := by
    rw [duty?_setStatus, duty?_discardPartial, hfree]
  have hrests : ((s.discardPartial id).setStatus id .queued).Rests id item.destination none := by
    intro standing hstanding _
    rw [standing?_setStatus, if_pos rfl, standing?_discardPartial,
      standing?_of_get? hget] at hstanding
    cases hstanding
    refine ⟨rfl, ?_⟩
    rw [files_setStatus, files_discardPartial hget]
    exact content?_removed hremoves
  refine (hrests.reaches_tick (h.chain hdiscard) hclear hold hstill).of_fetches ?_
  rw [fetches_setStatus, fetches_discardPartial]

theorem Orderly.reaches_cancel (horderly : s.Orderly) (h : s.Lodged setting) {item : Item}
    (hget : s.table.get? id = some item) (hclear : setting.Clear item.destination)
    (hgranted : s.granted (.cancel id) = true)
    (hremoves : (s.files.removePartial item.destination).isOk = true) :
    Reaches id item.destination none s (s.apply (.cancel id)).scheduler := by
  cases hduty : s.duty? id with
  | some duty => exact h.reaches_cancel_of_bound hduty hget hgranted
  | none =>
    have hwaiting := horderly.live.waits_of_granted hduty hget hgranted
    exact h.reaches_cancel_of_free hduty hget hclear hwaiting hremoves

/-! ## Runs -/

/-- What happens to an item that waits for its next fetch, apart from its own cancellation. -/
theorem Due.undergo (hdue : s.Due id a content) (h : s.Lodged setting) (hclear : setting.Clear a)
    {happening : Happening} (hrespects : Respects id a s happening)
    (hkeeps : content = none ∨ ∀ stop ∈ s.asked id happening, stop.discardsPartial = false) :
    Reaches id a content s (s.undergo happening) := by
  cases hdue with
  | @stopping duty hduty hpending hnone hstanding =>
    subst hnone
    by_cases hended : ∃ ending, happening = .message ⟨id, .ended ending⟩
    · obtain ⟨ending, rfl⟩ := hended
      obtain ⟨standing, hstanding, rfl⟩ := hstanding
      obtain ⟨item, hget, rfl⟩ := get?_of_standing? hstanding
      obtain ⟨binding, hbinding, rfl⟩ := Option.map_eq_some_iff.mp hduty
      obtain ⟨stop, hstop, hdiscards⟩ := Duty.exists_stop_of_le_pending hpending
      refine h.reaches_ending hbinding hstop hget hclear fun _ => ?_
      rw [if_pos hdiscards]
      exact content?_removed hrespects.1
    · have hunheard (ending : Ending) : happening ≠ .message ⟨id, .ended ending⟩ :=
        fun heq => hended ⟨ending, heq⟩
      obtain ⟨begun, honward⟩ : ∃ begun, Onward setting id s (s.undergo happening) begun :=
        onward_undergo h fun ending heq => absurd heq (hunheard ending)
      obtain ⟨next, hnext, hstrength⟩ := heeds_undergo h.coherent hduty hunheard
      have hstrong : 2 ≤ next.pending := hstrength ▸ Nat.le_trans hpending (Nat.le_max_left _ _)
      refine honward.reaches_of_bound (by simp [hduty]) (.stopping hnext hstrong rfl ?_)
      obtain ⟨standing, hfound, -⟩ := (h.undergo hrespects).coherent.fits id next hnext
      obtain ⟨before, hbefore, rfl⟩ := hstanding
      obtain ⟨item, hget, rfl⟩ := get?_of_standing? hbefore
      exact ⟨standing, hfound, honward.follows.destination h.coherent hget hfound⟩
  | waiting hold hfree hrests =>
    obtain ⟨begun, honward⟩ : ∃ begun, Onward setting id s (s.undergo happening) begun :=
      onward_undergo h fun _ _ => hfree
    refine honward.reaches hold hfree hclear ?_
    by_cases hsame : ∀ stop ∈ s.asked id happening, stop.discardsPartial = false
    · refine hrests.follows hold honward.follows fun hholds hcontent => ?_
      rw [h.content?_undergo hholds hclear hfree hrespects hsame, hcontent]
    · obtain rfl := hkeeps.resolve_right hsame
      -- only a command asks for a stop that throws something away
      cases happening with
      | operation operation =>
        have hchain : Chain (fun _ _ => False) s (s.operate operation) :=
          chain_operate h.coherent operation
        exact hchain.rests_none h hclear hold hrests
      | message message => exact absurd (by simp [asked]) hsame
      | beginShutdown => exact absurd (by simp [asked, StopReason.discardsPartial]) hsame
      | outside files inbox clock now share => exact absurd (by simp [asked]) hsame

/-- The first fetch that is begun for the item from one state to another, if there is one, resumes
at this offset. -/
def ResumesAt (id : ItemId) (offset : UInt64) (s t : Scheduler) : Prop :=
  ∃ begun, t.fetches = s.fetches ++ begun ∧
    ∀ request, (begun.find? fun request => request.id = id) = some request →
      request.resumeOffset = offset

/-- The fetch that is due resumes at the length of what it will find. -/
theorem Reaches.resumesAt (h : Reaches id a content s t)
    (hmore : ∃ more, u.fetches = t.fetches ++ more) {offset : UInt64}
    (hoffset : offset = UInt64.ofNat ((content.map List.length).getD 0))
    (hdue : t.Due id a content → ResumesAt id offset t u) : ResumesAt id offset s u := by
  obtain ⟨begun, hbegun, hfound⟩ := h
  cases hfind : begun.find? fun request => request.id = id with
  | some request =>
    rw [hfind] at hfound
    obtain ⟨more, hmore⟩ := hmore
    refine ⟨begun ++ more, by rw [hmore, hbegun, List.append_assoc], fun first hfirst => ?_⟩
    rw [List.find?_append, hfind, Option.some_or] at hfirst
    cases hfirst
    rw [hoffset]
    exact hfound
  | none =>
    rw [hfind] at hfound
    obtain ⟨more, hmore, hresumes⟩ := hdue hfound
    refine ⟨begun ++ more, by rw [hmore, hbegun, List.append_assoc], fun first hfirst => ?_⟩
    rw [List.find?_append, hfind, Option.none_or] at hfirst
    exact hresumes first hfirst

theorem fetches_undergo (h : s.Lodged setting) (happening : Happening) :
    ∃ begun, (s.undergo happening).fetches = s.fetches ++ begun := by
  have hrecruits {t : Scheduler} (h : Recruits setting s t) :
      ∃ begun, t.fetches = s.fetches ++ begun := h.imp fun _ hbegun => hbegun.1
  cases happening with
  | operation operation =>
    exact hrecruits ((course_of_chain (chain_operate h.coherent operation)).recruits h)
  | message message => exact hrecruits ((course_handleMessage h.coherent message).recruits h)
  | beginShutdown => exact hrecruits ((course_of_chain (chain_beginShutdown h.coherent)).recruits h)
  | outside files inbox clock now share => exact ⟨[], (List.append_nil _).symm⟩

theorem Lodged.foldl_undergo (h : s.Lodged setting) {happenings : List Happening}
    (halone : Alone id a s happenings) :
    (happenings.foldl Scheduler.undergo s).Lodged setting ∧
      ∃ begun, (happenings.foldl Scheduler.undergo s).fetches = s.fetches ++ begun := by
  induction happenings generalizing s with
  | nil => exact ⟨h, [], (List.append_nil _).symm⟩
  | cons happening rest ih =>
    obtain ⟨hlast, more, hmore⟩ := ih (h.undergo halone.1) halone.2
    obtain ⟨begun, hbegun⟩ := fetches_undergo h happening
    exact ⟨hlast, begun ++ more, hmore.trans (by rw [hbegun, List.append_assoc])⟩

/-- The next fetch for the item finds what it is due, unless the item is cancelled before. -/
theorem Due.resumesAt (hdue : s.Due id a content) (h : s.Lodged setting) (hclear : setting.Clear a)
    {happenings : List Happening} (halone : Alone id a s happenings)
    (hkeeps : content = none ∨ ∀ stop ∈ stopsOf id s happenings, stop.discardsPartial = false) :
    ResumesAt id (UInt64.ofNat ((content.map List.length).getD 0)) s
      (happenings.foldl Scheduler.undergo s) := by
  induction happenings generalizing s with
  | nil => exact ⟨[], (List.append_nil _).symm, fun request hfind => by cases hfind⟩
  | cons happening rest ih =>
    have hfirst : content = none ∨
        ∀ stop ∈ s.asked id happening, stop.discardsPartial = false :=
      hkeeps.imp_right fun hall stop hmem =>
        hall stop (List.mem_append_left _ (Option.mem_toList.mpr hmem))
    have hnext := h.undergo halone.1
    refine (hdue.undergo h hclear halone.1 hfirst).resumesAt (hnext.foldl_undergo halone.2).2 rfl
      fun hdue => ih hdue hnext halone.2 ?_
    exact hkeeps.imp_right fun hall stop hmem => hall stop (List.mem_append_right _ hmem)

theorem alone_append {happenings later : List Happening}
    (h : Alone id a s (happenings ++ later)) :
    Alone id a s happenings ∧ Alone id a (happenings.foldl Scheduler.undergo s) later := by
  induction happenings generalizing s with
  | nil => exact ⟨trivial, h⟩
  | cons happening rest ih =>
    obtain ⟨hrest, hlater⟩ := ih h.2
    exact ⟨⟨h.1, hrest⟩, hlater⟩

def Action.Tidy (setting : Setting) : Action → Prop
  | .outside files _ _ _ _ => files.Sound ∧ files.cwd = setting.cwd
  | _ => True

theorem Lodged.inbox (h : s.Lodged setting) (inbox : List Message) :
    ({ s with inbox } : Scheduler).Lodged setting :=
  h.outside h.sound h.cwd inbox s.clock s.now s.share

/-- Files and items stay where they belong while the end of the workers is awaited. -/
theorem Lodged.awaitWorkers (h : s.Lodged setting) (messages : List Message) :
    (s.awaitWorkers messages).scheduler.Lodged setting := by
  induction messages generalizing s with
  | nil => exact h.inbox []
  | cons message messages ih =>
    rw [Scheduler.awaitWorkers]
    split
    · exact h.inbox _
    · have htaken := h.inbox messages
      have hchain : Chain (fun _ _ => True) { s with inbox := messages } _ :=
        chain_handleMessage htaken.coherent message fun _ _ => trivial
      have hhandled := htaken.chain hchain
      rw [Step.andThen]
      split
      · exact ih hhandled
      · exact hhandled

/-- The step lemma: as long as others leave a tree, every action keeps files and items where they
belong. -/
theorem Lodged.act (h : s.Lodged setting) {action : Action} (htidy : action.Tidy setting) :
    (s.act action).Lodged setting := by
  have hcoherent := h.coherent
  have hchain {s t : Scheduler} (h : s.Lodged setting) (hchain : Chain (fun _ _ => True) s t) :
      t.Lodged setting := h.chain hchain
  cases action with
  | operation operation => exact hchain h (chain_operate hcoherent operation)
  | message message => exact hchain h (chain_handleMessage hcoherent message fun _ _ => trivial)
  | outside files inbox clock now share => exact h.outside htidy.1 htidy.2 inbox clock now share
  | shutdown =>
    have hbegun := hchain h (chain_beginShutdown hcoherent)
    have hawaited := hbegun.awaitWorkers s.beginShutdown.inbox
    have htrail : Trail (fun _ _ => True) s.beginShutdown _ :=
      trail_awaitWorkers (fun _ _ => trivial) hbegun.coherent s.beginShutdown.inbox
    have hstopping := htrail.stopping (stopping_beginShutdown s)
    change s.beginShutdown.endShutdown.scheduler.Lodged setting
    rw [endShutdown, Step.andThen]
    split
    · exact hchain hawaited ((chain_abandonAll (fun _ => trivial) hawaited.coherent hstopping).trans
        (chain_concludeShutdown _))
    · exact hawaited

/-- A table with different destinations in resolved form can be brought into operation. -/
theorem lodged_of_idle (hsound : s.table.Sound) (hidle : s.active = []) (hapart : s.table.Apart)
    (hresolved : ∀ item ∈ s.table.items, item.destination.Resolved) (hfiles : s.files.Sound)
    (hcwd : s.files.cwd = setting.cwd)
    (hqueueFile : s.config.queue.queueFile = setting.queueFile) : s.Lodged setting := by
  refine ⟨Coherent.of_active_eq_nil hsound hidle, exclusive_of_apart hidle hapart, hfiles, hcwd,
    hqueueFile, fun id standing hstanding => ?_⟩
  obtain ⟨item, hget, rfl⟩ := get?_of_standing? hstanding
  exact hresolved item (Table.mem_of_get? hget)

/-- The run lemma, from any table whose destinations differ and are in normal form. -/
theorem lodged_of_actions {config : Config} {table : Table} (hsound : table.Sound)
    (hapart : table.Apart) (hresolved : ∀ item ∈ table.items, item.destination.Resolved)
    {files : FileSystem} (hfiles : files.Sound) (hcwd : files.cwd = setting.cwd)
    (hqueueFile : config.queue.queueFile = setting.queueFile) (now : Timestamp) (share : Float)
    {actions : List Action} (htidy : ∀ action ∈ actions, action.Tidy setting) :
    (actions.foldl Scheduler.act
      (Scheduler.ofTable config table files now share).restore).Lodged setting := by
  have hopened : (Scheduler.ofTable config table files now share).Lodged setting :=
    lodged_of_idle hsound rfl hapart hresolved hfiles hcwd hqueueFile
  have hrestored : (Scheduler.ofTable config table files now share).restore.Lodged setting := by
    have hchain : Chain (fun _ _ => False) (Scheduler.ofTable config table files now share) _ :=
      chain_restore hsound rfl
    exact hopened.chain hchain
  induction actions using List.reverseRecOn with
  | nil => exact hrestored
  | append_singleton actions action ih =>
    rw [List.foldl_append]
    refine (ih fun action hmem => htidy action (List.mem_append_left _ hmem)).act ?_
    exact htidy action (List.mem_append_right _ List.mem_cons_self)

theorem follows_undergo (h : s.Coherent) (happening : Happening) (id : ItemId) :
    Follows id s (s.undergo happening) := by
  rcases undergo_cases h happening with hchain | ⟨files, inbox, clock, now, share, rfl⟩
  · exact hchain.follows h id
  · exact ⟨Nat.le_refl _, fun _ standing hstanding =>
      ⟨standing.status, hstanding, fun hopen => hopen⟩⟩

theorem follows_foldl_undergo (h : s.Orderly) (happenings : List Happening) (id : ItemId) :
    Follows id s (happenings.foldl Scheduler.undergo s) := by
  induction happenings generalizing s with
  | nil => exact .refl id s
  | cons happening rest ih =>
    exact (follows_undergo h.coherent happening id).trans (ih (orderly_undergo h happening))

/-- A command that is answered as applied was applied. -/
theorem granted_of_dispatch {command : Command} {ended : List ItemId}
    (h : (s.dispatch command ended).result = .ok (.ok .applied)) : s.granted command = true := by
  rw [granted_iff]
  rw [dispatch, Step.andThen] at h
  split at h
  · next verdict hverdict =>
    have hjudged : judge command ended verdict = .ok .applied := Except.ok.inj h
    unfold judge at hjudged
    split at hjudged
    · split at hjudged <;> cases hjudged
    · rw [hverdict, hjudged]
  · cases h

/-- After a granted cancellation the next fetch begins anew. -/
theorem Orderly.resumesAt_of_cancel (horderly : s.Orderly) (h : s.Lodged setting) {item : Item}
    (hget : s.table.get? id = some item) (hclear : setting.Clear item.destination)
    {ended : List ItemId} (happlied : (s.dispatch (.cancel id) ended).result = .ok (.ok .applied))
    {happenings : List Happening}
    (halone : Alone id item.destination s
      (.operation (.dispatch (.cancel id) ended) :: happenings)) :
    ResumesAt id 0 s (happenings.foldl undergo (s.dispatch (.cancel id) ended).scheduler) := by
  have hreaches := horderly.reaches_cancel h hget hclear (granted_of_dispatch happlied) halone.1.1
  rw [← scheduler_dispatch s (.cancel id) ended] at hreaches
  have hnext := h.undergo halone.1
  exact hreaches.resumesAt (hnext.foldl_undergo halone.2).2 rfl fun hdue =>
    hdue.resumesAt hnext hclear halone.2 (.inl rfl)

/-- After stops that all keep what has come in the next fetch resumes behind it. -/
theorem Stopped.resumesAt {happenings : List Happening} {stops : List StopReason}
    (hstopped : Stopped id s happenings stops) (horderly : s.Orderly) (h : s.Lodged setting)
    {item : Item} (hget : s.table.get? id = some item) (hclear : setting.Clear item.destination)
    (hkept : ¬ Discarding stops) {ending : Ending} {later : List Happening}
    (halone : Alone id item.destination s (happenings ++ .message ⟨id, .ended ending⟩ :: later))
    (hstill : ¬ Discarding
      (stopsOf id ((happenings.foldl undergo s).handleEnding id ending).scheduler later)) :
    ResumesAt id ((happenings.foldl undergo s).files.fileLength item.destination)
      (happenings.foldl undergo s)
      (later.foldl undergo ((happenings.foldl undergo s).handleEnding id ending).scheduler) := by
  obtain ⟨hbefore, hafter⟩ := alone_append halone
  obtain ⟨last, hlast, hpending⟩ := hstopped.binding? horderly
  have hfollows := follows_foldl_undergo horderly happenings id
  have hlodged := (h.foldl_undergo hbefore).1
  generalize happenings.foldl undergo s = t at *
  obtain ⟨stop, hstop, hdiscards, -⟩ := Duty.exists_stop hstopped.nonempty hpending
  have hduty : t.duty? id = some last.duty := by rw [duty?, hlast]; rfl
  obtain ⟨standing, hstanding, -⟩ := hlodged.coherent.fits id _ hduty
  obtain ⟨found, hfound, rfl⟩ := get?_of_standing? hstanding
  have hdestination : found.destination = item.destination :=
    hfollows.destination h.coherent hget hstanding
  rw [← hdestination] at hclear hafter ⊢
  have hreaches : Reaches id found.destination (t.files.content? found.destination) t
      (t.handleEnding id ending).scheduler :=
    hlodged.reaches_ending hlast hstop hfound hclear fun _ => by
      rw [if_neg fun hthrown => hkept (hdiscards.mp hthrown)]
  have hresumed := hlodged.undergo hafter.1
  refine hreaches.resumesAt (hresumed.foldl_undergo hafter.2).2 (fileLength_eq _ _) fun hdue => ?_
  rw [fileLength_eq]
  exact hdue.resumesAt hresumed hclear hafter.2 (.inr (not_discarding_iff.mp hstill))

/-- The next fetch for an item without a worker resumes behind what stands at its destination. -/
theorem Lodged.resumesAt_of_free (h : s.Lodged setting) {item : Item}
    (hget : s.table.get? id = some item) (hclear : setting.Clear item.destination)
    (hfree : s.duty? id = none) {happenings : List Happening}
    (halone : Alone id item.destination s happenings)
    (hkept : ¬ Discarding (stopsOf id s happenings)) :
    ResumesAt id (s.files.fileLength item.destination) s
      (happenings.foldl Scheduler.undergo s) := by
  have hdue : s.Due id item.destination (s.files.content? item.destination) := by
    refine .waiting (h.coherent.lt_nextId_of_get? hget) hfree fun standing hstanding _ => ?_
    rw [standing?_of_get? hget] at hstanding
    cases hstanding
    exact ⟨rfl, rfl⟩
  rw [fileLength_eq]
  exact hdue.resumesAt h hclear halone (.inr (not_discarding_iff.mp hkept))

/-- **The strongest stop.** At any time in a run, of the stops that a bound worker is asked for
until it ends, in any order and among whatever else happens, the strongest decides what the ending
leaves. If nobody else touches the file of an item and its removals do not fail, then the next fetch
after a granted cancellation begins anew, the next one after stops that keep the file resumes behind
it, and so does the next one of an item that has no worker, as at the start of a session. -/
theorem strongest_stop_of_actions (config : Config) {files : FileSystem} {path : Path}
    {items : List Item} (hload : QueueFile.load files path = .ok items) {table : Table}
    (htable : Table.ofItems items = .ok table) (now : Timestamp) (share : Float)
    (actions : List Action) (s : Scheduler)
    (hrun : s = actions.foldl act (Scheduler.ofTable config table files now share).restore) :
    (∀ id happenings stops, Stopped id s happenings stops → ∀ ending,
      ∃ item v, (happenings.foldl undergo s).table.get? id = some item ∧
        (happenings.foldl undergo s).handleEnding id ending = .done v () ∧
        Aftermath item stops ending (happenings.foldl undergo s) v) ∧
    ∀ setting : Setting, files.Sound → files.cwd = setting.cwd →
      config.queue.queueFile = setting.queueFile → table.Apart →
      (∀ item ∈ table.items, item.destination.Resolved) →
      (∀ action ∈ actions, action.Tidy setting) →
      ∀ id item, s.table.get? id = some item → setting.Clear item.destination →
        (∀ ended happenings, (s.dispatch (.cancel id) ended).result = .ok (.ok .applied) →
          Alone id item.destination s (.operation (.dispatch (.cancel id) ended) :: happenings) →
          ResumesAt id 0 s (happenings.foldl undergo (s.dispatch (.cancel id) ended).scheduler)) ∧
        (∀ happenings stops ending later t v, Stopped id s happenings stops → ¬ Discarding stops →
          t = happenings.foldl undergo s → v = (t.handleEnding id ending).scheduler →
          Alone id item.destination s (happenings ++ .message ⟨id, .ended ending⟩ :: later) →
          ¬ Discarding (stopsOf id v later) →
          ResumesAt id (t.files.fileLength item.destination) t (later.foldl undergo v)) ∧
        ∀ happenings, s.binding? id = none → Alone id item.destination s happenings →
          ¬ Discarding (stopsOf id s happenings) →
          ResumesAt id (s.files.fileLength item.destination) s (happenings.foldl undergo s) := by
  have horderly : s.Orderly := hrun ▸ orderly_of_actions config hload htable now share actions
  refine ⟨fun id happenings stops hstopped ending => hstopped.aftermath horderly ending, ?_⟩
  intro setting hfiles hcwd hqueueFile hapart hresolved htidy id item hget hclear
  have hsound : table.Sound := (Table.Sound.ofItems (QueueFile.nodup_of_load hload) htable).1
  have hlodged : s.Lodged setting :=
    hrun ▸ lodged_of_actions hsound hapart hresolved hfiles hcwd hqueueFile now share htidy
  refine ⟨fun ended happenings happlied halone => ?_, ?_, fun happenings hfree halone hkept => ?_⟩
  · exact horderly.resumesAt_of_cancel hlodged hget hclear happlied halone
  · rintro happenings stops ending later t v hstopped hkept rfl rfl halone hstill
    exact hstopped.resumesAt horderly hlodged hget hclear hkept halone hstill
  · exact hlodged.resumesAt_of_free hget hclear (by rw [duty?, hfree]; rfl) halone hkept

def waverings : List Happening :=
  [.operation (.dispatch (.pause ⟨3⟩) []), .operation (.dispatch (.resume ⟨3⟩) []),
    .operation (.dispatch (.cancel ⟨3⟩) []), .operation (.dispatch (.pause ⟨3⟩) [])]

def startedNearby : Scheduler :=
  (Scheduler.ofTable roomyConfig ⟨[nearby], 4⟩ (nearbyFiles [1, 2]) .epoch 0).restore

def cancelledNearby : Scheduler :=
  [.message ⟨⟨3⟩, .ended .cancelled⟩].foldl undergo (nearbyRun.dispatch (.cancel ⟨3⟩) []).scheduler

def pausedNearby : Scheduler :=
  (waverings.take 2).foldl undergo nearbyRun

/-- After a cancellation among other stops nothing is left of the two bytes. After a cancellation
alone the next fetch begins anew, after a pause it resumes behind the two bytes, and so does the
first fetch of the run. -/
theorem strongest_stop_nearby :
    (∃ v later, (waverings.foldl undergo nearbyRun).handleEnding ⟨3⟩ .cancelled = .done v () ∧
      v.files.content? ⟨"/a"⟩ = none ∧ v.table.get? ⟨3⟩ = some later ∧ later.bytesDownloaded = 0) ∧
    ResumesAt ⟨3⟩ 0 nearbyRun cancelledNearby ∧
    ResumesAt ⟨3⟩ 2 pausedNearby (pausedNearby.handleEnding ⟨3⟩ .cancelled).scheduler ∧
    ResumesAt ⟨3⟩ 2 startedNearby nearbyRun ∧
    cancelledNearby.fetches.map FetchRequest.resumeOffset = [2, 0] ∧
    (pausedNearby.handleEnding ⟨3⟩ .cancelled).scheduler.fetches.map FetchRequest.resumeOffset =
      [2, 2] := by
  have hsound : (nearbyFiles [1, 2]).Sound := .flat (by simp)
  have hapart : (⟨[nearby], 4⟩ : Table).Apart := List.pairwise_singleton _ _
  have hresolved : ∀ item ∈ (⟨[nearby], 4⟩ : Table).items, item.destination.Resolved := by
    intro item hmem
    obtain rfl := List.mem_singleton.mp hmem
    exact ⟨["a"], by simp [Path.IsName], rfl⟩
  have hclear : Site.sampleSetting.Clear ⟨"/a"⟩ := by
    unfold Setting.Clear QueueFile.Reserved
    decide +kernel
  obtain ⟨hleaves, hresumes⟩ := strongest_stop_of_actions roomyConfig load_nearbyFiles rfl .epoch 0
    [.operation .tick] nearbyRun rfl
  obtain ⟨hcancelled, hpaused, -⟩ := hresumes Site.sampleSetting hsound rfl rfl hapart hresolved
    (by simp [Action.Tidy]) ⟨3⟩ { nearby with status := .downloading } (by decide +kernel) hclear
  obtain ⟨-, hresumes⟩ := strongest_stop_of_actions roomyConfig load_nearbyFiles rfl .epoch 0 []
    startedNearby rfl
  obtain ⟨-, -, hfree⟩ := hresumes Site.sampleSetting hsound rfl rfl hapart hresolved (by simp) ⟨3⟩
    { nearby with status := .queued } (by decide +kernel) hclear
  have hbound : (nearbyRun.binding? ⟨3⟩).map Binding.stop = some none := by decide +kernel
  obtain ⟨binding, hbinding, hstop⟩ := Option.map_eq_some_iff.mp hbound
  have hstopped : Stopped ⟨3⟩ nearbyRun waverings [.pause, .cancel, .pause] := by
    refine ⟨⟨binding, hbinding, ?_⟩, by simp [waverings], by simp⟩
    rw [hstop]
    decide +kernel
  have hkept : Stopped ⟨3⟩ nearbyRun (waverings.take 2) [.pause] := by
    refine ⟨⟨binding, hbinding, ?_⟩, by simp [waverings], by simp⟩
    rw [hstop]
    decide +kernel
  refine ⟨?_, ?_, ?_, ?_, by decide +kernel, by decide +kernel⟩
  · obtain ⟨item, v, hget, hdone, hleft⟩ := hleaves ⟨3⟩ waverings _ hstopped .cancelled
    have hitem : (waverings.foldl undergo nearbyRun).table.get? ⟨3⟩ =
      some { nearby with status := .paused } := by decide +kernel
    obtain rfl := Option.some.inj (hget.symm.trans hitem)
    have hremoves : (waverings.foldl undergo nearbyRun).files.removePartial ⟨"/a"⟩ =
      .ok ⟨[], [(["q"], .file (QueueFile.render [nearby]))]⟩ := by decide +kernel
    obtain ⟨-, hnone, later, hlater, hbytes, -⟩ :=
      hleft.discarded (by simp) (by simp [Discarding]) _ hremoves
    exact ⟨v, later, hdone, hnone, hlater, hbytes⟩
  · exact hcancelled [] _ (by decide +kernel)
      ⟨⟨by decide +kernel, trivial⟩, ⟨by decide +kernel, trivial⟩, trivial⟩
  · refine hpaused _ _ .cancelled [] _ _ hkept (by simp [Discarding]) rfl rfl ?_
      (by simp [Discarding, stopsOf])
    exact ⟨⟨by decide +kernel, trivial⟩, ⟨by decide +kernel, trivial⟩,
      ⟨by decide +kernel, trivial⟩, trivial⟩
  · exact hfree [.operation .tick] rfl ⟨⟨by decide +kernel, trivial⟩, trivial⟩
      (by simp [Discarding, stopsOf, asked])

end Scheduler

end DownloadQueue
