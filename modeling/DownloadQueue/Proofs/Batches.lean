import DownloadQueue.Proofs.Admission
import Mathlib.Data.List.Infix

/-!
# Commands on all items and on each of them

A command on all items leaves what the commands on each of them leave, one after the other. Pausing
admits nobody, so the two do the same. Resuming does: the single commands admit workers after each
item, and the one for all items once at the end. Those that were admitted early are the first of those
that are admitted at the end, since no other item waited before.
-/

namespace DownloadQueue

namespace Table

theorem turn_comm (table : Table) {ids others : List ItemId} (h : ∀ id ∈ ids, id ∉ others)
    (status another : Status) :
    (table.turn ids status).turn others another = (table.turn others another).turn ids status := by
  unfold turn
  congr 1
  rw [List.map_map, List.map_map]
  apply List.map_congr_left
  intro item _
  by_cases hid : item.id ∈ ids
  · simp [hid, h item.id hid]
  · by_cases hother : item.id ∈ others <;> simp [hid, hother]

end Table

namespace Scheduler

variable {s t u v : Scheduler} {id : ItemId} {ids : List ItemId} {item : Item} {items : List Item}

/-- The second differs from the first in the order of its events only. -/
def Retold (s t : Scheduler) : Prop :=
  ∃ events, events.Perm s.events ∧ t = { s with events }

theorem Retold.refl (s : Scheduler) : Retold s s :=
  ⟨s.events, .refl _, rfl⟩

theorem Retold.trans (h : Retold s t) (h' : Retold t u) : Retold s u := by
  obtain ⟨events, hperm, rfl⟩ := h
  obtain ⟨others, hperm', rfl⟩ := h'
  exact ⟨others, hperm'.trans hperm, rfl⟩

theorem Retold.table_eq (h : Retold s t) : t.table = s.table := by
  obtain ⟨events, -, rfl⟩ := h
  rfl

theorem Retold.turnAll (h : Retold s t) (ids : List ItemId) (old new : Status) :
    Retold (s.turnAll ids old new) (t.turnAll ids old new) := by
  obtain ⟨events, hperm, rfl⟩ := h
  exact ⟨_, hperm.append_right _, rfl⟩

theorem Retold.engage (h : Retold s t) (items : List Item) :
    Retold (s.engage items) (t.engage items) := by
  obtain ⟨events, hperm, rfl⟩ := h
  exact ⟨_, hperm.append_right _, rfl⟩

theorem Retold.tick (h : Retold s t) (hnodup : (s.table.items.map Item.id).Nodup) :
    Retold s.tick t.tick := by
  have htaken : t.eligible.take t.slots = s.eligible.take s.slots := by
    obtain ⟨events, -, rfl⟩ := h
    rfl
  rw [tick_eq_engage_take hnodup, tick_eq_engage_take (h.table_eq ▸ hnodup), htaken]
  exact h.engage _

/-- Admissions do not mind what becomes of other items. -/
theorem retold_turnAll_engage (s : Scheduler) (old new : Status)
    (h : ∀ item ∈ items, item.id ∉ ids) :
    Retold ((s.turnAll ids old new).engage items) ((s.engage items).turnAll ids old new) := by
  have hdisjoint : ∀ id ∈ items.map Item.id, id ∉ ids := by
    intro id hmem
    obtain ⟨item, hitem, rfl⟩ := List.mem_map.mp hmem
    exact h item hitem
  have htable := s.table.turn_comm hdisjoint .downloading new
  have hdirty := Bool.or_right_comm s.dirty (!(items.map Item.id).isEmpty) (!ids.isEmpty)
  refine ⟨((s.engage items).turnAll ids old new).events, ?_, ?_⟩
  · simp only [engage, Scheduler.turnAll, List.append_assoc]
    exact List.perm_append_comm.append_left s.events
  · simp only [engage, Scheduler.turnAll, htable, hdirty]
    rfl

theorem idlers_of_initial (h : (s.table.items.map Item.id).Nodup) (hinitial : ids <+: s.admitted) : s.Idlers ids where
  nodup := (idlers_admitted h).nodup.sublist hinitial.sublist
  idle id hmem := (idlers_admitted h).idle id (hinitial.subset hmem)

/-- Once the first are admitted, the others are next. -/
theorem admitted_startAll (h : s.Coherent) (others : List ItemId)
    (hadmitted : ids ++ others = s.admitted) : (s.startAll ids).admitted = others := by
  have hinitial : ids <+: s.admitted := ⟨others, hadmitted⟩
  have hidlers : s.Idlers ids := idlers_of_initial h.sound.nodup hinitial
  obtain ⟨hcoherent, -, hids, hwaiting⟩ := startAll_frame hidlers h
  have hfirst : ids = s.candidates.take ids.length :=
    List.prefix_iff_eq_take.mp (hinitial.trans (List.take_prefix _ _))
  have hcandidates : (s.startAll ids).candidates = s.candidates.drop ids.length := by
    calc
      (s.startAll ids).candidates =
          (s.table.items.map Item.id).filter (s.startAll ids).waiting := by
        rw [candidates_eq_filter hcoherent.sound, hids]
      _ = s.candidates.filter fun id => id ∉ ids := by
        rw [candidates_eq_filter h.sound, List.filter_filter]
        apply List.filter_congr
        intro id _
        rw [hwaiting, Bool.and_comm]
      _ = s.candidates.drop ids.length := by
        rw [← filter_not_mem_take s.candidates (nodup_candidates h.sound.nodup), ← hfirst]
  calc
    (s.startAll ids).admitted = (s.candidates.drop ids.length).take (s.slots - ids.length) := by
      rw [admitted, hcandidates, slots_startAll hidlers h]
    _ = (ids ++ others).drop ids.length := by rw [hadmitted, admitted, List.drop_take]
    _ = others := List.drop_left

/-- An early admission does not change who is admitted in the end, if it takes the first. -/
theorem tick_startAll_of_initial (h : s.Coherent) (hinitial : ids <+: s.admitted) :
    (s.startAll ids).tick = s.tick := by
  have hidlers : s.Idlers ids := idlers_of_initial h.sound.nodup hinitial
  obtain ⟨others, hadmitted⟩ := hinitial
  calc
    (s.startAll ids).tick = (s.startAll ids).startAll (s.startAll ids).admitted :=
      tick_eq_startAll (startAll_frame hidlers h).1.sound.nodup
    _ = (s.startAll ids).startAll others := by rw [admitted_startAll h others hadmitted]
    _ = s.startAll (ids ++ others) := (startAll_append s ids others).symm
    _ = s.tick := by rw [hadmitted, tick_eq_startAll h.sound.nodup]

theorem tick_engage_of_initial (h : s.Coherent) (hinitial : items.map Item.id <+: s.admitted)
    (hitems : ∀ item ∈ items, s.table.get? item.id = some item ∧ item.status = .queued) :
    (s.engage items).tick = s.tick := by
  have hdistinct : (items.map Item.id).Nodup :=
    (idlers_of_initial h.sound.nodup hinitial).nodup
  rw [← startAll_eq_engage h.sound.nodup hdistinct hitems, tick_startAll_of_initial h hinitial]

/-- An admission before a change is a part of the one after it, if the change leaves those who are
admitted first as they are. -/
theorem retold_tick_tick (change : Scheduler → Scheduler) (h : (s.table.items.map Item.id).Nodup)
    (hcoherent : (change s).Coherent) (hinitial : s.admitted <+: (change s).admitted)
    (hkept : ∀ item ∈ s.eligible.take s.slots, (change s).table.get? item.id = some item)
    (hswapped : Retold ((change s).engage (s.eligible.take s.slots))
      (change (s.engage (s.eligible.take s.slots)))) :
    Retold (change s).tick (change s.tick).tick := by
  have hitems : ∀ item ∈ s.eligible.take s.slots,
      (change s).table.get? item.id = some item ∧ item.status = .queued := by
    intro item hmem
    exact ⟨hkept item hmem, (get?_of_mem_eligible h (List.mem_of_mem_take hmem)).2⟩
  have hticked := hswapped.tick (nodup_turnAll hcoherent.sound.nodup _ .queued .downloading)
  rw [admitted_eq_map] at hinitial
  rwa [tick_engage_of_initial hcoherent hinitial hitems, ← tick_eq_engage_take h] at hticked

/-- A saturated scheduler has no slot left, or nobody who waits for one. -/
theorem Saturated.slots_eq_zero_or (h : s.Saturated) (hsound : s.table.Sound) :
    s.slots = 0 ∨ s.candidates = [] := by
  rcases List.eq_nil_or_concat s.candidates with hnone | ⟨ids, id, hsome⟩
  · exact .inr hnone
  · left
    have hready : s.Ready id := ready_of_mem_candidates hsound.nodup (by simp [hsome])
    by_contra hroom
    unfold slots at hroom
    split at hroom
    · exact hroom rfl
    · next hopen =>
      simp only [Bool.or_eq_true, Bool.not_eq_true', not_or, Bool.not_eq_false,
        Bool.not_eq_true] at hopen
      exact h hopen.1 hopen.2 (by omega) id hready

/-- Where free slots are used, there is nobody to admit. -/
theorem Saturated.tick_eq_self (h : s.Saturated) (hsound : s.table.Sound) : s.tick = s := by
  have hnobody : s.admitted = [] := by
    rcases h.slots_eq_zero_or hsound with hfull | hnone
    · rw [admitted, hfull, List.take_zero]
    · rw [admitted, hnone, List.take_nil]
  rw [tick_eq_startAll hsound.nodup, hnobody]
  rfl

def dispatchEach (s : Scheduler) (ended : List ItemId) : List Command → Step (List Verdict)
  | [] => .done s []
  | command :: commands =>
    (s.dispatch command ended).andThen fun s verdict =>
      (s.dispatchEach ended commands).andThen fun s verdicts => .done s (verdict :: verdicts)

variable {ended : List ItemId} {command : Command} {commands : List Command} {verdict : Verdict}
variable {verdicts : List Verdict}

theorem dispatchEach_cons (hfirst : s.dispatch command ended = .done t verdict)
    (hrest : t.dispatchEach ended commands = .done u verdicts) :
    s.dispatchEach ended (command :: commands) = .done u (verdict :: verdicts) := by
  calc
    s.dispatchEach ended (command :: commands) =
        (t.dispatchEach ended commands).andThen fun s verdicts =>
          .done s (verdict :: verdicts) := by
      rw [dispatchEach, hfirst]
      rfl
    _ = .done u (verdict :: verdicts) := by
      rw [hrest]
      rfl

theorem dispatch_pause
    (h : s.Stands (fun status => status = .queued ∨ status = .downloading) id)
    (ended : List ItemId) :
    s.dispatch (.pause id) ended = .done (s.pauseOne id) (.ok .applied) := by
  obtain ⟨standing, hstanding, hstatus⟩ := h
  obtain ⟨item, hget, rfl⟩ := get?_of_standing? hstanding
  obtain rfl := Table.id_of_get? hget
  rw [Item.standing_status] at hstatus
  rcases hstatus with hstatus | hstatus <;>
    simp [dispatch, apply, onItem, hget, pause, pauseOne, hstatus, plain, judge, Step.andThen,
      Step.done]

theorem dispatchEach_pause (hdistinct : ids.Nodup)
    (hids : ∀ id ∈ ids, s.Stands (fun status => status = .queued ∨ status = .downloading) id) :
    s.dispatchEach ended (ids.map .pause) =
      .done (ids.foldl pauseOne s) (ids.map fun _ => .ok .applied) := by
  induction ids generalizing s with
  | nil => rfl
  | cons id ids ih =>
    rw [List.nodup_cons] at hdistinct
    apply dispatchEach_cons (dispatch_pause (hids id List.mem_cons_self) ended)
    apply ih hdistinct.2
    intro other hmem
    have hne : other ≠ id := fun heq => hdistinct.1 (heq ▸ hmem)
    exact (hids other (List.mem_cons_of_mem id hmem)).of_standing? (standing?_pauseOne_of_ne s hne)

theorem dispatch_resume (hget : s.table.get? id = some item) (hpaused : item.status = .paused)
    (ended : List ItemId) :
    s.dispatch (.resume id) ended = .done (s.setStatus id .queued).tick (.ok .applied) := by
  obtain rfl := Table.id_of_get? hget
  simp [dispatch, apply, onItem, hget, resume, hpaused, plain, judge, Step.andThen, Step.done]

/-- In a list without repetition, the entries of a part of it are that part. -/
theorem filter_mem_of_sublist {α : Type} [DecidableEq α] {part entries : List α}
    (hpart : part.Sublist entries) (hnodup : entries.Nodup) :
    (entries.filter fun a => a ∈ part) = part := by
  induction hpart with
  | slnil => rfl
  | cons a hrest ih =>
    rw [List.nodup_cons] at hnodup
    rw [List.filter_cons_of_neg (by simpa using fun hmem => hnodup.1 (hrest.subset hmem)),
      ih hnodup.2]
  | @cons_cons part entries a hrest ih =>
    rw [List.nodup_cons] at hnodup
    have hothers : (entries.filter fun b => b ∈ a :: part) = entries.filter fun b => b ∈ part := by
      apply List.filter_congr
      intro b hmem
      have hne : b ≠ a := fun heq => hnodup.1 (heq ▸ hmem)
      simp [hne]
    rw [List.filter_cons_of_pos (by simp), hothers, ih hnodup.2]

def AllPaused (s : Scheduler) (ids : List ItemId) : Prop :=
  ∀ id ∈ ids, ∃ item, s.table.get? id = some item ∧ item.status = .paused

theorem Coherent.turnAll_paused (h : s.Coherent) (hdistinct : ids.Nodup) (hids : s.AllPaused ids) :
    (s.turnAll ids .paused .queued).Coherent := by
  have hchain : Chain (fun _ _ => True) s (ids.foldl (fun s id => s.setStatus id .queued) s) := by
    apply chain_foldl_queue
    · exact hdistinct
    · intro id hmem
      obtain ⟨item, hget, hpaused⟩ := hids id hmem
      exact ⟨item.standing, standing?_of_get? hget, hpaused⟩
  rw [foldl_setStatus_eq_turnAll h.sound.nodup hdistinct hids (by decide) (by decide)] at hchain
  exact hchain.coherent h

theorem waiting_turnAll (hget : s.table.get? id = some item) (ids : List ItemId) :
    (s.turnAll ids .paused .queued).waiting id =
      if id ∈ ids then !s.isBound id else s.waiting id := by
  have hworker : (s.turnAll ids .paused .queued).worker? id = s.worker? id := rfl
  have hfound : (s.turnAll ids .paused .queued).table.get? id =
      some (if id ∈ ids then { item with status := .queued, lastError := none } else item) :=
    (s.table.get?_turn ids .queued id).trans (by rw [hget]; rfl)
  rw [waiting, waiting, hfound, hget, hworker, isBound_eq_isSome, Option.not_isSome]
  split
  · simp
  · rfl

/-- Where nobody waits, those who wait again are the ones without a worker. -/
theorem Coherent.candidates_turnAll (h : s.Coherent) (hnone : s.candidates = [])
    (hpart : ids.Sublist (s.table.items.map Item.id)) (hids : s.AllPaused ids) :
    (s.turnAll ids .paused .queued).candidates = ids.filter fun id => !s.isBound id := by
  have hcoherent := h.turnAll_paused (h.sound.nodup.sublist hpart) hids
  have hsame : (s.turnAll ids .paused .queued).table.items.map Item.id =
      s.table.items.map Item.id := s.table.ids_turn ids .queued
  have hnobody : ∀ id ∈ s.table.items.map Item.id, s.waiting id = false := by
    have hbefore := candidates_eq_filter h.sound
    rw [hnone, eq_comm, List.filter_eq_nil_iff] at hbefore
    exact fun id hmem => Bool.eq_false_of_not_eq_true (hbefore id hmem)
  have hwaits : ∀ id ∈ s.table.items.map Item.id,
      (s.turnAll ids .paused .queued).waiting id = (!s.isBound id && decide (id ∈ ids)) := by
    intro id hmem
    obtain ⟨item, hitem, rfl⟩ := List.mem_map.mp hmem
    rw [waiting_turnAll (h.sound.get?_of_mem hitem), hnobody item.id hmem]
    by_cases hid : item.id ∈ ids <;> simp [hid]
  calc
    (s.turnAll ids .paused .queued).candidates =
        (s.table.items.map Item.id).filter (s.turnAll ids .paused .queued).waiting := by
      rw [candidates_eq_filter hcoherent.sound, hsame]
    _ = ((s.table.items.map Item.id).filter fun id => decide (id ∈ ids)).filter fun id =>
        !s.isBound id := by
      rw [List.filter_congr hwaits, List.filter_filter]
    _ = ids.filter fun id => !s.isBound id := by
      rw [filter_mem_of_sublist hpart h.sound.nodup]

theorem Coherent.admitted_turnAll (h : s.Coherent) (hsaturated : s.Saturated)
    (hpart : ids.Sublist (s.table.items.map Item.id)) (hids : s.AllPaused ids) :
    (s.turnAll ids .paused .queued).admitted =
      (ids.filter fun id => !s.isBound id).take s.slots := by
  have hslots : (s.turnAll ids .paused .queued).slots = s.slots := rfl
  rw [admitted, hslots]
  rcases hsaturated.slots_eq_zero_or h.sound with hfull | hnone
  · rw [hfull, List.take_zero, List.take_zero]
  · rw [h.candidates_turnAll hnone hpart hids]

theorem AllPaused.append_left {others : List ItemId} (h : s.AllPaused (ids ++ others)) :
    s.AllPaused ids :=
  fun id hmem => h id (List.mem_append_left others hmem)

/-- An admission between two items that wait again is a part of the one after both. -/
theorem retold_tick_resume (h : s.Coherent) (hsaturated : s.Saturated)
    (hpart : (ids ++ [id]).Sublist (s.table.items.map Item.id)) (hids : s.AllPaused (ids ++ [id])) :
    Retold (s.turnAll (ids ++ [id]) .paused .queued).tick
      ((s.turnAll ids .paused .queued).tick.turnAll [id] .paused .queued).tick := by
  have hfirst : ids.Sublist (s.table.items.map Item.id) :=
    (List.sublist_append_left ids [id]).trans hpart
  have hdistinct := h.sound.nodup.sublist hpart
  have hcoherent := h.turnAll_paused hdistinct hids
  have hnodup := nodup_turnAll h.sound.nodup ids .paused .queued
  have hadmitted := h.admitted_turnAll hsaturated hfirst hids.append_left
  have hadmitted' := h.admitted_turnAll hsaturated hpart hids
  obtain ⟨item, hget, hpaused⟩ := hids id (by simp)
  have hnew : id ∉ ids := by
    rw [List.nodup_append] at hdistinct
    exact fun hmem => hdistinct.2.2 id hmem id (by simp) rfl
  have hpaused' : (s.turnAll ids .paused .queued).table.get? id = some item :=
    (Table.get?_turn_of_not_mem s.table .queued hnew).trans hget
  rw [turnAll_append] at hcoherent hadmitted' ⊢
  generalize s.turnAll ids .paused .queued = w at hcoherent hnodup hadmitted hadmitted' hpaused' ⊢
  have hothers : ∀ other ∈ w.eligible.take w.slots, other.id ∉ [id] := by
    intro other hmem heq
    obtain ⟨hother, hqueued⟩ := get?_of_mem_eligible hnodup (List.mem_of_mem_take hmem)
    rw [List.mem_singleton] at heq
    rw [heq, hpaused', Option.some.injEq] at hother
    rw [← hother, hpaused] at hqueued
    cases hqueued
  apply retold_tick_tick (fun w => w.turnAll [id] .paused .queued) hnodup hcoherent
  · rw [hadmitted, hadmitted', List.filter_append]
    exact (List.prefix_append _ _).take s.slots
  · intro other hmem
    have hother := (get?_of_mem_eligible hnodup (List.mem_of_mem_take hmem)).1
    exact (Table.get?_turn_of_not_mem w.table .queued (hothers other hmem)).trans hother
  · exact retold_turnAll_engage w .paused .queued hothers

/-- The induction on the items that are left to resume: those before them were admitted as far as
there are slots, and more of the queue does not change who comes first. -/
theorem dispatchEach_resume (h : s.Coherent) (hsaturated : s.Saturated) {before after : List ItemId}
    (hpart : (before ++ after).Sublist (s.table.items.map Item.id))
    (hids : s.AllPaused (before ++ after))
    (hbefore : Retold (s.turnAll before .paused .queued).tick t) :
    ∃ u, t.dispatchEach ended (after.map .resume) = .done u (after.map fun _ => .ok .applied) ∧
      Retold (s.turnAll (before ++ after) .paused .queued).tick u := by
  induction after generalizing before t with
  | nil =>
    rw [List.append_nil]
    exact ⟨t, rfl, hbefore⟩
  | cons id after ih =>
    have hassoc : before ++ id :: after = (before ++ [id]) ++ after := by simp
    rw [hassoc] at hpart hids ⊢
    have hnext := (List.sublist_append_left (before ++ [id]) after).trans hpart
    -- one more item in the bulk is one more command
    have hstep := retold_tick_resume h hsaturated hnext hids.append_left
    obtain ⟨item, hget, hpaused⟩ := hids id (by simp)
    have hdistinct := h.sound.nodup.sublist hnext
    have hcoherent := h.turnAll_paused ((List.sublist_append_left before [id]).nodup hdistinct)
      hids.append_left.append_left
    have hnew : id ∉ before := by
      rw [List.nodup_append] at hdistinct
      exact fun hmem => hdistinct.2.2 id hmem id (by simp) rfl
    have hchain : Chain (fun _ _ => True) _ (s.turnAll before .paused .queued).tick :=
      chain_tick hcoherent
    have hticked := (hchain.coherent hcoherent).sound.nodup
    have hwaiting : (s.turnAll before .paused .queued).table.get? id = some item :=
      (Table.get?_turn_of_not_mem s.table .queued hnew).trans hget
    -- a paused item is not admitted, so it is still as it was
    have hfound : t.table.get? id = some item := by
      obtain ⟨later, hlater, rfl | ⟨hqueued, -⟩⟩ := get?_tick hcoherent.sound hwaiting
      · rw [hbefore.table_eq, hlater]
      · rw [hpaused] at hqueued
        cases hqueued
    have hfinds : t.Finds id item := ⟨hbefore.table_eq ▸ hticked, hfound⟩
    have hdispatched : t.dispatch (.resume id) ended =
        .done (t.turnAll [id] .paused .queued).tick (.ok .applied) := by
      rw [dispatch_resume hfound hpaused, setStatus_eq_turnAll hfinds (by simp [hpaused]) (by decide),
        hpaused]
    have hreached := hstep.trans ((hbefore.turnAll [id] .paused .queued).tick
      (nodup_turnAll hticked [id] .paused .queued))
    obtain ⟨u, hrest, hretold⟩ := ih hpart hids hreached
    exact ⟨u, dispatchEach_cons hdispatched hrest, hretold⟩

/-- A request is answered between two rounds, or after the messages that waited were handled. -/
def Poised (c : Controller) (t : Scheduler) : Prop :=
  ∃ s, Run (fun _ _ => True) c.scheduler s ∧ (t = s ∨ ∃ ended, s.drain = .done t ended)

variable {config : Config} {around : Surroundings} {c : Controller}

theorem Poised.orderly (h : Poised c t) (hstart : Controller.start config around = .started c) :
    t.Orderly := by
  obtain ⟨s, hrun, hround⟩ := h
  have horderly := Run.orderly hrun (Controller.orderly_of_start hstart)
  rcases hround with rfl | ⟨ended, hdrain⟩
  · exact horderly
  · exact orderly_drain horderly hdrain

theorem Poised.saturated (h : Poised c t) (hstart : Controller.start config around = .started c) :
    t.Saturated := by
  obtain ⟨s, hrun, hround⟩ := h
  have horderly := Run.orderly hrun (Controller.orderly_of_start hstart)
  have hsaturated := Run.saturated hrun (Controller.orderly_of_start hstart)
    (saturated_of_start hstart)
  rcases hround with rfl | ⟨ended, hdrain⟩
  · exact hsaturated
  · exact saturated_drain horderly hsaturated hdrain

/-- A pause admits nobody, so the pauses one by one take the very steps of the one command. -/
theorem Coherent.dispatch_pauseAll (h : s.Coherent) (ended : List ItemId) :
    ∃ t verdict verdicts, s.dispatch .pauseAll ended = .done t verdict ∧
      s.dispatchEach ended ((s.table.items.filter fun item =>
        item.status = .queued || item.status = .downloading).map fun item => .pause item.id) =
          .done t verdicts ∧
      ∀ verdict ∈ verdicts, verdict = .ok .applied := by
  have hids : ∀ id ∈ (s.table.items.filter fun item =>
      item.status = .queued || item.status = .downloading).map Item.id,
      s.Stands (fun status => status = .queued ∨ status = .downloading) id := by
    intro id hmem
    exact h.stands_of_mem_filter (fun item hkept => by simpa using hkept) hmem
  have heach : s.dispatchEach ended _ = _ :=
    dispatchEach_pause (h.sound.nodup.sublist (List.filter_sublist.map Item.id)) hids
  rw [List.map_map] at heach
  refine ⟨_, _, _, rfl, heach, ?_⟩
  intro verdict hmem
  obtain ⟨-, -, rfl⟩ := List.mem_map.mp hmem
  rfl

/-- To resume all at once or one after the other differs in the order of the events only: each
single command admits workers before the next one is answered. -/
theorem Coherent.dispatch_resumeAll (h : s.Coherent) (hsaturated : s.Saturated)
    (ended : List ItemId) :
    ∃ t u verdict verdicts, s.dispatch .resumeAll ended = .done t verdict ∧
      s.dispatchEach ended ((s.table.items.filter fun item => item.status = .paused).map
        fun item => .resume item.id) = .done u verdicts ∧
      Retold t u ∧ ∀ verdict ∈ verdicts, verdict = .ok .applied := by
  have hpart : (s.table.idsWithStatus .paused).Sublist (s.table.items.map Item.id) :=
    List.filter_sublist.map Item.id
  have hids : s.AllPaused (s.table.idsWithStatus .paused) := by
    intro id hmem
    obtain ⟨standing, hstanding, hpaused⟩ := h.stands_of_mem_filter
      (p := fun status => status = .paused) (fun item hkept => of_decide_eq_true hkept) hmem
    obtain ⟨item, hget, rfl⟩ := get?_of_standing? hstanding
    exact ⟨item, hget, hpaused⟩
  have hself : (s.turnAll [] .paused .queued).tick = s := by
    rw [turnAll_nil, hsaturated.tick_eq_self h.sound]
  have hresumed : s.resumeAll.1 =
      (s.turnAll (s.table.idsWithStatus .paused) .paused .queued).tick := by
    rw [← foldl_setStatus_eq_turnAll h.sound.nodup (h.sound.nodup.sublist hpart) hids (by decide)
      (by decide), resumeAll]
    split
    · next hnone =>
      rw [List.isEmpty_iff.mp hnone]
      exact (hsaturated.tick_eq_self h.sound).symm
    · rfl
  have hbulk : s.dispatch .resumeAll ended =
      .done s.resumeAll.1 (judge .resumeAll ended s.resumeAll.2) := rfl
  rw [hresumed] at hbulk
  have hreached : Retold (s.turnAll [] .paused .queued).tick s := by
    rw [hself]
    exact Retold.refl s
  obtain ⟨u, heach, hretold⟩ :
      ∃ u, s.dispatchEach ended ((s.table.idsWithStatus .paused).map .resume) = .done u _ ∧
        Retold (s.turnAll ([] ++ s.table.idsWithStatus .paused) .paused .queued).tick u :=
    dispatchEach_resume h hsaturated hpart hids hreached
  rw [Table.idsWithStatus, List.map_map] at heach
  refine ⟨_, u, _, _, hbulk, heach, hretold, ?_⟩
  intro verdict hmem
  obtain ⟨-, -, rfl⟩ := List.mem_map.mp hmem
  rfl

/-- **Commands on all items agree with commands on each.** Whenever a request can be answered,
pausing all items leaves exactly what pausing each queued or downloading one leaves, and resuming all
items leaves what resuming each paused one leaves, but for the order of the events. -/
theorem commands_agree (hstart : Controller.start config around = .started c) (hpoised : Poised c s)
    (ended : List ItemId) :
    (∃ t verdict verdicts, s.dispatch .pauseAll ended = .done t verdict ∧
      s.dispatchEach ended ((s.table.items.filter fun item =>
        item.status = .queued || item.status = .downloading).map fun item => .pause item.id) =
          .done t verdicts ∧
      ∀ verdict ∈ verdicts, verdict = .ok .applied) ∧
    (∃ t u verdict verdicts, s.dispatch .resumeAll ended = .done t verdict ∧
      s.dispatchEach ended ((s.table.items.filter fun item =>
        item.status = .paused).map fun item => .resume item.id) = .done u verdicts ∧
      Retold t u ∧ ∀ verdict ∈ verdicts, verdict = .ok .applied) := by
  have hcoherent := (hpoised.orderly hstart).coherent
  exact ⟨hcoherent.dispatch_pauseAll ended,
    hcoherent.dispatch_resumeAll (hpoised.saturated hstart) ended⟩

/-- One item is queued and the other one paused, and both still have their workers. -/
theorem commands_agree_twins :
    ∃ (c : Controller) (s : Scheduler),
      Controller.start roomyConfig ⟨twinFiles ⟨"/b"⟩, 0, .epoch, "", 0⟩ = .started c ∧
      Poised c s ∧
      (∃ t verdict verdicts, s.dispatch .pauseAll [] = .done t verdict ∧
        s.dispatchEach [] [.pause ⟨3⟩] = .done t verdicts) ∧
      ∃ t u verdict verdicts, s.dispatch .resumeAll [] = .done t verdict ∧
        s.dispatchEach [] [.resume ⟨4⟩] = .done u verdicts ∧ Retold t u := by
  obtain ⟨⟨c, hstart, hrun⟩, -⟩ := twins_run ⟨"/b"⟩ (by decide +kernel)
  have hpoised : Poised c (twinPause ⟨"/b"⟩).scheduler := ⟨_, hrun, .inl rfl⟩
  obtain ⟨⟨t, verdict, verdicts, hbulk, heach, -⟩, u, v, verdict', verdicts', hbulk', heach',
    hretold, -⟩ := commands_agree hstart hpoised []
  have hpauses : ((twinPause ⟨"/b"⟩).scheduler.table.items.filter fun item =>
      item.status = .queued || item.status = .downloading).map (fun item => Command.pause item.id) =
        [.pause ⟨3⟩] := by
    decide +kernel
  have hresumes : ((twinPause ⟨"/b"⟩).scheduler.table.items.filter fun item =>
      item.status = .paused).map (fun item => Command.resume item.id) = [.resume ⟨4⟩] := by
    decide +kernel
  rw [hpauses] at heach
  rw [hresumes] at heach'
  exact ⟨c, _, hstart, hpoised, ⟨t, verdict, verdicts, hbulk, heach⟩, u, v, verdict', verdicts',
    hbulk', heach', hretold⟩

end Scheduler

end DownloadQueue
