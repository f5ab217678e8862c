import DownloadQueue.Proofs.Lifecycle

/-!
# Messages and the workers that sent them

A worker sends any number of reports and then one ending, all for its item and all over one channel.
Messages carry the number of the item and not that of the admission. Nevertheless, whenever the
scheduler handles a message, the worker that sent it is bound to the item: no worker is unbound
before its ending is heard, and nothing of an earlier worker is left when the next one is admitted.
-/

namespace DownloadQueue

structure Worker where
  seq : Nat
  request : FetchRequest
  deriving DecidableEq

def Worker.ticket (worker : Worker) : Nat × ItemId :=
  (worker.seq, worker.request.id)

def Duty.ticket (duty : Duty) : Nat × ItemId :=
  (duty.seq, duty.id)

def enlist (first : Nat) : List FetchRequest → List Worker
  | [] => []
  | request :: requests => ⟨first, request⟩ :: enlist (first + 1) requests

theorem enlist_append (first : Nat) (requests others : List FetchRequest) :
    enlist first (requests ++ others) =
      enlist first requests ++ enlist (first + requests.length) others := by
  induction requests generalizing first with
  | nil => rfl
  | cons request requests ih =>
    rw [List.cons_append, enlist, enlist, ih, List.length_cons, List.cons_append]
    congr 3
    omega

theorem le_of_mem_enlist {first : Nat} {requests : List FetchRequest} {worker : Worker}
    (h : worker ∈ enlist first requests) :
    first ≤ worker.seq ∧ worker.seq < first + requests.length := by
  induction requests generalizing first with
  | nil => cases h
  | cons request requests ih =>
    rw [List.length_cons]
    rcases List.mem_cons.mp h with rfl | h
    · exact ⟨Nat.le_refl first, by dsimp only; omega⟩
    · have hrest := ih h
      omega

theorem request_mem_of_mem_enlist {first : Nat} {requests : List FetchRequest} {worker : Worker}
    (h : worker ∈ enlist first requests) : worker.request ∈ requests := by
  induction requests generalizing first with
  | nil => cases h
  | cons request requests ih =>
    rcases List.mem_cons.mp h with rfl | h
    · exact List.mem_cons_self
    · exact List.mem_cons_of_mem _ (ih h)

theorem nodup_enlist (first : Nat) (requests : List FetchRequest) :
    ((enlist first requests).map Worker.seq).Nodup := by
  induction requests generalizing first with
  | nil => exact List.nodup_nil
  | cons request requests ih =>
    rw [enlist, List.map_cons, List.nodup_cons]
    refine ⟨fun hmem => ?_, ih (first + 1)⟩
    obtain ⟨worker, hworker, hseq⟩ := List.mem_map.mp hmem
    have hle := le_of_mem_enlist hworker
    dsimp only at hseq
    omega

namespace Scheduler

variable {heard : ItemId → Ending → Prop} {s t u : Scheduler} {id : ItemId}

/-! ## Admissions -/

structure Grows (s t : Scheduler) (begun : List FetchRequest) : Prop where
  fetches : t.fetches = s.fetches ++ begun
  admissions : t.admissions = s.admissions + begun.length
  tickets : t.duties.map Duty.ticket =
    s.duties.map Duty.ticket ++ (enlist (s.admissions + 1) begun).map Worker.ticket

theorem Grows.of_eq (hfetches : t.fetches = s.fetches) (hadmissions : t.admissions = s.admissions)
    (htickets : t.duties.map Duty.ticket = s.duties.map Duty.ticket) : Grows s t [] where
  fetches := by rw [hfetches, List.append_nil]
  admissions := hadmissions
  tickets := by rw [htickets, enlist, List.map_nil, List.append_nil]

theorem Grows.trans {begun more : List FetchRequest} (h : Grows s t begun) (h' : Grows t u more) :
    Grows s u (begun ++ more) where
  fetches := by rw [h'.fetches, h.fetches, List.append_assoc]
  admissions := by rw [h'.admissions, h.admissions, List.length_append, Nat.add_assoc]
  tickets := by
    rw [h'.tickets, h.tickets, h.admissions, enlist_append, List.map_append, List.append_assoc,
      Nat.add_right_comm]

theorem Grows.mem_tickets {begun : List FetchRequest} (h : Grows s t begun) {ticket : Nat × ItemId}
    (hmem : ticket ∈ s.duties.map Duty.ticket) : ticket ∈ t.duties.map Duty.ticket := by
  rw [h.tickets, List.mem_append]
  exact .inl hmem

theorem fetches_setStatus (s : Scheduler) (id : ItemId) (status : Status) :
    (s.setStatus id status).fetches = s.fetches := by
  rw [setStatus_eq]

theorem admissions_setStatus (s : Scheduler) (id : ItemId) (status : Status) :
    (s.setStatus id status).admissions = s.admissions := by
  rw [setStatus_eq]

theorem grows_setStatus (s : Scheduler) (id : ItemId) (status : Status) :
    Grows s (s.setStatus id status) [] :=
  .of_eq (fetches_setStatus s id status) (admissions_setStatus s id status)
    (by rw [duties_setStatus])

theorem grows_stopTransfer (s : Scheduler) (id : ItemId) (reason : StopReason) :
    Grows s (s.stopTransfer id reason) [] := by
  refine .of_eq rfl rfl ?_
  rw [duties_stopTransfer, List.map_map]
  refine List.map_congr_left fun duty _ => ?_
  rw [Function.comp_apply]
  split <;> rfl

theorem Alike.grows (h : Alike s t) : Grows s t [] :=
  .of_eq h.fetches h.admissions (by rw [h.duties])

theorem grows_discardPartial (s : Scheduler) (id : ItemId) : Grows s (s.discardPartial id) [] := by
  cases hget : s.table.get? id with
  | none =>
    rw [discardPartial, hget]
    exact .of_eq rfl rfl rfl
  | some item =>
    have halike := discardPartial_alike hget
    exact .of_eq halike.fetches halike.admissions (by rw [duties_discardPartial])

theorem grows_startTransfer {item : Item} (hget : s.table.get? id = some item) :
    Grows s (s.startTransfer id) [s.fetchOf item.standing] where
  fetches := by rw [startTransfer_eq hget, fetches_setStatus]
  admissions := by
    rw [startTransfer_eq hget, admissions_setStatus]
    rfl
  tickets := by
    rw [duties_startTransfer hget, List.map_append]
    have hid : item.id = id := Table.id_of_get? hget
    subst hid
    rfl

/-- As long as no ending is heard, no worker is gone. -/
theorem Change.grows (hchange : Change (fun _ _ => False) s t) : ∃ begun, Grows s t begun := by
  cases hchange with
  | note halike => exact ⟨_, halike.grows⟩
  | save => exact ⟨[], .of_eq rfl rfl rfl⟩
  | close => exact ⟨[], .of_eq rfl rfl rfl⟩
  | engage hget hqueued hfree hroom hopen => exact ⟨_, grows_startTransfer hget⟩
  | stop hduty hstanding hlive hsuits =>
    exact ⟨_, (grows_stopTransfer _ _ _).trans (grows_setStatus _ _ _)⟩
  | restop hduty hstop hreason => exact ⟨_, grows_stopTransfer _ _ _⟩
  | shift hstanding hlive hstatus hfree hcomplete => exact ⟨_, grows_setStatus _ _ _⟩
  | discard hget hfree hlive hpartial => exact ⟨_, grows_discardPartial _ _⟩
  | finish hduty hheard halike hstatus => exact hheard.elim
  | leave hduty hheard hstop => exact hheard.elim
  | clear hduty hheard hstop hdiscards => exact hheard.elim
  | add hnext hid hresolved htaken hstatus => exact ⟨[], .of_eq rfl rfl rfl⟩
  | drop hkeep => exact ⟨[], .of_eq rfl rfl rfl⟩
  | relimit hroom => exact ⟨[], .of_eq rfl rfl rfl⟩

theorem Chain.grows (hchain : Chain (fun _ _ => False) s t) : ∃ begun, Grows s t begun := by
  induction hchain with
  | refl => exact ⟨[], .of_eq rfl rfl rfl⟩
  | tail _ hchange ih =>
    obtain ⟨begun, hgrows⟩ := ih
    obtain ⟨more, hmore⟩ := hchange.grows
    exact ⟨begun ++ more, hgrows.trans hmore⟩

/-- Settling an ending admits nobody and frees no further slot. -/
theorem grows_settle (s : Scheduler) (id : ItemId) (stop : Option StopReason) (ending : Ending) :
    Grows s (s.settle id stop ending).scheduler [] := by
  have hfinish : Grows s (s.finish id) [] := by
    rw [finish]
    refine Grows.trans (Alike.grows ?_) (grows_setStatus _ _ _)
    exact alike_modifyItem _ _ _ fun _ => rfl
  have happly (reason : StopReason) : Grows s (s.applyStop id reason) [] := by
    rw [applyStop]
    split
    · exact grows_discardPartial s id
    · exact (alike_reconcile s id).grows
  have hrequeue : Grows s ((s.setStatus id .queued).reconcile id) [] :=
    (grows_setStatus s id .queued).trans (alike_reconcile _ _).grows
  have hfail (reason : String) (retryable : Bool) :
      Grows s (s.fail id reason retryable).scheduler [] :=
    (grows_setStatus s id .failed).trans (alike_fail s id reason retryable).grows
  cases stop with
  | none =>
    cases ending with
    | completed => exact hfinish
    | failed reason retryable => exact hfail reason retryable
    | cancelled => exact hrequeue
  | some reason =>
    have hstop := happly reason
    cases ending with
    | completed =>
      cases reason with
      | delete => exact .of_eq rfl rfl rfl
      | _ => exact hfinish
    | failed message retryable => cases reason <;> exact hstop
    | cancelled => cases reason <;> exact hstop

/-- An ending that is heard unbinds its worker; then others may be admitted. -/
theorem grows_handleEnding (h : s.Coherent) {duty : Duty} (hduty : s.duty? id = some duty)
    (ending : Ending) : ∃ begun, Grows (s.unbind id) (s.handleEnding id ending).scheduler begun := by
  have hchain : Chain (fun _ _ => True) s _ := chain_settle hduty ending trivial
  have hcoherent := hchain.coherent h
  rw [duty?, Option.map_eq_some_iff] at hduty
  obtain ⟨binding, hbinding, rfl⟩ := hduty
  have hsettle := grows_settle (s.unbind id) id binding.stop ending
  simp only [handleEnding, hbinding, Step.andThen]
  split
  · have hquiet : Chain (fun _ _ => False) _ _ := chain_tick hcoherent
    obtain ⟨begun, htick⟩ := hquiet.grows
    exact ⟨[] ++ begun, hsettle.trans htick⟩
  · exact ⟨[], hsettle⟩

theorem inbox_setStatus (s : Scheduler) (id : ItemId) (status : Status) :
    (s.setStatus id status).inbox = s.inbox := by
  rw [setStatus_eq]

theorem inbox_discardPartial (s : Scheduler) (id : ItemId) :
    (s.discardPartial id).inbox = s.inbox := by
  cases hget : s.table.get? id with
  | none => rw [discardPartial, hget]
  | some item => exact (discardPartial_alike hget).inbox

/-- No change touches the messages that wait. -/
theorem Change.inbox (hchange : Change heard s t) : t.inbox = s.inbox := by
  cases hchange with
  | note halike => exact halike.inbox
  | save => rfl
  | close => rfl
  | engage hget hqueued hfree hroom hopen => rw [startTransfer_eq hget, inbox_setStatus]
  | stop hduty hstanding hlive hsuits => exact inbox_setStatus _ _ _
  | restop hduty hstop hreason => rfl
  | shift hstanding hlive hstatus hfree hcomplete => exact inbox_setStatus _ _ _
  | discard hget hfree hlive hpartial => exact inbox_discardPartial _ _
  | finish hduty hheard halike hstatus => exact (inbox_setStatus _ _ _).trans halike.inbox
  | leave hduty hheard hstop => rfl
  | clear hduty hheard hstop hdiscards => exact inbox_discardPartial _ _
  | add hnext hid hresolved htaken hstatus => rfl
  | drop hkeep => rfl
  | relimit hroom => rfl

/-- No change of the scheduler touches the messages that wait. -/
theorem Chain.inbox (hchain : Chain heard s t) : t.inbox = s.inbox := by
  induction hchain with
  | refl => rfl
  | tail _ hchange ih => exact hchange.inbox.trans ih

end Scheduler

/-! ## The world of the scheduler and its workers -/

structure World where
  scheduler : Scheduler
  workers : List Worker
  channel : List (Nat × Message)

namespace World

def advance (w : World) (scheduler : Scheduler) : World :=
  { w with
    scheduler
    workers := w.workers ++ enlist (w.scheduler.fetches.length + 1)
      (scheduler.fetches.drop w.scheduler.fetches.length) }

def start (config : Config) (table : Table) (files : FileSystem) (now : Timestamp)
    (share : Float) : World :=
  let scheduler := Scheduler.ofTable config table files now share
  advance ⟨scheduler, [], []⟩ scheduler.restore

def send (w : World) (worker : Worker) (report : Report) : World :=
  let message : Message := ⟨worker.request.id, report⟩
  { w with
    scheduler := w.scheduler.receive message
    channel := w.channel ++ [(worker.seq, message)] }

def taken (w : World) (rest : List (Nat × Message)) : Scheduler :=
  { w.scheduler with inbox := rest.map Prod.snd }

def handle (w : World) (message : Message) (rest : List (Nat × Message)) : World :=
  { w with channel := rest }.advance ((w.taken rest).handleMessage message).scheduler

inductive Step : World → Option (Nat × Message) → World → Prop
  | operate (w : World) (operation : Scheduler.Operation) :
    Step w none (w.advance (w.scheduler.operate operation))
  | beginShutdown (w : World) : Step w none (w.advance w.scheduler.beginShutdown)
  | outside (w : World) (files : FileSystem) (clock : Nat) (now : Timestamp) (share : Float) :
    Step w none { w with scheduler := { w.scheduler with files, clock, now, share } }
  | report {w : World} {worker : Worker} (hmem : worker ∈ w.workers) (progress : Progress) :
    Step w none (w.send worker (.progress progress))
  | finish {w : World} {worker : Worker} {before after : List Worker}
      (hworkers : w.workers = before ++ worker :: after) (ending : Ending) :
    Step w none { w.send worker (.ended ending) with workers := before ++ after }
  | hear {w : World} {seq : Nat} {message : Message} {rest : List (Nat × Message)}
      (hchannel : w.channel = (seq, message) :: rest) :
    Step w (some (seq, message)) (w.handle message rest)

def Reachable : World → World → Prop :=
  Relation.ReflTransGen fun w w' => ∃ label, Step w label w'

def ticketOf (entry : Nat × Message) : Option (Nat × ItemId) :=
  if entry.2.isEnding then some (entry.1, entry.2.id) else none

/-- The admissions whose ending was not handled yet: the worker still runs, or its ending waits. -/
def owed (workers : List Worker) (channel : List (Nat × Message)) : List (Nat × ItemId) :=
  workers.map Worker.ticket ++ channel.filterMap ticketOf

/-- Every worker is bound until its ending is handled, and every message comes from a worker that
owes its ending or sends it with this message or later. -/
structure Attributed (w : World) : Prop where
  coherent : w.scheduler.Coherent
  inbox : w.scheduler.inbox = w.channel.map Prod.snd
  counted : w.scheduler.fetches.length = w.scheduler.admissions
  seqs : (w.scheduler.duties.map Duty.seq).Nodup ∧
    ∀ duty ∈ w.scheduler.duties, duty.seq ≤ w.scheduler.admissions
  owed : (owed w.workers w.channel).Perm (w.scheduler.duties.map Duty.ticket)
  sourced : ∀ first entry rest, w.channel = first ++ entry :: rest →
    (entry.1, entry.2.id) ∈ World.owed w.workers (entry :: rest)

variable {w w' : World}

theorem mem_owed {workers : List Worker} {channel : List (Nat × Message)} {ticket : Nat × ItemId} :
    ticket ∈ World.owed workers channel ↔
      ticket ∈ workers.map Worker.ticket ∨ ticket ∈ channel.filterMap ticketOf :=
  List.mem_append

/-- A ticket stays owed when messages come in behind and workers come in. -/
theorem mem_owed_append {workers : List Worker} {channel : List (Nat × Message)}
    {ticket : Nat × ItemId} (more : List Worker) (others : List (Nat × Message)) (h : ticket ∈ World.owed workers channel) :
    ticket ∈ World.owed (workers ++ more) (channel ++ others) := by
  rw [mem_owed, List.map_append, List.filterMap_append, List.mem_append, List.mem_append]
  exact (mem_owed.mp h).imp .inl .inl

/-- New workers owe their endings from the moment of their admission. -/
theorem Attributed.grow (h : w.Attributed) {t : Scheduler} {begun : List FetchRequest}
    (hgrows : w.scheduler.Grows t begun) (hcoherent : t.Coherent)
    (hinbox : t.inbox = w.scheduler.inbox) : (w.advance t).Attributed := by
  have hbegun : t.fetches.drop w.scheduler.fetches.length = begun := by
    rw [hgrows.fetches, List.drop_left]
  have hadvance : w.advance t =
      { w with scheduler := t, workers := w.workers ++ enlist (w.scheduler.admissions + 1) begun } := by
    rw [advance, hbegun, h.counted]
  -- the new bindings are numbered on from the old ones, in the order of their fetches
  have hseqs : t.duties.map Duty.seq = w.scheduler.duties.map Duty.seq ++
      (enlist (w.scheduler.admissions + 1) begun).map Worker.seq := by
    have hfirst := congrArg (List.map Prod.fst) hgrows.tickets
    rw [List.map_map, List.map_append, List.map_map, List.map_map] at hfirst
    exact hfirst
  rw [hadvance]
  refine ⟨hcoherent, hinbox.trans h.inbox, ?_, ⟨?_, ?_⟩, ?_, ?_⟩
  · change t.fetches.length = t.admissions
    rw [hgrows.fetches, hgrows.admissions, List.length_append, h.counted]
  · change (t.duties.map Duty.seq).Nodup
    rw [hseqs, List.nodup_append]
    refine ⟨h.seqs.1, nodup_enlist _ _, fun seq hold other hnew heq => ?_⟩
    obtain ⟨duty, hduty, rfl⟩ := List.mem_map.mp hold
    obtain ⟨worker, hworker, rfl⟩ := List.mem_map.mp hnew
    have hle := h.seqs.2 duty hduty
    have hlt := (le_of_mem_enlist hworker).1
    omega
  · intro duty hduty
    change duty.seq ≤ t.admissions
    have hmem : duty.seq ∈ t.duties.map Duty.seq := List.mem_map_of_mem hduty
    rw [hgrows.admissions]
    rw [hseqs, List.mem_append] at hmem
    rcases hmem with hold | hnew
    · obtain ⟨before, hbefore, heq⟩ := List.mem_map.mp hold
      have hle := h.seqs.2 before hbefore
      omega
    · obtain ⟨worker, hworker, heq⟩ := List.mem_map.mp hnew
      have hlt := (le_of_mem_enlist hworker).2
      omega
  -- new workers come behind the old ones but before the endings that wait
  · change (World.owed (w.workers ++ enlist (w.scheduler.admissions + 1) begun) w.channel).Perm
      (t.duties.map Duty.ticket)
    rw [hgrows.tickets, World.owed, List.map_append, List.append_assoc]
    refine List.Perm.trans ?_ (h.owed.append_right _)
    rw [World.owed, List.append_assoc]
    exact List.Perm.append_left _ List.perm_append_comm
  · intro first entry rest hchannel
    have hmem := mem_owed_append (enlist (w.scheduler.admissions + 1) begun) []
      (h.sourced first entry rest hchannel)
    rwa [List.append_nil] at hmem

/-- An entry of a list with distinct numbers and the others are the list. -/
theorem perm_cons_filter {duties : List Duty} (hnodup : (duties.map Duty.id).Nodup) {duty : Duty}
    (hmem : duty ∈ duties) :
    duties.Perm (duty :: duties.filter fun other => other.id ≠ duty.id) := by
  induction duties with
  | nil => cases hmem
  | cons first rest ih =>
    rw [List.map_cons, List.nodup_cons] at hnodup
    rcases List.mem_cons.mp hmem with rfl | hrest
    · rw [List.filter_cons_of_neg (by simp), List.filter_eq_self.mpr]
      intro other hother
      rw [decide_eq_true_eq]
      exact fun heq => hnodup.1 (heq ▸ List.mem_map_of_mem hother)
    · have hne : first.id ≠ duty.id := fun heq => hnodup.1 (heq ▸ List.mem_map_of_mem hrest)
      rw [List.filter_cons_of_pos (by simpa using hne)]
      exact ((ih hnodup.2 hrest).cons first).trans (List.Perm.swap _ _ _)

/-- The worker that sent the oldest message is bound to its item. -/
theorem Attributed.duty? (h : w.Attributed) {seq : Nat} {message : Message}
    {rest : List (Nat × Message)} (hchannel : w.channel = (seq, message) :: rest) :
    ∃ duty, w.scheduler.duty? message.id = some duty ∧ duty.seq = seq := by
  have hmem := h.sourced [] (seq, message) rest hchannel
  rw [← hchannel, h.owed.mem_iff] at hmem
  obtain ⟨duty, hduty, hticket⟩ := List.mem_map.mp hmem
  obtain ⟨rfl, hid⟩ := Prod.mk.inj hticket
  exact ⟨duty, hid ▸ h.coherent.duty?_of_mem hduty, rfl⟩

/-- When an ending is taken off the channel, its worker is the one that is unbound. -/
theorem Attributed.unbind (h : w.Attributed) {seq : Nat} {id : ItemId} {ending : Ending}
    {rest : List (Nat × Message)} (hchannel : w.channel = (seq, ⟨id, .ended ending⟩) :: rest) :
    (World.mk ((w.taken rest).unbind id) w.workers rest).Attributed := by
  obtain ⟨duty, hduty, hseq⟩ := h.duty? hchannel
  have hmem := Scheduler.mem_of_duty? hduty
  have hid : duty.id = id := Scheduler.id_of_duty? hduty
  have hfilter : ((w.taken rest).unbind id).duties =
      w.scheduler.duties.filter fun other => other.id ≠ id := Scheduler.duties_unbind _ _
  refine ⟨Scheduler.Coherent.unbind (s := w.taken rest)
    ⟨h.coherent.sound, h.coherent.nodup, h.coherent.fits⟩ id, rfl, h.counted, ⟨?_, ?_⟩, ?_, ?_⟩
  · dsimp only
    rw [hfilter]
    exact h.seqs.1.sublist (List.filter_sublist.map _)
  · intro other hother
    dsimp only at hother
    rw [hfilter] at hother
    exact h.seqs.2 other (List.mem_of_mem_filter hother)
  · have howed := h.owed
    have hperm := (perm_cons_filter h.coherent.nodup hmem).map Duty.ticket
    have hticket : ticketOf (seq, ⟨id, .ended ending⟩) = some duty.ticket := by
      rw [← hseq, ← hid]
      rfl
    rw [hchannel, World.owed, List.filterMap_cons_some hticket] at howed
    rw [hid] at hperm
    dsimp only
    rw [hfilter]
    exact (List.perm_middle.symm.trans (howed.trans hperm)).cons_inv
  · intro first entry others hsplit
    exact h.sourced ((seq, ⟨id, .ended ending⟩) :: first) entry others
      (hchannel.trans (congrArg _ hsplit))

/-- The oldest message is from the worker that is bound, so its item is not mistaken for another. -/
theorem Attributed.handle (h : w.Attributed) {seq : Nat} {message : Message}
    {rest : List (Nat × Message)} (hchannel : w.channel = (seq, message) :: rest) :
    (w.handle message rest).Attributed := by
  have hcoherent : (w.taken rest).Coherent :=
    ⟨h.coherent.sound, h.coherent.nodup, h.coherent.fits⟩
  have hchain : Scheduler.Chain (fun _ _ => True) (w.taken rest) _ :=
    Scheduler.chain_handleMessage hcoherent message fun _ _ => trivial
  obtain ⟨id, report⟩ := message
  cases report with
  | progress progress =>
    have htaken : (World.mk (w.taken rest) w.workers rest).Attributed := by
      refine ⟨hcoherent, rfl, h.counted, h.seqs, ?_, fun first entry others hsplit => ?_⟩
      · have howed := h.owed
        rw [hchannel, World.owed, List.filterMap_cons_none (by rfl)] at howed
        exact howed
      · exact h.sourced ((seq, ⟨id, .progress progress⟩) :: first) entry others
          (hchannel.trans (congrArg _ hsplit))
    have halike := Scheduler.alike_handleProgress (w.taken rest) id progress
    exact htaken.grow halike.grows (hchain.coherent hcoherent) halike.inbox
  | ended ending =>
    obtain ⟨duty, hduty, -⟩ := h.duty? hchannel
    obtain ⟨begun, hgrows⟩ :=
      Scheduler.grows_handleEnding (s := w.taken rest) hcoherent hduty ending
    exact (h.unbind hchannel).grow hgrows (hchain.coherent hcoherent) hchain.inbox

/-- A split of a list with a new entry at its end is one of the list, or the entry is the last. -/
theorem split_append_singleton {α : Type} {entries first rest : List α} {new entry : α}
    (h : entries ++ [new] = first ++ entry :: rest) :
    (∃ others, entries = first ++ entry :: others ∧ rest = others ++ [new]) ∨
      entry = new ∧ rest = [] := by
  rcases List.eq_nil_or_concat rest with rfl | ⟨others, last, rfl⟩
  · exact .inr ⟨(List.append_inj_right' h rfl |> List.cons.inj).1.symm, rfl⟩
  · left
    have hassoc : entries ++ [new] = (first ++ entry :: others) ++ [last] := by
      rw [h]
      simp
    obtain ⟨hentries, hlast⟩ := List.append_inj' hassoc rfl
    exact ⟨others, hentries, by rw [List.concat_eq_append, (List.cons.inj hlast).1]⟩

/-- A report does not settle what its worker owes. -/
theorem Attributed.report (h : w.Attributed) {worker : Worker} (hmem : worker ∈ w.workers)
    (progress : Progress) : (w.send worker (.progress progress)).Attributed := by
  refine ⟨⟨h.coherent.sound, h.coherent.nodup, h.coherent.fits⟩, ?_, h.counted, h.seqs, ?_, ?_⟩
  · change w.scheduler.inbox ++ _ = _
    rw [h.inbox, send, List.map_append]
    rfl
  · have hnone : ticketOf (worker.seq, ⟨worker.request.id, .progress progress⟩) = none := rfl
    rw [send, World.owed, List.filterMap_append, List.filterMap_cons_none hnone, List.filterMap_nil,
      List.append_nil]
    exact h.owed
  · intro first entry rest hsplit
    rcases split_append_singleton hsplit with ⟨others, hchannel, rfl⟩ | ⟨rfl, rfl⟩
    · have hold := mem_owed_append []
        [(worker.seq, (⟨worker.request.id, .progress progress⟩ : Message))]
        (h.sourced first entry others hchannel)
      rwa [List.append_nil] at hold
    · exact mem_owed.mpr (.inl (List.mem_map_of_mem hmem))

/-- The ending of a worker is owed by the channel once the worker is gone. -/
theorem Attributed.finish (h : w.Attributed) {worker : Worker} {before after : List Worker}
    (hworkers : w.workers = before ++ worker :: after) (ending : Ending) :
    ({ w.send worker (.ended ending) with workers := before ++ after } : World).Attributed := by
  have hticket : ticketOf (worker.seq, ⟨worker.request.id, .ended ending⟩) = some worker.ticket := rfl
  -- The ticket leaves the workers and comes in behind the channel.
  have hperm (channel : List (Nat × Message)) :
      (World.owed (before ++ after)
        (channel ++ [(worker.seq, ⟨worker.request.id, .ended ending⟩)])).Perm
      (World.owed (before ++ worker :: after) channel) := by
    rw [World.owed, World.owed, List.filterMap_append, List.filterMap_cons_some hticket,
      List.filterMap_nil, ← List.append_assoc]
    refine List.perm_append_comm.trans ?_
    rw [List.singleton_append, ← List.cons_append]
    refine List.Perm.append_right _ ?_
    rw [List.map_append, List.map_append, List.map_cons]
    exact List.perm_middle.symm
  refine ⟨⟨h.coherent.sound, h.coherent.nodup, h.coherent.fits⟩, ?_, h.counted, h.seqs, ?_, ?_⟩
  · change w.scheduler.inbox ++ _ = _
    rw [h.inbox, send, List.map_append]
    rfl
  · have howed := h.owed
    rw [hworkers] at howed
    exact (hperm w.channel).trans howed
  · intro first entry rest hsplit
    rcases split_append_singleton hsplit with ⟨others, hchannel, rfl⟩ | ⟨rfl, rfl⟩
    · have hold := h.sourced first entry others hchannel
      rw [hworkers] at hold
      exact (hperm (entry :: others)).mem_iff.mpr hold
    · exact mem_owed.mpr (.inr (List.mem_filterMap.mpr ⟨_, List.mem_singleton_self _, hticket⟩))

/-- As long as no ending is heard, what the scheduler does keeps the messages attributed. -/
theorem Attributed.chain (h : w.Attributed) {t : Scheduler}
    (hchain : Scheduler.Chain (fun _ _ => False) w.scheduler t) : (w.advance t).Attributed := by
  obtain ⟨begun, hgrows⟩ := hchain.grows
  exact h.grow hgrows (hchain.coherent h.coherent) hchain.inbox

/-- Every step keeps the messages attributed. -/
theorem Step.attributed {label : Option (Nat × Message)} (hstep : Step w label w')
    (h : w.Attributed) : w'.Attributed := by
  cases hstep with
  | operate operation => exact h.chain (Scheduler.chain_operate h.coherent operation)
  | beginShutdown => exact h.chain (Scheduler.chain_beginShutdown h.coherent)
  | outside files clock now share =>
    exact ⟨⟨h.coherent.sound, h.coherent.nodup, h.coherent.fits⟩, h.inbox, h.counted, h.seqs, h.owed,
      h.sourced⟩
  | report hmem progress => exact h.report hmem progress
  | finish hworkers ending => exact h.finish hworkers ending
  | hear hchannel => exact h.handle hchannel

/-- A table that is about to be brought into operation has no workers and no messages. -/
theorem attributed_ofTable (config : Config) {table : Table} (hsound : table.Sound)
    (files : FileSystem) (now : Timestamp) (share : Float) (clock : Nat) :
    (World.mk { Scheduler.ofTable config table files now share with clock } [] []).Attributed := by
  refine ⟨Scheduler.Coherent.of_active_eq_nil hsound rfl, rfl, rfl,
    ⟨List.nodup_nil, fun duty hmem => absurd hmem List.not_mem_nil⟩, List.Perm.refl _, ?_⟩
  intro first entry rest hsplit
  exact absurd hsplit.symm (by simp)

theorem attributed_start (config : Config) {table : Table} (hsound : table.Sound)
    (files : FileSystem) (now : Timestamp) (share : Float) :
    (start config table files now share).Attributed :=
  (attributed_ofTable config hsound files now share 0).chain (Scheduler.chain_restore hsound rfl)

theorem Reachable.attributed (hreach : Reachable w w') (h : w.Attributed) : w'.Attributed := by
  induction hreach with
  | refl => exact h
  | tail _ hstep ih =>
    obtain ⟨label, hstep⟩ := hstep
    exact hstep.attributed ih

/-! ## Bindings and their endings -/

/-- The worker of an ending that is owed is bound. -/
theorem Attributed.bound (h : w.Attributed) {ticket : Nat × ItemId}
    (hmem : ticket ∈ World.owed w.workers w.channel) :
    w.scheduler.duty? ticket.2 ≠ none ∧ ticket.1 ≤ w.scheduler.admissions := by
  obtain ⟨duty, hduty, rfl⟩ := List.mem_map.mp (h.owed.mem_iff.mp hmem)
  refine ⟨?_, h.seqs.2 duty hduty⟩
  rw [Duty.ticket, h.coherent.duty?_of_mem hduty]
  exact Option.some_ne_none duty

theorem Attributed.bound_of_worker (h : w.Attributed) {worker : Worker} (hmem : worker ∈ w.workers) :
    w.scheduler.duty? worker.request.id ≠ none ∧ worker.seq ≤ w.scheduler.admissions :=
  h.bound (mem_owed.mpr (.inl (List.mem_map_of_mem hmem)))

theorem Attributed.bound_of_ending (h : w.Attributed) {entry : Nat × Message}
    (hmem : entry ∈ w.channel) (hending : entry.2.isEnding = true) :
    w.scheduler.duty? entry.2.id ≠ none := by
  have hticket : ticketOf entry = some (entry.1, entry.2.id) := if_pos hending
  exact (h.bound (mem_owed.mpr (.inr (List.mem_filterMap.mpr ⟨entry, hmem, hticket⟩)))).1

/-- No two endings that are owed have one number or are for one item. -/
theorem Attributed.nodup_owed (h : w.Attributed) :
    ((World.owed w.workers w.channel).map Prod.fst).Nodup ∧
      ((World.owed w.workers w.channel).map Prod.snd).Nodup := by
  have hseqs := h.owed.map Prod.fst
  have hids := h.owed.map Prod.snd
  rw [List.map_map] at hseqs hids
  exact ⟨hseqs.nodup_iff.mpr h.seqs.1, hids.nodup_iff.mpr h.coherent.nodup⟩

theorem Attributed.worker_eq (h : w.Attributed) {worker other : Worker} (hworker : worker ∈ w.workers)
    (hother : other ∈ w.workers)
    (hsame : other.seq = worker.seq ∨ other.request.id = worker.request.id) : other = worker := by
  obtain ⟨hseqs, hids⟩ := h.nodup_owed
  rw [World.owed, List.map_append, List.map_map] at hseqs hids
  rcases hsame with hseq | hid
  · exact List.inj_on_of_nodup_map (List.nodup_append.mp hseqs).1 hother hworker hseq
  · exact List.inj_on_of_nodup_map (List.nodup_append.mp hids).1 hother hworker hid

theorem Attributed.id_ne_of_ending (h : w.Attributed) {worker : Worker} (hworker : worker ∈ w.workers)
    {entry : Nat × Message} (hmem : entry ∈ w.channel) (hending : entry.2.isEnding = true) :
    entry.2.id ≠ worker.request.id := by
  have hids := h.nodup_owed.2
  have hticket : ticketOf entry = some (entry.1, entry.2.id) := if_pos hending
  have hentry : (entry.1, entry.2.id) ∈ w.channel.filterMap ticketOf :=
    List.mem_filterMap.mpr ⟨entry, hmem, hticket⟩
  rw [World.owed, List.map_append, List.map_map, List.nodup_append] at hids
  exact fun heq => hids.2.2 _ (List.mem_map_of_mem hworker) _ (List.mem_map_of_mem hentry) heq.symm

/-- The worker whose ending is the oldest message has neither a successor nor another ending. -/
theorem Attributed.ne_of_ending (h : w.Attributed) {seq : Nat} {id : ItemId} {ending : Ending}
    {rest : List (Nat × Message)} (hchannel : w.channel = (seq, ⟨id, .ended ending⟩) :: rest) :
    (∀ worker ∈ w.workers, worker.request.id ≠ id) ∧
      ∀ entry ∈ rest, entry.2.isEnding = true → entry.2.id ≠ id := by
  have hunbound := h.unbind hchannel
  have hne {other : ItemId} (hbound : ((w.taken rest).unbind id).duty? other ≠ none) : other ≠ id := by
    intro heq
    rw [Scheduler.duty?_unbind, if_pos heq] at hbound
    exact hbound rfl
  exact ⟨fun worker hmem => hne (hunbound.bound_of_worker hmem).1,
    fun entry hmem hending => hne (hunbound.bound_of_ending hmem hending)⟩

/-- A worker stays bound in every step but the one in which its own ending is handled. -/
theorem Attributed.kept_or_ended (h : w.Attributed) {label : Option (Nat × Message)}
    (hstep : Step w label w') {duty : Duty} (hduty : duty ∈ w.scheduler.duties) :
    duty.ticket ∈ w'.scheduler.duties.map Duty.ticket ∨
      ∃ ending, label = some (duty.seq, ⟨duty.id, .ended ending⟩) := by
  have hticket : duty.ticket ∈ w.scheduler.duties.map Duty.ticket := List.mem_map_of_mem hduty
  cases hstep with
  | operate operation =>
    obtain ⟨begun, hgrows⟩ := (Scheduler.chain_operate h.coherent operation).grows
    exact .inl (hgrows.mem_tickets hticket)
  | beginShutdown =>
    obtain ⟨begun, hgrows⟩ := (Scheduler.chain_beginShutdown h.coherent).grows
    exact .inl (hgrows.mem_tickets hticket)
  | outside files clock now share => exact .inl hticket
  | report hmem progress => exact .inl hticket
  | finish hworkers ending => exact .inl hticket
  | @hear seq message rest hchannel =>
    obtain ⟨id, report⟩ := message
    cases report with
    | progress progress =>
      have halike := Scheduler.alike_handleProgress (w.taken rest) id progress
      exact .inl (halike.grows.mem_tickets hticket)
    | ended ending =>
      have hcoherent : (w.taken rest).Coherent :=
        ⟨h.coherent.sound, h.coherent.nodup, h.coherent.fits⟩
      obtain ⟨sender, hsender, hseq⟩ := h.duty? hchannel
      -- an item has one worker at most, so an ending for the item is the ending of this worker
      by_cases heq : duty.id = id
      · have hsame := h.coherent.duty?_of_mem hduty
        rw [heq, hsender] at hsame
        cases hsame
        exact .inr ⟨ending, by rw [hseq, heq]⟩
      · obtain ⟨begun, hgrows⟩ :=
          Scheduler.grows_handleEnding (s := w.taken rest) hcoherent hsender ending
        refine .inl (hgrows.mem_tickets (List.mem_map_of_mem ?_))
        rw [Scheduler.duties_unbind, List.mem_filter]
        exact ⟨hduty, by simpa using heq⟩

/-- When an ending was handled, nothing is left of its admission. -/
theorem Attributed.gone (h : w.Attributed) {seq : Nat} {id : ItemId} {ending : Ending}
    {rest : List (Nat × Message)} (hchannel : w.channel = (seq, ⟨id, .ended ending⟩) :: rest)
    {duty : Duty} (hduty : duty ∈ (w.handle ⟨id, .ended ending⟩ rest).scheduler.duties) :
    duty.seq ≠ seq := by
  have hcoherent : (w.taken rest).Coherent :=
    ⟨h.coherent.sound, h.coherent.nodup, h.coherent.fits⟩
  obtain ⟨sender, hsender, rfl⟩ := h.duty? hchannel
  have hmem := Scheduler.mem_of_duty? hsender
  obtain ⟨begun, hgrows⟩ :=
    Scheduler.grows_handleEnding (s := w.taken rest) hcoherent hsender ending
  have hticket : duty.ticket ∈ (w.handle ⟨id, .ended ending⟩ rest).scheduler.duties.map
      Duty.ticket := List.mem_map_of_mem hduty
  have htickets : (w.handle ⟨id, .ended ending⟩ rest).scheduler.duties.map Duty.ticket = _ :=
    hgrows.tickets
  rw [htickets, List.mem_append] at hticket
  rcases hticket with hold | hnew
  · obtain ⟨before, hbefore, heq⟩ := List.mem_map.mp hold
    rw [Scheduler.duties_unbind, List.mem_filter] at hbefore
    obtain ⟨hseq, hid⟩ := Prod.mk.inj heq
    intro hsame
    have hother : before = sender :=
      List.inj_on_of_nodup_map h.seqs.1 hbefore.1 hmem (hseq.trans hsame)
    have hne : before.id ≠ id := by simpa using hbefore.2
    exact hne (hother ▸ Scheduler.id_of_duty? hsender)
  · obtain ⟨worker, hworker, heq⟩ := List.mem_map.mp hnew
    have hlt : w.scheduler.admissions + 1 ≤ worker.seq := (le_of_mem_enlist hworker).1
    have hle := h.seqs.2 sender hmem
    have hseq : worker.seq = duty.seq := (Prod.mk.inj heq).1
    omega

/-- What a step does to workers and their messages. -/
structure Accountable (w : World) (label : Option (Nat × Message)) (w' : World) : Prop where
  distinct : (w.scheduler.active.map Binding.seq).Nodup
  sender : ∀ seq message, label = some (seq, message) →
    ∃ binding, w.scheduler.binding? message.id = some binding ∧ binding.seq = seq
  owing : ∀ binding ∈ w.scheduler.active,
    (∃ worker ∈ w.workers, worker.seq = binding.seq ∧ worker.request.id = binding.id) ∨
      ∃ ending, (binding.seq, ⟨binding.id, .ended ending⟩) ∈ w.channel
  kept : ∀ binding ∈ w.scheduler.active,
    (∃ other ∈ w'.scheduler.active, other.seq = binding.seq ∧ other.id = binding.id) ∨
      ∃ ending, label = some (binding.seq, ⟨binding.id, .ended ending⟩)
  gone : ∀ seq id ending, label = some (seq, ⟨id, .ended ending⟩) →
    ∀ binding ∈ w'.scheduler.active, binding.seq ≠ seq

/-- What the invariant says of one step of the world. -/
theorem Attributed.accountable (h : w.Attributed) {label : Option (Nat × Message)}
    (hstep : Step w label w') : Accountable w label w' where
  distinct := by
    have hseqs := h.seqs.1
    rw [Scheduler.duties, List.map_map] at hseqs
    exact hseqs
  sender seq message hlabel := by
    subst hlabel
    cases hstep with
    | hear hchannel =>
      obtain ⟨duty, hduty, rfl⟩ := h.duty? hchannel
      obtain ⟨binding, hbinding, rfl⟩ := Option.map_eq_some_iff.mp hduty
      exact ⟨binding, hbinding, rfl⟩
  owing binding hmem := by
    have hticket : binding.duty.ticket ∈ World.owed w.workers w.channel :=
      h.owed.mem_iff.mpr (List.mem_map_of_mem (List.mem_map_of_mem hmem))
    rcases mem_owed.mp hticket with hworker | hentry
    · obtain ⟨worker, hworker, heq⟩ := List.mem_map.mp hworker
      exact .inl ⟨worker, hworker, Prod.mk.inj heq⟩
    · obtain ⟨⟨seq, id, report⟩, hentry, heq⟩ := List.mem_filterMap.mp hentry
      cases report with
      | progress progress => cases heq
      | ended ending =>
        cases heq
        exact .inr ⟨ending, hentry⟩
  kept binding hmem := by
    refine (h.kept_or_ended hstep (List.mem_map_of_mem hmem)).imp (fun hticket => ?_) fun hlabel =>
      hlabel
    obtain ⟨duty, hduty, heq⟩ := List.mem_map.mp hticket
    obtain ⟨other, hother, rfl⟩ := List.mem_map.mp hduty
    exact ⟨other, hother, Prod.mk.inj heq⟩
  gone seq id ending hlabel binding hmem := by
    subst hlabel
    cases hstep with
    | hear hchannel => exact h.gone hchannel (List.mem_map_of_mem hmem)

/-- In every run up to the moment when workers are given up on, every message is handled for the
worker that sent it, and a worker is unbound by its own ending and by nothing else. -/
theorem accountable_of_reachable (config : Config) {table : Table} (hsound : table.Sound)
    (files : FileSystem) (now : Timestamp) (share : Float)
    (hreach : Reachable (start config table files now share) w) {label : Option (Nat × Message)}
    (hstep : Step w label w') : Accountable w label w' :=
  (hreach.attributed (attributed_start config hsound files now share)).accountable hstep

def waitingTable : Table :=
  ⟨[Item.new ⟨1⟩ "http://h/a" ⟨"/d/a"⟩ .epoch], 2⟩

theorem sound_waitingTable : waitingTable.Sound :=
  ⟨by decide, by decide⟩

/-- The item gets a worker, is paused and resumed, and the ending of its worker is handled. -/
theorem accountable_of_reachable_waiting :
    waitingTable.Sound ∧ ∃ w w', Reachable (start {} waitingTable .empty .epoch 0) w ∧
      Step w (some (1, ⟨⟨1⟩, .ended .cancelled⟩)) w' ∧
      Accountable w (some (1, ⟨⟨1⟩, .ended .cancelled⟩)) w' := by
  let w₀ := start {} waitingTable .empty .epoch 0
  let w₁ := w₀.advance (w₀.scheduler.operate .tick)
  let w₂ := w₁.advance (w₁.scheduler.operate (.dispatch (.pause ⟨1⟩) []))
  let w₃ := w₂.advance (w₂.scheduler.operate (.dispatch (.resume ⟨1⟩) []))
  let worker : Worker := ⟨1, ⟨⟨1⟩, "http://h/a", ⟨"/d/a"⟩, 0⟩⟩
  have hworkers : w₃.workers = [] ++ worker :: [] := by decide +kernel
  have hstep := Step.finish hworkers .cancelled
  let w₄ : World := { w₃.send worker (.ended .cancelled) with workers := [] }
  have hchannel : w₄.channel = (1, ⟨⟨1⟩, .ended .cancelled⟩) :: [] := by decide +kernel
  have hreach : Reachable w₀ w₄ :=
    (((Relation.ReflTransGen.single ⟨_, .operate w₀ .tick⟩).tail
      ⟨_, .operate w₁ (.dispatch (.pause ⟨1⟩) [])⟩).tail
        ⟨_, .operate w₂ (.dispatch (.resume ⟨1⟩) [])⟩).tail ⟨_, hstep⟩
  exact ⟨sound_waitingTable, w₄, _, hreach, .hear hchannel,
    accountable_of_reachable {} sound_waitingTable .empty .epoch 0 hreach (.hear hchannel)⟩

end World

end DownloadQueue
