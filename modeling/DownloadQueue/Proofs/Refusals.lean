import DownloadQueue.Proofs.Saturation

namespace DownloadQueue

namespace Scheduler

variable {s t u : Scheduler} {item : Item} {command : Command} {verdict : Verdict}

def Effective : Verdict → Prop
  | .ok .applied | .ok (.removed _) => True
  | _ => False

inductive Declines (s : Scheduler) : Command → Verdict → Prop
  | unchanged (command : Command) : Declines s command (.ok .unchanged)
  | missing {command : Command} {id : ItemId} (htarget : command.target? = some id)
      (hget : s.table.get? id = none) : Declines s command (.error (.notFound id))
  | unfit {command : Command} {item : Item} (htarget : command.target? = some item.id)
      (hget : s.table.get? item.id = some item) :
      Declines s command (.error (.invalidTransition item.id command.name item.status))
  | noLimit : Declines s (.setMaxConcurrent 0) (.error zeroConcurrency)

theorem pause_or_declines (hget : s.table.get? item.id = some item) :
    Effective (s.pause item).2 ∨
      (s.pause item).1 = s ∧ s.Declines (.pause item.id) (s.pause item).2 := by
  rw [pause]
  split
  · exact .inl trivial
  · exact .inl trivial
  · exact .inr ⟨rfl, .unchanged _⟩
  · exact .inr ⟨rfl, .unfit rfl hget⟩

theorem resume_or_declines (hget : s.table.get? item.id = some item) :
    Effective (s.resume item).2 ∨
      (s.resume item).1 = s ∧ s.Declines (.resume item.id) (s.resume item).2 := by
  rw [resume]
  split
  · exact .inl trivial
  · exact .inr ⟨rfl, .unchanged _⟩
  · exact .inr ⟨rfl, .unchanged _⟩
  · exact .inr ⟨rfl, .unfit rfl hget⟩

theorem cancel_or_declines (hget : s.table.get? item.id = some item) :
    Effective (s.cancel item).2 ∨
      (s.cancel item).1 = s ∧ s.Declines (.cancel item.id) (s.cancel item).2 := by
  rw [cancel]
  split
  · exact .inl trivial
  · exact .inl trivial
  · exact .inl trivial
  · exact .inr ⟨rfl, .unfit rfl hget⟩

theorem delete_or_declines (hget : s.table.get? item.id = some item) :
    Effective (s.delete item).2 ∨
      (s.delete item).1 = s ∧ s.Declines (.delete item.id) (s.delete item).2 := by
  rw [delete]
  split
  · exact .inr ⟨rfl, .unfit rfl hget⟩
  · exact .inl trivial

theorem retry_or_declines (hget : s.table.get? item.id = some item)
    (hdone : s.retry item = .done t verdict) :
    Effective verdict ∨ t = s ∧ s.Declines (.retry item.id) verdict := by
  rw [retry] at hdone
  split at hdone
  · obtain ⟨u, ⟨⟩, -, hsame⟩ := Step.andThen_eq_done.mp hdone
    cases hsame
    exact .inl trivial
  · cases hdone
    exact .inr ⟨rfl, .unfit rfl hget⟩

theorem setMaxConcurrent_or_declines (s : Scheduler) (limit : UInt64) :
    Effective (s.setMaxConcurrent limit).2 ∨
      (s.setMaxConcurrent limit).1 = s ∧
        s.Declines (.setMaxConcurrent limit) (s.setMaxConcurrent limit).2 := by
  rw [setMaxConcurrent]
  split
  · next hzero =>
    subst hzero
    exact .inr ⟨rfl, .noLimit⟩
  · split
    · exact .inr ⟨rfl, .unchanged _⟩
    · exact .inl trivial

theorem setAutoDownload_or_declines (s : Scheduler) (enabled : Bool) :
    Effective (s.setAutoDownload enabled).2 ∨
      (s.setAutoDownload enabled).1 = s ∧
        s.Declines (.setAutoDownload enabled) (s.setAutoDownload enabled).2 := by
  rw [setAutoDownload]
  split
  · exact .inr ⟨rfl, .unchanged _⟩
  · exact .inl trivial

/-- To pause all of no items changes none. -/
theorem pauseAll_or_declines (s : Scheduler) :
    Effective s.pauseAll.2 ∨ s.pauseAll.1 = s ∧ s.Declines .pauseAll s.pauseAll.2 := by
  rw [pauseAll]
  cases (s.table.items.filter fun item => item.status = .queued || item.status = .downloading) with
  | nil => exact .inr ⟨rfl, .unchanged _⟩
  | cons item items => exact .inl trivial

theorem resumeAll_or_declines (s : Scheduler) :
    Effective s.resumeAll.2 ∨ s.resumeAll.1 = s ∧ s.Declines .resumeAll s.resumeAll.2 := by
  rw [resumeAll]
  split
  · exact .inr ⟨rfl, .unchanged _⟩
  · exact .inl trivial

theorem plain_or_declines {ran : Scheduler × Verdict} (hdone : plain ran = .done t verdict)
    (h : Effective ran.2 ∨ ran.1 = s ∧ s.Declines command ran.2) :
    Effective verdict ∨ t = s ∧ s.Declines command verdict := by
  cases hdone
  exact h

theorem onItem_or_declines {id : ItemId} {operation : Item → Step Verdict}
    (htarget : command.target? = some id) (hdone : s.onItem id operation = .done t verdict)
    (h : ∀ item, s.table.get? item.id = some item → item.id = id →
      operation item = .done t verdict → Effective verdict ∨ t = s ∧ s.Declines command verdict) :
    Effective verdict ∨ t = s ∧ s.Declines command verdict := by
  rw [onItem] at hdone
  split at hdone
  · next hnone =>
    cases hdone
    exact .inr ⟨rfl, .missing htarget hnone⟩
  · next item hget =>
    obtain rfl := Table.id_of_get? hget
    exact h item hget rfl hdone

/-- A command has an effect, or it leaves the scheduler alone and says why. -/
theorem apply_or_declines (hdone : s.apply command = .done t verdict) :
    Effective verdict ∨ t = s ∧ s.Declines command verdict := by
  cases command with
  | pause id =>
    refine onItem_or_declines rfl hdone fun item hget hid hplain => ?_
    subst hid
    exact plain_or_declines hplain (pause_or_declines hget)
  | resume id =>
    refine onItem_or_declines rfl hdone fun item hget hid hplain => ?_
    subst hid
    exact plain_or_declines hplain (resume_or_declines hget)
  | retry id =>
    refine onItem_or_declines rfl hdone fun item hget hid hretried => ?_
    subst hid
    exact retry_or_declines hget hretried
  | cancel id =>
    refine onItem_or_declines rfl hdone fun item hget hid hplain => ?_
    subst hid
    exact plain_or_declines hplain (cancel_or_declines hget)
  | delete id =>
    refine onItem_or_declines rfl hdone fun item hget hid hplain => ?_
    subst hid
    exact plain_or_declines hplain (delete_or_declines hget)
  | deleteFinished =>
    cases hdone
    exact .inl trivial
  | purge =>
    cases hdone
    exact .inl trivial
  | pauseAll => exact plain_or_declines hdone s.pauseAll_or_declines
  | resumeAll => exact plain_or_declines hdone s.resumeAll_or_declines
  | setMaxConcurrent limit => exact plain_or_declines hdone (s.setMaxConcurrent_or_declines limit)
  | setAutoDownload enabled => exact plain_or_declines hdone (s.setAutoDownload_or_declines enabled)

/-- The item of a command that came too late, with what its transfer came to. -/
structure Superseded (s : Scheduler) (command : Command) (ended : List ItemId) (item : Item) :
    Prop where
  command : command = .pause item.id ∨ command = .cancel item.id
  ended : item.id ∈ ended
  get? : s.table.get? item.id = some item

theorem judge_eq_self_of_effective (h : Effective verdict) (ended : List ItemId) :
    judge command ended verdict = verdict := by
  unfold judge
  split
  · cases h
  · rfl

/-- A command that is declined is answered as before, unless the transfer it was meant for has just
ended. -/
theorem Declines.judge (h : s.Declines command verdict) (ended : List ItemId) :
    s.Declines command (judge command ended verdict) ∨
      ∃ item, s.Superseded command ended item ∧
        Scheduler.judge command ended verdict = .ok (.superseded item.status) := by
  cases h with
  | unchanged => exact .inl (.unchanged _)
  | missing htarget hget => exact .inl (.missing htarget hget)
  | @unfit _ item htarget hget =>
    rw [Scheduler.judge]
    split
    · next hlate =>
      refine .inr ⟨item, ⟨?_, hlate.2, hget⟩, rfl⟩
      cases command with
      | pause id => exact .inl (congrArg Command.pause (Option.some_inj.mp htarget))
      | cancel id => exact .inr (congrArg Command.cancel (Option.some_inj.mp htarget))
      | _ => cases hlate.1
    · exact .inl (.unfit htarget hget)
  | noLimit => exact .inl .noLimit

/-- A command that is dispatched has an effect, or it leaves the scheduler alone. -/
theorem dispatch_or_declines {ended : List ItemId}
    (hdone : s.dispatch command ended = .done t verdict) :
    Effective verdict ∨ t = s ∧ (s.Declines command verdict ∨
      ∃ item, s.Superseded command ended item ∧ verdict = .ok (.superseded item.status)) := by
  obtain ⟨u, applied, happlied, hjudged⟩ := Step.andThen_eq_done.mp hdone
  cases hjudged
  rcases apply_or_declines happlied with heffective | ⟨rfl, hdeclines⟩
  · rw [judge_eq_self_of_effective heffective]
    exact .inl heffective
  · exact .inr ⟨rfl, hdeclines.judge ended⟩

inductive Unaccepted (s : Scheduler) (url : String) : QueueError → Prop
  | address (reason : String) : Unaccepted s url (.invalidUrl url reason)
  | destination (error : IoError) : Unaccepted s url (.io error)
  | taken {destination : Path} (htaken : s.destinationTaken destination = true) :
      Unaccepted s url (.duplicate destination)

theorem validateUrl_eq_error {url : String} {error : QueueError} (h : validateUrl url = .error error) :
    ∃ reason, error = .invalidUrl url reason := by
  rw [validateUrl] at h
  split at h
  · cases h
    exact ⟨_, rfl⟩
  · split at h
    · cases h
    · cases h
      exact ⟨_, rfl⟩

/-- Every error of an admission has its reason, and the reason is true. -/
theorem newDestination_eq_error {url : String} {given : Path} {error : QueueError}
    (h : s.newDestination url given = .error error) : s.Unaccepted url error := by
  rw [newDestination] at h
  cases hvalid : validateUrl url with
  | error refused =>
    rw [hvalid] at h
    cases h
    obtain ⟨reason, rfl⟩ := validateUrl_eq_error hvalid
    exact .address reason
  | ok parsed =>
    rw [hvalid] at h
    dsimp only [bind, Except.bind] at h
    split at h
    · cases h
      exact .destination _
    · split at h
      · next htaken =>
        cases h
        exact .taken htaken
      · cases h

/-- An enqueueing that is refused leaves the scheduler alone, its next number included. -/
theorem enqueue_eq_error {url : String} {destination : Path} {error : QueueError}
    (hdone : s.enqueue url destination = .done t (.error error)) :
    t = s ∧ s.Unaccepted url error := by
  rw [enqueue] at hdone
  split at hdone
  · next refused hrefused =>
    cases hdone
    exact ⟨rfl, newDestination_eq_error hrefused⟩
  · obtain ⟨u, id, -, hadded⟩ := Step.andThen_eq_done.mp hdone
    cases hadded

/-- The items that come out of the messages that waited are those of the endings among them. -/
theorem ended_of_drain {ended : List ItemId} (hdrain : s.drain = .done t ended) :
    ended = (s.inbox.filter Message.isEnding).map Message.id := by
  rw [drain] at hdrain
  generalize s.inbox = messages at hdrain ⊢
  induction messages generalizing s ended with
  | nil =>
    cases hdrain
    rfl
  | cons message messages ih =>
    obtain ⟨v, ⟨⟩, -, hrest⟩ := Step.andThen_eq_done.mp hdrain
    obtain ⟨w, ids, hmessages, hsame⟩ := Step.andThen_eq_done.mp hrest
    cases hsame
    rw [ih hmessages]
    cases hending : message.isEnding <;> simp [hending]

def Rejected : Except QueueError Reply → Prop
  | .error _ | .ok (.dispatched .unchanged) | .ok (.dispatched (.superseded _)) => True
  | _ => False

theorem not_effective_of_rejected (h : Rejected (verdict.map .dispatched)) : ¬ Effective verdict := by
  intro heffective
  match verdict, heffective with
  | .ok .applied, _ => exact h
  | .ok (.removed _), _ => exact h

/-- The answer to a request that is rejected finds the scheduler as it leaves it, but for the
commit. -/
theorem commit_of_answer {ended : List ItemId} {request : Request} (hgoes : request ≠ .shutdown)
    {reply : Except QueueError Reply} (hdone : s.answer ended request = .done t reply)
    (h : Rejected reply) : s.commit = .done t () := by
  cases request with
  | enqueue url destination =>
    obtain ⟨u, result, hadded, hcommit, rfl⟩ := eq_of_replyAfterCommit hdone
    cases result with
    | ok id => cases h
    | error error =>
      obtain ⟨rfl, -⟩ := enqueue_eq_error hadded
      exact hcommit
  | addAll entries =>
    obtain ⟨u, result, hadded, -, rfl⟩ := eq_of_replyAfterCommit hdone
    obtain ⟨v, count, -, hcount⟩ := Step.andThen_eq_done.mp hadded
    cases hcount
    cases h
  | dispatch command =>
    obtain ⟨u, verdict, hdispatched, hcommit, rfl⟩ := eq_of_replyAfterCommit hdone
    rcases dispatch_or_declines hdispatched with heffective | ⟨rfl, -⟩
    · exact absurd heffective (not_effective_of_rejected h)
    · exact hcommit
  | shutdown => exact absurd rfl hgoes

/-- Whatever messages wait: once they are handled, an enqueueing that is refused and a command
without effect leave the scheduler as it is, and the round ends with a commit. Only a pause or a
cancellation is superseded, by the status of its item, and only if the ending of that item was among
the messages. -/
theorem unmoved_of_rejected (s : Scheduler) (messages : List Message) {t : Scheduler}
    {ended : List ItemId} (hdrain : ({ s with inbox := messages } : Scheduler).drain = .done t ended) :
    (∀ url destination u error, t.enqueue url destination = .done u (.error error) →
      u = t ∧ t.Unaccepted url error) ∧
    (∀ command u verdict, t.dispatch command ended = .done u verdict → ¬ Effective verdict →
      u = t ∧ (t.Declines command verdict ∨ ∃ status, verdict = .ok (.superseded status))) ∧
    (∀ command u status, t.dispatch command ended = .done u (.ok (.superseded status)) →
      ∃ id, (command = .pause id ∨ command = .cancel id) ∧
        (∃ message ∈ messages, message.isEnding = true ∧ message.id = id) ∧
        (t.table.get? id).map Item.status = some status) ∧
    ∀ request u reply, request ≠ .shutdown →
      ({ s with inbox := messages } : Scheduler).request request = .done u reply → Rejected reply →
      t.commit = .done u () := by
  refine ⟨fun url destination u error => enqueue_eq_error, ?_, ?_, ?_⟩
  · intro command u verdict hdispatched hidle
    rcases dispatch_or_declines hdispatched with heffective | ⟨rfl, hdeclines | ⟨item, -, hverdict⟩⟩
    · exact absurd heffective hidle
    · exact ⟨rfl, .inl hdeclines⟩
    · exact ⟨rfl, .inr ⟨item.status, hverdict⟩⟩
  · intro command u status hdispatched
    rcases dispatch_or_declines hdispatched with heffective | ⟨rfl, hdeclines | ⟨item, hlate, heq⟩⟩
    · cases heffective
    · cases hdeclines
    · cases heq
      refine ⟨item.id, hlate.command, ?_, by rw [hlate.get?]; rfl⟩
      have hended := hlate.ended
      rw [ended_of_drain hdrain] at hended
      obtain ⟨message, hmessage, hid⟩ := List.mem_map.mp hended
      obtain ⟨hmem, hending⟩ := List.mem_filter.mp hmessage
      exact ⟨message, hmem, hending, hid⟩
  · intro request u reply hgoes hdone hrejected
    obtain ⟨v, found, hfound, hanswer⟩ := Step.andThen_eq_done.mp hdone
    rw [hdrain] at hfound
    cases hfound
    exact commit_of_answer hgoes hanswer hrejected

def completedRound : Scheduler :=
  { roomyLaunch.scheduler with inbox := [⟨⟨3⟩, .ended .completed⟩] }

/-- The pause comes too late, and it leaves the finished item alone. -/
theorem unmoved_of_rejected_completed :
    ∃ t u, completedRound.drain = .done t [⟨3⟩] ∧
      t.dispatch (.pause ⟨3⟩) [⟨3⟩] = .done u (.ok (.superseded .finished)) ∧ u = t ∧
      (t.table.get? ⟨3⟩).map Item.status = some .finished := by
  have hended : completedRound.drain.result.toOption = some [⟨3⟩] := by decide +kernel
  obtain ⟨ended, hdrain⟩ := Step.exists_eq_done_of_isOk
    (by decide +kernel : completedRound.drain.result.isOk = true)
  rw [hdrain] at hended
  cases hended
  have hdispatched : (completedRound.drain.scheduler.dispatch (.pause ⟨3⟩) [⟨3⟩]) = .done
      (completedRound.drain.scheduler.dispatch (.pause ⟨3⟩) [⟨3⟩]).scheduler
      (.ok (.superseded .finished)) := by
    refine Step.eq_done_iff.mpr ⟨rfl, ?_⟩
    decide +kernel
  obtain ⟨-, hcommand, hlate, -⟩ := unmoved_of_rejected roomyLaunch.scheduler
    [⟨⟨3⟩, .ended .completed⟩] hdrain
  obtain ⟨hsame, -⟩ := hcommand _ _ _ hdispatched id
  obtain ⟨id, hpause, -, hstatus⟩ := hlate _ _ _ hdispatched
  rcases hpause with hpause | hpause <;> cases hpause
  exact ⟨_, _, hdrain, hdispatched, hsame, hstatus⟩

end Scheduler

end DownloadQueue
