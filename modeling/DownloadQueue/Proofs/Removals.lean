import DownloadQueue.Proofs.Records
import DownloadQueue.Proofs.Strokes

namespace DownloadQueue

namespace Scheduler

variable {may : Deed → Prop} {s t : Scheduler} {id other : ItemId} {a : Path} {setting : Setting}

/-- Files change where a partial file is removed, or where others touch them. -/
theorem Stroke.files_of_not_discard (hstroke : Stroke may s t) (hmay : ¬ may .discard) :
    t.files = s.files := by
  have hcancelTimer (s : Scheduler) (id : ItemId) : (s.cancelTimer id).files = s.files :=
    (alike_cancelTimer s id).files
  cases hstroke with
  | aside haside => exact haside.files
  | shift => exact files_setStatus _ _ _
  | halt => exact hcancelTimer _ _
  | discard hdiscard => exact absurd hdiscard hmay
  | fail => exact files_setStatus _ _ _
  | schedule => exact hcancelTimer _ _
  | again => exact files_setStatus _ _ _
  | _ => rfl

theorem Strokes.files_of_not_discard (hstrokes : Strokes may s t) (hmay : ¬ may .discard) :
    t.files = s.files := by
  induction hstrokes with
  | refl => rfl
  | tail _ hstroke ih => exact (hstroke.files_of_not_discard hmay).trans ih

theorem files_addItem (s : Scheduler) (url : String) (destination : Path) (status : Option Status) :
    (s.addItem url destination status).scheduler.files = s.files := by
  rw [addItem]
  split
  · rfl
  · dsimp only
    split <;> rfl

theorem files_andThen {α β : Type} {step : Step α} {next : Scheduler → α → Step β}
    (hnext : ∀ value, (next step.scheduler value).scheduler.files = step.scheduler.files) :
    (step.andThen next).scheduler.files = step.scheduler.files := by
  rw [Step.andThen]
  split
  · exact hnext _
  · rfl

theorem files_enqueue (s : Scheduler) (url : String) (destination : Path) :
    (s.enqueue url destination).scheduler.files = s.files := by
  rw [enqueue]
  split
  · rfl
  · exact (files_andThen fun _ => files_tick _).trans (files_addItem s url _ none)

theorem files_addEntries (count : Nat) (entries : List TextQueue.Entry) (s : Scheduler) :
    (s.addEntries count entries).scheduler.files = s.files := by
  induction entries generalizing s count with
  | nil => rfl
  | cons entry entries ih =>
    rw [addEntries]
    split
    · exact ih count s
    · exact (files_andThen fun _ => ih _ _).trans (files_addItem s entry.url _ entry.status)

theorem files_addAll (s : Scheduler) (entries : List TextQueue.Entry) :
    (s.addAll entries).scheduler.files = s.files := by
  refine (files_andThen fun count => ?_).trans (files_addEntries 0 entries s)
  change (ite _ _ _ : Scheduler).files = _
  split
  · exact files_tick _
  · rfl

/-- Only a cancellation or a deletion removes files. -/
theorem files_apply (h : s.Coherent) {command : Command}
    (hkeeps : ∀ id, command ≠ .cancel id ∧ command ≠ .delete id) :
    (s.apply command).scheduler.files = s.files := by
  have hstrokes : Strokes (fun deed => deed ≠ .discard) s (s.apply command).scheduler := by
    refine strokes_apply h (fun id hdiscards => ?_) fun id _ => by simp
    rcases hdiscards with heq | heq
    · exact absurd heq (hkeeps id).1
    · exact absurd heq (hkeeps id).2
  exact hstrokes.files_of_not_discard fun hne => hne rfl

/-- A commit writes the queue file at most. -/
theorem files_commit (s : Scheduler) :
    s.commit.scheduler.files = s.files ∨ s.commit.scheduler.files = s.persist.1.files := by
  have hdropped (t : Scheduler) : t.dropDeleted.2.files = t.files :=
    (alike_foldl_emit (fun item : Item => .removed item.id) _ _).files
  change s.saveChanges.publish.scheduler.files = _ ∨ s.saveChanges.publish.scheduler.files = _
  rw [(alike_publish s.saveChanges).files, saveChanges]
  split
  · generalize s.persist = saved
    obtain ⟨saved, result⟩ := saved
    cases result with
    | ok => exact .inr (hdropped _)
    | error error => exact .inr rfl
  · exact .inl rfl

/-- The file of an item stays when that of another one is removed. -/
theorem Lodged.content?_removePartial (h : s.Lodged setting) (ha : s.Holds id a) {b : Path}
    (hb : s.Holds other b) (hne : id ≠ other) :
    ((s.files.removePartial b).toOption.getD s.files).content? a = s.files.content? a :=
  h.content?_of_edits (FileSystem.edits_removePartial h.sound b).1 ha (h.placeOf_ne ha hb hne)

/-- To cancel an item leaves the file of every other item alone. -/
theorem Lodged.content?_cancel (h : s.Lodged setting) (ha : s.Holds id a) {item : Item}
    (hget : s.table.get? item.id = some item) (hne : id ≠ item.id) :
    (s.cancel item).1.files.content? a = s.files.content? a := by
  have hwaiting (hlive : item.status ≠ .deleted) :
      ((if s.isBound item.id then s.stopTransfer item.id .cancel
        else s.discardPartial item.id).setStatus item.id .queued).tick.files.content? a =
        s.files.content? a := by
    rw [files_tick, files_setStatus]
    split
    · rfl
    · rw [files_discardPartial hget]
      exact h.content?_removePartial ha ⟨_, standing?_of_get? hget, rfl, .inl hlive⟩ hne
  rw [cancel]
  split
  · rw [files_setStatus]
    rfl
  · next hstatus => exact hwaiting (by simp [hstatus])
  · next hstatus => exact hwaiting (by simp [hstatus])
  · rfl

/-- To delete an item leaves the file of every other item alone. -/
theorem Lodged.content?_delete (h : s.Lodged setting) (ha : s.Holds id a) {item : Item}
    (hget : s.table.get? item.id = some item) (hne : id ≠ item.id) :
    (s.delete item).1.files.content? a = s.files.content? a := by
  have hhalted : (s.cancelTimer item.id).files = s.files := (alike_cancelTimer s item.id).files
  rw [delete]
  split
  · rfl
  · next hlive =>
    change (Scheduler.setStatus _ _ _).files.content? a = _
    rw [files_setStatus]
    split
    · exact congrArg (FileSystem.content? · a) hhalted
    · split
      · rw [hhalted]
      · rw [files_discardPartial ((table_cancelTimer s item.id).symm ▸ hget), hhalted]
        exact h.content?_removePartial ha ⟨_, standing?_of_get? hget, rfl, .inl hlive⟩ hne

/-- An ending leaves the files alone or removes that of its item. -/
theorem files_settle (s : Scheduler) (id : ItemId) (stop : Option StopReason) (ending : Ending) :
    (s.settle id stop ending).scheduler.files = s.files ∨
      ∃ item, s.table.get? id = some item ∧ (s.settle id stop ending).scheduler.files =
        (s.files.removePartial item.destination).toOption.getD s.files := by
  have happly (reason : StopReason) : (s.applyStop id reason).files = s.files ∨
      ∃ item, s.table.get? id = some item ∧ (s.applyStop id reason).files =
        (s.files.removePartial item.destination).toOption.getD s.files := by
    rw [applyStop]
    split
    · cases hget : s.table.get? id with
      | none => exact .inl (by rw [discardPartial, hget])
      | some item => exact .inr ⟨item, rfl, files_discardPartial hget⟩
    · exact .inl (files_reconcile s id)
  cases stop with
  | none =>
    left
    cases ending with
    | completed => exact files_finish s id
    | failed reason retryable =>
      exact (alike_fail s id reason retryable).files.trans (files_setStatus s id .failed)
    | cancelled => exact (files_reconcile _ id).trans (files_setStatus s id .queued)
  | some reason =>
    rw [settle_of_stop]
    change (s.settled id reason ending).files = _ ∨
      ∃ item, _ ∧ (s.settled id reason ending).files = _
    unfold settled
    split
    · split
      · exact .inl rfl
      · exact .inl (files_finish s id)
    · exact happly reason

/-- So does the ending of its worker. -/
theorem Lodged.content?_handleEnding (h : s.Lodged setting) (ha : s.Holds id a) (hne : id ≠ other)
    (ending : Ending) :
    (s.handleEnding other ending).scheduler.files.content? a = s.files.content? a := by
  rw [handleEnding]
  split
  · rfl
  · next binding hbinding =>
    have hbound : s.duty? other ≠ none := by
      rw [duty?, hbinding]
      exact Option.some_ne_none _
    rw [files_andThen fun _ => files_tick _]
    rcases files_settle (s.unbind other) other binding.stop ending with
      hsame | ⟨item, hget, hremoved⟩
    · rw [hsame]
      rfl
    · rw [hremoved]
      exact h.content?_removePartial ha ⟨_, standing?_of_get? hget, rfl, .inr hbound⟩ hne

/-- Nothing stands at a path after a removal that does not fail. -/
theorem content?_removed {files : FileSystem} (hremoves : (files.removePartial a).isOk = true) :
    ((files.removePartial a).toOption.getD files).content? a = none := by
  cases hremove : files.removePartial a with
  | ok removed => exact FileSystem.content?_of_removePartial_eq_ok hremove
  | error error =>
    rw [hremove] at hremoves
    cases hremoves

end Scheduler

end DownloadQueue
