import DownloadQueue.Proofs.Fetch
import DownloadQueue.Proofs.FileSystem.Directories

/-!
# What a fetch reports is what it leaves

Servers may answer whatever they like, and a fetch may be stopped at any moment. It asks twice at
most. What it reports is in step with its file: without a report the file is as it was; otherwise the
file was cut to the offset that was reported first, the bytes of the body follow, and the last number
that was reported is its length. Only a file that is too long for the counter gets a last piece that
is not reported.
-/

namespace DownloadQueue

namespace FileSystem

variable {fs other made : FileSystem} {place : Place} {path : Path} {content : List UInt8}

/-- What is written to a file that can be opened is read from it, whatever path leads there. -/
theorem content?_put (h : fs.Sound) (hopen : fs.openPlace path = .ok (place, content))
    (new : List UInt8) : (fs.put place (.file new)).content? path = some new := by
  obtain ⟨directory, label, hlocate, hlabel, -, rfl, hplace, hfree, -⟩ := h.openPlace hopen
  have hkept (other : Place) (hdirectory : fs.node? other = some .directory) :
      (fs.put (directory ++ [label]) (.file new)).node? other = some .directory := by
    rw [node?_put_of_ne, hdirectory]
    rintro rfl
    exact hfree hdirectory
  refine content?_eq_some_iff.mpr ⟨directory, label, locate_mono hkept rfl hlocate, hlabel, hplace, ?_⟩
  change (fs.put (directory ++ [label]) (.file new)).node? (fs.placeOf path) = _
  rw [← hplace]
  exact node?_put_self fs (by simp) _

/-- A file that can be opened holds what is read from it, and nothing if it is missing. -/
theorem content_of_openPlace (h : fs.Sound) (hopen : fs.openPlace path = .ok (place, content)) :
    content = (fs.content? path).getD [] := by
  obtain ⟨directory, label, hlocate, hlabel, -, rfl, hplace, -, rfl⟩ := h.openPlace hopen
  congr 1
  ext found
  rw [fileAt_eq_some_iff, content?_eq_some_iff, ← hplace]
  refine ⟨fun hnode => ⟨directory, label, hlocate, hlabel, rfl, hnode⟩, ?_⟩
  rintro ⟨_, _, -, -, -, hnode⟩
  exact hnode

/-- There is nothing to make above a file that is there. -/
theorem makeRoomFor_of_content? (h : fs.Sound) (hfile : fs.content? path = some content)
    (hmake : fs.makeRoomFor path = .ok made) : made = fs := by
  obtain ⟨directory, label, hlocate, -⟩ := content?_eq_some_iff.mp hfile
  exact (makesWay_makeRoomFor hmake).eq_of_locate h hlocate

end FileSystem

namespace Fetch

structure Intake where
  answers : List ResponseHead := []
  body : List UInt8 := []

def Intake.take (intake : Intake) : Phase → Signal → Intake
  | .waiting _, .head head => { intake with answers := intake.answers ++ [head] }
  | .receiving _ _, .chunk bytes => { intake with body := intake.body ++ bytes }
  | _, _ => intake

def takeIn (request : FetchRequest) (stallSecs : UInt64) (run : Run) (intake : Intake) :
    List Signal → Intake
  | [] => intake
  | signal :: signals =>
    takeIn request stallSecs (advance request stallSecs run signal) (intake.take run.phase signal)
      signals

def intake (request : FetchRequest) (stallSecs : UInt64) (files : FileSystem)
    (signals : List Signal) : Intake :=
  takeIn request stallSecs (run request stallSecs files []) {} signals

def told (start : UInt64) (total : Option UInt64) (heights : List UInt64) : List Progress :=
  .started start total :: heights.map fun bytes => .reached bytes total

def AskedTwice (offset : UInt64) (answers : List ResponseHead) (requests : List (Option UInt64)) :
    Prop :=
  offset ≠ 0 ∧ requests = [some offset, none] ∧
    ∃ first rest, answers = first :: rest ∧ first.status = 416

def StartsAt (offset start : UInt64) (answers : List ResponseHead) : Prop :=
  start = 0 ∨ start = offset ∧
    ∃ head, answers = [head] ∧ head.status = 206 ∧ head.range.start = some offset

def Sized (offset : UInt64) : Signal → Prop
  | .head head => ∀ length, head.contentLength = some length →
      length.toNat + offset.toNat < UInt64.size
  | _ => True

/-- The numbers that were reported lead up to the length of the file. -/
structure Climbs (start : UInt64) (heights : List UInt64) (content : List UInt8) : Prop where
  last : (start :: heights).getLast (List.cons_ne_nil _ _) = UInt64.ofNat content.length
  rising : (start :: heights).Pairwise (· ≤ ·)

/-- What a fetch has reported and what it leaves of the file that it found. -/
inductive Leaves (offset : UInt64) (prior : Option (List UInt8)) (intake : Intake) :
    Option (List UInt8) → List Progress → Prop
  | untouched (hbody : intake.body = []) : Leaves offset prior intake prior []
  | complete (hbody : intake.body = []) (hoffset : offset ≠ 0) {head : ResponseHead}
      (hanswers : intake.answers = [head]) (hstatus : head.status = 416)
      (htotal : head.range.total = some offset) :
    Leaves offset prior intake prior (told offset (some offset) [])
  | received {start : UInt64} {total : Option UInt64} {heights : List UInt64} {content : List UInt8}
      (hstart : StartsAt offset start intake.answers)
      (hcontent : content = (prior.getD []).take start.toNat ++ intake.body)
      (hclimbs : Climbs start heights content) :
    Leaves offset prior intake (some content) (told start total heights)

/-- The counter of the bytes overflowed at the last piece of the body: it follows what was counted, and
no report tells of it. -/
inductive Overruns (offset : UInt64) (prior : Option (List UInt8)) (intake : Intake) :
    Option (List UInt8) → List Progress → Prop
  | mk {start : UInt64} {total : Option UInt64} {heights : List UInt64}
      {counted content : List UInt8} (hstart : StartsAt offset start intake.answers)
      (hcontent : content = (prior.getD []).take start.toNat ++ intake.body)
      (hclimbs : Climbs start heights counted) (hcounted : counted <+: content)
      (hlong : UInt64.size ≤ content.length) :
    Overruns offset prior intake (some content) (told start total heights)

def Reaches (reports : List Progress) : Prop :=
  ∃ start total heights, reports = told start total heights ∧
    ∀ size, total = some size → size ≤ (start :: heights).getLast (List.cons_ne_nil _ _)

/-- The file and the reports fit where the fetch stands. -/
def Sheet (offset : UInt64) (prior : Option (List UInt8)) (intake : Intake)
    (found : Option (List UInt8)) (reports : List Progress) : Phase → Prop
  | .waiting pending => found = prior ∧ reports = [] ∧ intake.body = [] ∧
      (pending = 0 ∨ pending = offset ∧ intake.answers = [])
  | .receiving total downloaded => ∃ start heights content,
      found = some content ∧ reports = told start total heights ∧
      StartsAt offset start intake.answers ∧
      content = (prior.getD []).take start.toNat ++ intake.body ∧ Climbs start heights content ∧
      downloaded = UInt64.ofNat content.length
  | .ended (.returned (.ok ())) => Leaves offset prior intake found reports ∧ Reaches reports
  | .ended (.returned (.error (.io _))) => True
  | .ended (.returned (.error _)) => Leaves offset prior intake found reports
  | .ended (.brokeDown _) => Overruns offset prior intake found reports ∨
      ∃ head ∈ intake.answers, ¬ Sized offset (.head head)

def Effect.report? : Effect → Option Progress
  | .report progress => some progress
  | _ => none

def Effect.request? : Effect → Option (Option UInt64)
  | .send range => some range
  | _ => none

variable {offset start : UInt64} {prior found : Option (List UInt8)} {intake : Intake}
variable {reports : List Progress} {phase : Phase} {total : Option UInt64} {heights : List UInt64}
variable {content : List UInt8}

theorem Climbs.nil (start : UInt64) (hlength : content.length = start.toNat) :
    Climbs start [] content := by
  refine ⟨?_, List.pairwise_singleton _ _⟩
  rw [hlength]
  exact (UInt64.ofNat_toNat).symm

/-- Every number that was reported is at most the last one, which is the length so far. -/
theorem Climbs.le_length (h : Climbs start heights content) {height : UInt64}
    (hmem : height ∈ start :: heights) : height ≤ UInt64.ofNat content.length := by
  rw [← h.last]
  have hsplit := List.dropLast_concat_getLast (List.cons_ne_nil start heights)
  have hrising := h.rising
  rw [← hsplit] at hrising hmem
  rcases List.mem_append.mp hmem with hinit | hend
  · exact (List.pairwise_append.mp hrising).2.2 height hinit _ List.mem_cons_self
  · rw [List.mem_singleton.mp hend]
    exact UInt64.le_refl _

/-- A piece of the body raises the last number by its length. -/
theorem Climbs.append (h : Climbs start heights content) {bytes : List UInt8} {reached : UInt64}
    (hreached : Counter.add64 (UInt64.ofNat content.length) (UInt64.ofNat bytes.length) =
      .ok reached) : Climbs start (heights ++ [reached]) (content ++ bytes) := by
  obtain ⟨hsum, hvalue⟩ := Counter.add64_eq_ok hreached
  constructor
  · rw [List.length_append, UInt64.ofNat_add, ← hsum]
    exact List.getLast_concat (l := start :: heights)
  · rw [← List.cons_append, List.pairwise_append]
    refine ⟨h.rising, List.pairwise_singleton _ _, fun height hmem last hlast => ?_⟩
    rw [List.mem_singleton.mp hlast]
    refine UInt64.le_trans (h.le_length hmem) ?_
    rw [UInt64.le_iff_toNat_le, hvalue]
    exact Nat.le_add_right _ _

theorem Sheet.leaves_of_waiting {pending : UInt64}
    (h : Sheet offset prior intake found reports (.waiting pending)) :
    Leaves offset prior intake found reports := by
  obtain ⟨rfl, rfl, hbody, -⟩ := h
  exact .untouched hbody

/-- A request for what is behind the offset is the first one. -/
theorem Sheet.first {pending : UInt64}
    (h : Sheet offset prior intake found reports (.waiting pending)) (hne : pending ≠ 0) :
    pending = offset ∧ intake.answers = [] :=
  h.2.2.2.resolve_left hne

theorem Sheet.leaves_of_receiving {downloaded : UInt64}
    (h : Sheet offset prior intake found reports (.receiving total downloaded)) :
    Leaves offset prior intake found reports := by
  obtain ⟨start, heights, content, rfl, rfl, hstart, hcontent, hclimbs, -⟩ := h
  exact .received hstart hcontent hclimbs

theorem told_append (start : UInt64) (total : Option UInt64) (heights : List UInt64)
    (bytes : UInt64) :
    told start total heights ++ [.reached bytes total] = told start total (heights ++ [bytes]) := by
  rw [told, told, List.map_append]
  rfl

/-! ## What a step can be -/

inductive Reacts : Phase → Signal → Phase × List Effect → Prop
  | pass {phase : Phase} {signal : Signal}
      (hunfit : ∀ intake : Intake, intake.take phase signal = intake) :
    Reacts phase signal (phase, [])
  | dropWaiting {pending : UInt64} {signal : Signal} {error : TransferError}
      (herror : ∀ io, error ≠ .io io) :
    Reacts (.waiting pending) signal (failWith error)
  | dropReceiving {total : Option UInt64} {downloaded : UInt64} {signal : Signal}
      {error : TransferError}
      (hunfit : ∀ intake : Intake, intake.take (.receiving total downloaded) signal = intake)
      (herror : ∀ io, error ≠ .io io) :
    Reacts (.receiving total downloaded) signal (failWith error)
  | complete {pending : UInt64} {head : ResponseHead} (hne : pending ≠ 0)
      (hstatus : head.status = 416) (htotal : head.range.total = some pending) :
    Reacts (.waiting pending) (.head head)
      (.ended (.returned (.ok ())), [.report (.started pending (some pending))])
  | again {pending : UInt64} {head : ResponseHead} (hne : pending ≠ 0) (hstatus : head.status = 416) :
    Reacts (.waiting pending) (.head head) (.waiting 0, [.send none])
  | resume {pending : UInt64} {head : ResponseHead} {total : Option UInt64} (hne : pending ≠ 0)
      (hstatus : head.status = 206) (hrange : head.range.start = some pending) :
    Reacts (.waiting pending) (.head head)
      (.receiving total pending, [.openAt pending, .report (.started pending total)])
  | overflow {pending : UInt64} {head : ResponseHead} {length : UInt64} {overflow : Overflow}
      (hne : pending ≠ 0) (hlength : head.contentLength = some length)
      (hsum : Counter.add64 length pending = .error overflow) :
    Reacts (.waiting pending) (.head head) (.ended (.brokeDown overflow), [.openAt pending])
  | restart {pending : UInt64} {head : ResponseHead} :
    Reacts (.waiting pending) (.head head)
      (.receiving head.contentLength 0, [.openFresh, .report (.started 0 head.contentLength)])
  | chunk {total : Option UInt64} {downloaded : UInt64} (bytes : List UInt8) :
    Reacts (.receiving total downloaded) (.chunk bytes) (onChunk total downloaded bytes)
  | finish {total : Option UInt64} {downloaded : UInt64}
      (hlong : ∀ size, total = some size → size ≤ downloaded) :
    Reacts (.receiving total downloaded) .bodyEnd (.ended (.returned (.ok ())), [])

/-- A part that starts where the file is to go on is taken up, and any other is refused; a size that
cannot be counted breaks the fetch down. -/
theorem reacts_onPartial {pending : UInt64} {head : ResponseHead} (hne : pending ≠ 0)
    (hstatus : head.status = 206) :
    Reacts (.waiting pending) (.head head) (onPartial pending head) := by
  rw [onPartial]
  split
  · exact .dropWaiting (by simp)
  · next hrange =>
    rw [not_not] at hrange
    dsimp only
    split
    · exact .resume hne hstatus hrange
    · exact .resume hne hstatus hrange
    · next length _ hlength =>
      split
      · exact .resume hne hstatus hrange
      · next hsum => exact .overflow hne hlength hsum

/-- An answer is taken by its status: the whole, a part, nothing behind the offset, or a refusal. -/
theorem reacts_onHead (url : String) (pending : UInt64) (head : ResponseHead) :
    Reacts (.waiting pending) (.head head) (onHead url pending head) := by
  rw [onHead]
  split
  · next hstatus =>
    rw [onUnsatisfiable]
    split
    · next htotal => exact .complete hstatus.2 hstatus.1 htotal
    · exact .again hstatus.2 hstatus.1
  · split
    · next hstatus => exact reacts_onPartial hstatus.2 hstatus.1
    · split
      · exact .restart
      · exact .dropWaiting (by simp)

theorem reacts_onBodyEnd (total : Option UInt64) (downloaded : UInt64) :
    Reacts (.receiving total downloaded) .bodyEnd (onBodyEnd total downloaded) := by
  unfold onBodyEnd
  split
  · split
    · exact .dropReceiving (fun _ => rfl) (by simp)
    · next hlong =>
      refine .finish fun size hsize => ?_
      cases hsize
      exact UInt64.not_lt.mp hlong
  · exact .finish fun size hsize => by cases hsize

/-- All that a step of a fetch can come to, whatever it learns. -/
theorem reacts_step (request : FetchRequest) (stallSecs : UInt64) (phase : Phase) (signal : Signal) :
    Reacts phase signal (step request stallSecs phase signal) := by
  cases phase with
  | ended result => cases signal <;> exact .pass fun _ => rfl
  | waiting pending =>
    cases signal with
    | cancel => exact .dropWaiting (by simp)
    | lost message transient => exact .dropWaiting (by simp)
    | head head => exact reacts_onHead request.url pending head
    | _ => exact .pass fun _ => rfl
  | receiving total downloaded =>
    cases signal with
    | cancel => exact .dropReceiving (fun _ => rfl) (by simp)
    | lost message transient => exact .dropReceiving (fun _ => rfl) (by simp)
    | stall => exact .dropReceiving (fun _ => rfl) (by simp)
    | head head => exact .pass fun _ => rfl
    | chunk bytes => exact .chunk bytes
    | bodyEnd => exact reacts_onBodyEnd total downloaded

theorem body_take_waiting (intake : Intake) (pending : UInt64) (signal : Signal) :
    (intake.take (.waiting pending) signal).body = intake.body := by
  cases signal <;> rfl

def Sheet.After (offset : UInt64) (prior : Option (List UInt8)) (intake : Intake)
    (found : Option (List UInt8)) (reports : List Progress) (next : Phase × List Effect) : Prop :=
  Sheet offset prior intake (next.2.foldl Effect.outcome found)
    (reports ++ next.2.filterMap Effect.report?) next.1

theorem after_failWith (h : Leaves offset prior intake found reports) {error : TransferError}
    (herror : ∀ io, error ≠ .io io) :
    Sheet.After offset prior intake found reports (failWith error) := by
  rw [Sheet.After, failWith, List.filterMap_nil, List.append_nil]
  cases error with
  | io error => exact absurd rfl (herror error)
  | _ => exact h

/-- Nothing is done, and the fetch stands where it stood. -/
theorem after_pass (h : Sheet offset prior intake found reports phase) :
    Sheet.After offset prior intake found reports (phase, []) := by
  rw [Sheet.After, List.filterMap_nil, List.append_nil]
  exact h

theorem after_receive (hbody : intake.body = []) (hstart : StartsAt offset start intake.answers)
    {effect : Effect} (hquiet : effect.report? = none)
    (houtcome : effect.outcome found = some ((prior.getD []).take start.toNat))
    (hlength : start.toNat ≤ (prior.getD []).length) (total : Option UInt64) :
    Sheet.After offset prior intake found []
      (.receiving total start, [effect, .report (.started start total)]) := by
  have htaken : ((prior.getD []).take start.toNat).length = start.toNat := by
    rw [List.length_take, Nat.min_eq_left hlength]
  refine ⟨start, [], (prior.getD []).take start.toNat, houtcome, ?_, hstart, ?_,
    .nil start htaken, ?_⟩
  · rw [List.filterMap_cons_none hquiet]
    rfl
  · rw [hbody, List.append_nil]
  · rw [htaken]
    exact (UInt64.ofNat_toNat).symm

/-- Whatever a fetch learns, its file and its reports fit where it stands. -/
theorem Sheet.step (hoffset : offset.toNat ≤ (prior.getD []).length)
    (h : Sheet offset prior intake found reports phase) (request : FetchRequest)
    (stallSecs : UInt64) (signal : Signal) :
    Sheet.After offset prior (intake.take phase signal) found reports
      (step request stallSecs phase signal) := by
  have hreacts := reacts_step request stallSecs phase signal
  generalize Fetch.step request stallSecs phase signal = next at hreacts
  cases hreacts with
  | pass hunfit =>
    rw [hunfit]
    exact after_pass h
  | dropWaiting herror =>
    obtain ⟨rfl, rfl, hbody, -⟩ := h
    exact after_failWith (.untouched ((body_take_waiting _ _ _).trans hbody)) herror
  | dropReceiving hunfit herror =>
    rw [hunfit]
    exact after_failWith h.leaves_of_receiving herror
  | @complete pending head hne hstatus htotal =>
    obtain ⟨rfl, hnone⟩ := h.first hne
    obtain ⟨rfl, rfl, hbody, -⟩ := h
    have hanswers : intake.answers ++ [head] = [head] := by rw [hnone, List.nil_append]
    refine ⟨.complete hbody hne hanswers hstatus htotal, pending, some pending, [], rfl, ?_⟩
    rintro size ⟨⟩
    exact UInt64.le_refl _
  | again =>
    obtain ⟨rfl, rfl, hbody, -⟩ := h
    exact ⟨rfl, rfl, hbody, .inl rfl⟩
  | @resume pending head total hne hstatus hrange =>
    obtain ⟨rfl, hnone⟩ := h.first hne
    obtain ⟨rfl, rfl, hbody, -⟩ := h
    have hanswers : intake.answers ++ [head] = [head] := by rw [hnone, List.nil_append]
    have hopened : Effect.outcome found (.openAt pending) =
        some ((found.getD []).take pending.toNat) := by
      rw [Effect.outcome, FileSystem.resized, Nat.sub_eq_zero_of_le hoffset, List.replicate_zero,
        List.append_nil]
    exact after_receive (by exact hbody) (.inr ⟨rfl, head, hanswers, hstatus, hrange⟩) rfl hopened
      hoffset total
  | @overflow pending head length overflow hne hlength hsum =>
    obtain ⟨rfl, -⟩ := h.first hne
    refine .inr ⟨head, List.mem_append_right _ List.mem_cons_self, fun hsized => ?_⟩
    have hlarge := (Counter.add64_eq_error hsum).1
    exact absurd (hsized length hlength) (Nat.not_lt.mpr hlarge)
  | restart =>
    obtain ⟨rfl, rfl, hbody, -⟩ := h
    have hopened : Effect.outcome found .openFresh =
        some ((found.getD []).take (0 : UInt64).toNat) := rfl
    exact after_receive (by exact hbody) (.inl rfl) rfl hopened (Nat.zero_le _) _
  | chunk bytes =>
    obtain ⟨start, heights, content, rfl, rfl, hstart, hcontent, hclimbs, rfl⟩ := h
    have hmore : content ++ bytes = (prior.getD []).take start.toNat ++ (intake.body ++ bytes) := by
      rw [hcontent, List.append_assoc]
    rw [onChunk]
    cases hreached : Counter.add64 (UInt64.ofNat content.length) (UInt64.ofNat bytes.length) with
    | ok reached =>
      refine ⟨start, _, content ++ bytes, rfl, told_append start _ heights _, hstart, hmore,
        hclimbs.append hreached, ?_⟩
      rw [(Counter.add64_eq_ok hreached).1, List.length_append, UInt64.ofNat_add]
    | error overflow =>
      rw [Sheet.After, List.filterMap_cons_none rfl, List.filterMap_nil, List.append_nil]
      refine .inl (.mk hstart hmore hclimbs (List.prefix_append _ _) ?_)
      -- a counter is never above the length that it stands for
      have hlarge := (Counter.add64_eq_error hreached).1
      have hcounted : (UInt64.ofNat content.length).toNat ≤ content.length := Nat.mod_le _ _
      have hpiece : (UInt64.ofNat bytes.length).toNat ≤ bytes.length := Nat.mod_le _ _
      have hlength : (content ++ bytes).length = content.length + bytes.length :=
        List.length_append
      change UInt64.size ≤ (content ++ bytes).length
      omega
  | @finish total downloaded hlong =>
    have hleaves := h.leaves_of_receiving
    obtain ⟨start, heights, content, -, hreports, -, -, hclimbs, rfl⟩ := h
    refine after_pass ⟨hleaves, start, total, heights, hreports, ?_⟩
    rwa [hclimbs.last]

/-! ## What is asked for -/

def Asks (offset : UInt64) (answers : List ResponseHead) (requests : List (Option UInt64)) :
    Phase → Prop
  | .waiting pending =>
    pending = offset ∧ answers = [] ∧ requests = [rangeFor offset] ∨
      pending = 0 ∧ AskedTwice offset answers requests
  | _ => requests = [rangeFor offset] ∨ AskedTwice offset answers requests

variable {answers : List ResponseHead} {requests : List (Option UInt64)}

theorem AskedTwice.append (h : AskedTwice offset answers requests) (head : ResponseHead) :
    AskedTwice offset (answers ++ [head]) requests := by
  obtain ⟨hoffset, hrequests, first, rest, rfl, hstatus⟩ := h
  exact ⟨hoffset, hrequests, first, rest ++ [head], rfl, hstatus⟩

theorem AskedTwice.take (h : AskedTwice offset intake.answers requests) (phase : Phase)
    (signal : Signal) : AskedTwice offset (intake.take phase signal).answers requests := by
  unfold Intake.take
  split
  · exact h.append _
  · exact h
  · exact h

theorem Asks.asked (h : Asks offset answers requests phase) :
    requests = [rangeFor offset] ∨ AskedTwice offset answers requests := by
  cases phase with
  | waiting pending => exact h.imp (fun hfirst => hfirst.2.2) And.right
  | receiving total downloaded => exact h
  | ended result => exact h

/-- The fetch no longer waits, and asks for nothing more. -/
theorem asks_of_quiet {next : Phase × List Effect}
    (h : requests = [rangeFor offset] ∨ AskedTwice offset answers requests)
    (hphase : ∀ pending, next.1 ≠ .waiting pending)
    (hquiet : next.2.filterMap Effect.request? = []) :
    Asks offset answers (requests ++ next.2.filterMap Effect.request?) next.1 := by
  rw [hquiet, List.append_nil]
  obtain ⟨phase, todo⟩ := next
  cases phase with
  | waiting pending => exact absurd rfl (hphase pending)
  | receiving total downloaded => exact h
  | ended result => exact h

/-- Each request follows from the answers before it, and there are two at most. -/
theorem Asks.step (h : Asks offset intake.answers requests phase) (request : FetchRequest)
    (stallSecs : UInt64) (signal : Signal) :
    Asks offset (intake.take phase signal).answers
      (requests ++ (Fetch.step request stallSecs phase signal).2.filterMap Effect.request?)
      (Fetch.step request stallSecs phase signal).1 := by
  have hasked : requests = [rangeFor offset] ∨
      AskedTwice offset (intake.take phase signal).answers requests :=
    h.asked.imp_right fun htwice => htwice.take phase signal
  have hreacts := reacts_step request stallSecs phase signal
  generalize Fetch.step request stallSecs phase signal = next at hreacts
  cases hreacts with
  | pass hunfit =>
    rw [hunfit]
    exact (List.append_nil requests).symm ▸ h
  | @again pending head hne hstatus =>
    obtain ⟨rfl, hnone, rfl⟩ := h.resolve_right fun hsecond => hne hsecond.1
    refine .inr ⟨rfl, hne, ?_, head, [], ?_, hstatus⟩
    · rw [rangeFor, if_neg hne]
      rfl
    · change intake.answers ++ [head] = [head]
      rw [hnone, List.nil_append]
  | chunk bytes =>
    rw [onChunk]
    split <;> exact asks_of_quiet hasked (by simp) rfl
  | _ => exact asks_of_quiet hasked (by simp [failWith]) rfl

/-! ## What is done -/

def Grounded : Option (List UInt8) → List Effect → Prop
  | _, [] => True
  | found, effect :: todo =>
    (∀ offset, effect = .openAt offset → found ≠ none) ∧ Grounded (effect.outcome found) todo

theorem grounded_of_calm {todo : List Effect} (h : ∀ offset, .openAt offset ∉ todo)
    (found : Option (List UInt8)) : Grounded found todo := by
  induction todo generalizing found with
  | nil => trivial
  | cons effect todo ih =>
    refine ⟨fun offset heq => absurd List.mem_cons_self (heq ▸ h offset), ih ?_ _⟩
    exact fun offset hmem => h offset (List.mem_cons_of_mem _ hmem)

/-- A file that is not there is begun anew, not cut. -/
theorem Sheet.grounded (hoffset : offset.toNat ≤ (prior.getD []).length)
    (h : Sheet offset prior intake found reports phase) (request : FetchRequest)
    (stallSecs : UInt64) (signal : Signal) :
    Grounded found (Fetch.step request stallSecs phase signal).2 := by
  have hfound {pending : UInt64} (hwaiting : phase = .waiting pending) (hne : pending ≠ 0) :
      found ≠ none := by
    rw [hwaiting] at h
    obtain ⟨rfl, -⟩ := h.first hne
    obtain ⟨rfl, -⟩ := h
    rintro rfl
    exact hne (UInt64.toNat_inj.mp (Nat.le_zero.mp hoffset))
  have hreacts := reacts_step request stallSecs phase signal
  generalize Fetch.step request stallSecs phase signal = next at hreacts
  cases hreacts with
  | resume hne => exact ⟨fun _ _ => hfound rfl hne, grounded_of_calm (by simp) _⟩
  | overflow hne => exact ⟨fun _ _ => hfound rfl hne, trivial⟩
  | chunk bytes =>
    rw [onChunk]
    split <;> exact grounded_of_calm (by simp) _
  | _ => exact grounded_of_calm (by simp [failWith]) _

/-- What an effect does to the file at any path. -/
theorem content?_perform {destination : Path} {run after : Run} {effect : Effect}
    (h : run.files.Sound)
    (hgrounded : ∀ offset, effect = .openAt offset → run.files.content? destination ≠ none)
    (hperform : perform destination run effect = .ok after) :
    after.files.Sound ∧
      after.files.content? destination = effect.outcome (run.files.content? destination) := by
  cases effect with
  | send range =>
    cases hperform
    exact ⟨h, rfl⟩
  | report progress =>
    cases hperform
    exact ⟨h, rfl⟩
  | append bytes =>
    obtain ⟨files, happend, hperform⟩ := FileSystem.bind_eq_ok.mp hperform
    cases hperform
    have hsound := (FileSystem.writes_append h happend).edits.sound
    obtain ⟨⟨place, content⟩, hopen, hput⟩ := FileSystem.bind_eq_ok.mp happend
    cases hput
    refine ⟨hsound, (FileSystem.content?_put h hopen _).trans ?_⟩
    rw [FileSystem.content_of_openPlace h hopen]
    rfl
  | openAt offset =>
    obtain ⟨roomy, hroomy, hperform⟩ := FileSystem.bind_eq_ok.mp hperform
    obtain ⟨files, hset, hperform⟩ := FileSystem.bind_eq_ok.mp hperform
    cases hperform
    obtain ⟨content, hfile⟩ := Option.ne_none_iff_exists'.mp (hgrounded offset rfl)
    obtain rfl := FileSystem.makeRoomFor_of_content? h hfile hroomy
    have hsound := (FileSystem.writes_setLength h hset).edits.sound
    obtain ⟨⟨place, content⟩, hopen, hput⟩ := FileSystem.bind_eq_ok.mp hset
    cases hput
    refine ⟨hsound, (FileSystem.content?_put h hopen _).trans ?_⟩
    rw [FileSystem.content_of_openPlace h hopen]
    rfl
  | openFresh =>
    obtain ⟨roomy, hroomy, hperform⟩ := FileSystem.bind_eq_ok.mp hperform
    obtain ⟨files, hcreate, hperform⟩ := FileSystem.bind_eq_ok.mp hperform
    cases hperform
    have hmade := (FileSystem.edits_makeRoomFor h hroomy).sound
    have hsound := (FileSystem.writes_create hmade hcreate).edits.sound
    obtain ⟨⟨place, content⟩, hopen, hput⟩ := FileSystem.bind_eq_ok.mp hcreate
    cases hput
    exact ⟨hsound, FileSystem.content?_put hmade hopen []⟩

/-- To carry out an effect adds to the requests or to the reports what the effect says. -/
theorem perform_record {destination : Path} {run after : Run} {effect : Effect}
    (hperform : perform destination run effect = .ok after) :
    after.phase = run.phase ∧ after.requests = run.requests ++ effect.request?.toList ∧
      after.reports = run.reports ++ effect.report?.toList := by
  have hnil {α : Type} (entries : List α) : entries = entries ++ [] := (List.append_nil entries).symm
  cases effect with
  | send range =>
    cases hperform
    exact ⟨rfl, rfl, hnil _⟩
  | report progress =>
    cases hperform
    exact ⟨rfl, hnil _, rfl⟩
  | append bytes =>
    obtain ⟨files, -, hperform⟩ := FileSystem.bind_eq_ok.mp hperform
    cases hperform
    exact ⟨rfl, hnil _, hnil _⟩
  | openAt offset =>
    obtain ⟨roomy, -, hperform⟩ := FileSystem.bind_eq_ok.mp hperform
    obtain ⟨files, -, hperform⟩ := FileSystem.bind_eq_ok.mp hperform
    cases hperform
    exact ⟨rfl, hnil _, hnil _⟩
  | openFresh =>
    obtain ⟨roomy, -, hperform⟩ := FileSystem.bind_eq_ok.mp hperform
    obtain ⟨files, -, hperform⟩ := FileSystem.bind_eq_ok.mp hperform
    cases hperform
    exact ⟨rfl, hnil _, hnil _⟩

def Unbroken (run : Run) : Prop :=
  ∀ error, run.phase ≠ .ended (.returned (.error (.io error)))

structure Done (destination : Path) (run : Run) (todo : List Effect) (after : Run) : Prop where
  sound : after.files.Sound
  phase : after.phase = run.phase
  content? : after.files.content? destination =
    todo.foldl Effect.outcome (run.files.content? destination)
  requests : after.requests = run.requests ++ todo.filterMap Effect.request?
  reports : after.reports = run.reports ++ todo.filterMap Effect.report?

/-- A list of effects is carried out in order, as long as the file system lets it. -/
theorem done_performAll {destination : Path} {run : Run} (h : run.files.Sound) {todo : List Effect}
    (hgrounded : Grounded (run.files.content? destination) todo)
    (hunbroken : Unbroken (performAll destination run todo)) :
    Done destination run todo (performAll destination run todo) := by
  induction todo generalizing run with
  | nil => exact ⟨h, rfl, rfl, (List.append_nil _).symm, (List.append_nil _).symm⟩
  | cons effect todo ih =>
    rw [performAll] at hunbroken ⊢
    split at hunbroken
    · next after hperform =>
      obtain ⟨hsound, hcontent⟩ := content?_perform h hgrounded.1 hperform
      obtain ⟨hphase, hrequests, hreports⟩ := perform_record hperform
      have hrest := ih hsound (hcontent ▸ hgrounded.2) hunbroken
      refine ⟨hrest.sound, hrest.phase.trans hphase, ?_, ?_, ?_⟩
      · rw [hrest.content?, hcontent]
        rfl
      · rw [hrest.requests, hrequests, List.append_assoc]
        cases hrequest : effect.request? <;> simp [hrequest]
      · rw [hrest.reports, hreports, List.append_assoc]
        cases hreport : effect.report? <;> simp [hreport]
    · next error _ => exact absurd rfl (hunbroken error)

/-! ## Whole fetches -/

theorem sized_take {signal : Signal} (hsized : Sized offset signal)
    (h : ∀ head ∈ intake.answers, Sized offset (.head head)) (phase : Phase) :
    ∀ head ∈ (intake.take phase signal).answers, Sized offset (.head head) := by
  unfold Intake.take
  split
  · intro head hmem
    rcases List.mem_append.mp hmem with hold | hnew
    · exact h head hold
    · exact List.mem_singleton.mp hnew ▸ hsized
  · exact h
  · exact h

/-- A fetch whose file, reports and requests fit what it has taken in. -/
structure Accounted (offset : UInt64) (destination : Path) (prior : Option (List UInt8))
    (intake : Intake) (run : Run) : Prop where
  sound : run.files.Sound
  sheet : Sheet offset prior intake (run.files.content? destination) run.reports run.phase
  asks : Asks offset intake.answers run.requests run.phase
  sized : ∀ head ∈ intake.answers, Sized offset (.head head)

variable {request : FetchRequest} {stallSecs : UInt64} {run : Run}

/-- The step lemma for a whole fetch: it learns something and does what follows from it. -/
theorem Accounted.advance (h : Accounted offset request.destination prior intake run)
    (hoffset : offset.toNat ≤ (prior.getD []).length) {signal : Signal}
    (hsized : Sized offset signal)
    (hunbroken : Unbroken (advance request stallSecs run signal)) :
    Accounted offset request.destination prior (intake.take run.phase signal)
      (advance request stallSecs run signal) := by
  have hgrounded := h.sheet.grounded hoffset request stallSecs signal
  have hdone : Done request.destination
      { run with phase := (step request stallSecs run.phase signal).1 }
      (step request stallSecs run.phase signal).2 (Fetch.advance request stallSecs run signal) :=
    done_performAll (by exact h.sound) (by exact hgrounded) hunbroken
  have hphase : (Fetch.advance request stallSecs run signal).phase =
      (step request stallSecs run.phase signal).1 := hdone.phase
  refine ⟨hdone.sound, ?_, ?_, sized_take hsized h.sized run.phase⟩
  · rw [hphase, hdone.content?, hdone.reports]
    exact h.sheet.step hoffset request stallSecs signal
  · rw [hphase, hdone.requests]
    exact h.asks.step request stallSecs signal

theorem advance_ended {result : Result} (hended : run.phase = .ended result) (signal : Signal) :
    advance request stallSecs run signal = run := by
  obtain ⟨phase, files, requests, reports⟩ := run
  cases hended
  cases signal <;> rfl

theorem foldl_advance_ended {result : Result} (hended : run.phase = .ended result)
    (signals : List Signal) : signals.foldl (advance request stallSecs) run = run := by
  induction signals with
  | nil => rfl
  | cons signal signals ih => rw [List.foldl_cons, advance_ended hended, ih]

/-- What has failed once has failed in the end. -/
theorem unbroken_of_foldl {signals : List Signal}
    (h : Unbroken (signals.foldl (advance request stallSecs) run)) : Unbroken run := by
  intro error hended
  rw [foldl_advance_ended hended] at h
  exact h error hended

theorem Accounted.foldl_advance (h : Accounted offset request.destination prior intake run)
    (hoffset : offset.toNat ≤ (prior.getD []).length) {signals : List Signal}
    (hsized : ∀ signal ∈ signals, Sized offset signal)
    (hunbroken : Unbroken (signals.foldl (Fetch.advance request stallSecs) run)) :
    Accounted offset request.destination prior (takeIn request stallSecs run intake signals)
      (signals.foldl (Fetch.advance request stallSecs) run) := by
  induction signals generalizing run intake with
  | nil => exact h
  | cons signal signals ih =>
    have hnext := h.advance hoffset (hsized signal List.mem_cons_self)
      (unbroken_of_foldl hunbroken)
    exact ih hnext (fun other hmem => hsized other (List.mem_cons_of_mem _ hmem)) hunbroken

theorem accounted_start {files : FileSystem} (h : files.Sound) :
    Accounted request.resumeOffset request.destination (files.content? request.destination) {}
      (Fetch.run request stallSecs files []) :=
  ⟨h, ⟨rfl, rfl, rfl, .inr ⟨rfl, rfl⟩⟩, .inl ⟨rfl, rfl, rfl⟩, fun head hmem => by cases hmem⟩

/-- At any moment the file and the reports are what the answers made of them, or the counter has
overflowed. -/
theorem Accounted.leaves (h : Accounted offset request.destination prior intake run)
    (hunbroken : Unbroken run) :
    Leaves offset prior intake (run.files.content? request.destination) run.reports ∨
      Overruns offset prior intake (run.files.content? request.destination) run.reports ∧
        ∃ overflow, run.phase = .ended (.brokeDown overflow) := by
  have hsheet := h.sheet
  cases hphase : run.phase with
  | waiting pending =>
    rw [hphase] at hsheet
    exact .inl hsheet.leaves_of_waiting
  | receiving total downloaded =>
    rw [hphase] at hsheet
    exact .inl hsheet.leaves_of_receiving
  | ended result =>
    rw [hphase] at hsheet
    cases result with
    | brokeDown overflow =>
      rcases hsheet with hoverruns | ⟨head, hmem, hlarge⟩
      · exact .inr ⟨hoverruns, overflow, rfl⟩
      · exact absurd (h.sized head hmem) hlarge
    | returned result =>
      cases result with
      | ok value => exact .inl hsheet.1
      | error error =>
        cases error with
        | io error => exact absurd hphase (hunbroken error)
        | _ => exact .inl hsheet

/-- Whatever a server sends and whenever a fetch is stopped, it asks twice at most, and what it has
reported is what it has left, unless it broke down over a file that is too long to be counted. -/
theorem leaves_of_run {request : FetchRequest} {files : FileSystem} (hsound : files.Sound)
    (hoffset : request.resumeOffset.toNat ≤ ((files.content? request.destination).getD []).length)
    {signals : List Signal}
    (hsized : ∀ signal ∈ signals, Sized request.resumeOffset signal)
    {stallSecs : UInt64} (hunbroken : Unbroken (Fetch.run request stallSecs files signals)) :
    ((Fetch.run request stallSecs files signals).requests = [rangeFor request.resumeOffset] ∨
        AskedTwice request.resumeOffset (Fetch.intake request stallSecs files signals).answers
          (Fetch.run request stallSecs files signals).requests) ∧
      (Leaves request.resumeOffset (files.content? request.destination)
          (Fetch.intake request stallSecs files signals)
          ((Fetch.run request stallSecs files signals).files.content? request.destination)
          (Fetch.run request stallSecs files signals).reports ∨
        Overruns request.resumeOffset (files.content? request.destination)
          (Fetch.intake request stallSecs files signals)
          ((Fetch.run request stallSecs files signals).files.content? request.destination)
          (Fetch.run request stallSecs files signals).reports ∧
        ∃ overflow, (Fetch.run request stallSecs files signals).phase =
          .ended (.brokeDown overflow)) := by
  have hstart : Accounted request.resumeOffset request.destination
      (files.content? request.destination) {} (Fetch.run request stallSecs files []) :=
    accounted_start hsound
  have haccounted := hstart.foldl_advance hoffset hsized hunbroken
  exact ⟨haccounted.asks.asked, haccounted.leaves hunbroken⟩

def begunFiles : FileSystem :=
  ⟨[], [(["a"], .file [1, 2, 3])]⟩

def begunRequest : FetchRequest :=
  ⟨⟨1⟩, "http://h/a", ⟨"/a"⟩, 2⟩

def resumption : List Signal :=
  [.head ⟨206, some "bytes 2-9/10".toList, some 8⟩, .chunk [8], .chunk [9, 9], .cancel]

/-- The third byte is gone, the new ones follow the two, and the last report says five. -/
theorem leaves_of_run_resumption :
    begunFiles.Sound ∧ (∀ signal ∈ resumption, Sized 2 signal) ∧
      Unbroken (Fetch.run begunRequest 60 begunFiles resumption) ∧
      (Fetch.run begunRequest 60 begunFiles resumption).files.content? ⟨"/a"⟩ =
        some [1, 2, 8, 9, 9] ∧
      (Fetch.run begunRequest 60 begunFiles resumption).reports = told 2 (some 10) [3, 5] ∧
      Leaves 2 (some [1, 2, 3]) (Fetch.intake begunRequest 60 begunFiles resumption)
        (some [1, 2, 8, 9, 9]) (told 2 (some 10) [3, 5]) := by
  have hsound : begunFiles.Sound := .flat (by simp)
  have hprior : begunFiles.content? ⟨"/a"⟩ = some [1, 2, 3] := by decide +kernel
  have hsized : ∀ signal ∈ resumption, Sized 2 signal := by
    simp [resumption, Sized, UInt64.size]
  have hcancelled : (Fetch.run begunRequest 60 begunFiles resumption).phase =
      .ended (.returned (.error .cancelled)) := rfl
  have hunbroken : Unbroken (Fetch.run begunRequest 60 begunFiles resumption) := by
    simp [Unbroken, hcancelled]
  have hcontent : (Fetch.run begunRequest 60 begunFiles resumption).files.content? ⟨"/a"⟩ =
      some [1, 2, 8, 9, 9] := by decide +kernel
  have hreports : (Fetch.run begunRequest 60 begunFiles resumption).reports =
      told 2 (some 10) [3, 5] := by decide +kernel
  refine ⟨hsound, hsized, hunbroken, hcontent, hreports, ?_⟩
  have hoffset : begunRequest.resumeOffset.toNat ≤
      ((begunFiles.content? begunRequest.destination).getD []).length := by decide +kernel
  have hleaves := (leaves_of_run hsound hoffset hsized hunbroken).2.resolve_right fun hbroken => by
    obtain ⟨-, overflow, hphase⟩ := hbroken
    cases hcancelled.symm.trans hphase
  rwa [hreports, show begunRequest.destination = ⟨"/a"⟩ from rfl, hcontent, hprior] at hleaves

end Fetch

end DownloadQueue
