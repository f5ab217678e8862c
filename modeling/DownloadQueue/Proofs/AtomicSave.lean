import DownloadQueue.Proofs.FileSystem.Directories
import DownloadQueue.Proofs.QueueFile

/-!
# Saves that are cut off

A save may fail or be cut off by the end of the process, after any of its steps and in the middle of
one. Until the temporary file takes the place of the queue file, what is loaded is what was loaded
before, but for the directories that the save has made already: where the path of the queue file
leads through a missing directory and up again, making that directory brings another file into view.
-/

namespace DownloadQueue

namespace FileSystem

variable {fs other : FileSystem} {place directory : Place} {path : Path}

/-- A file is read by what stands in its place, whatever else has changed in the tree. -/
theorem read_congr {target : Target} (hlocate : fs.locate path = .ok target)
    (hlocate' : other.locate path = .ok target)
    (hnode : ∀ directory label closed, target = .entry directory label closed →
      other.node? (directory ++ [label]) = fs.node? (directory ++ [label])) :
    other.read path = fs.read path := by
  have hlookup : other.lookup path = fs.lookup path := by
    unfold lookup
    rw [hlocate, hlocate']
    cases target with
    | here place => rfl
    | entry directory label closed =>
      change (childOf directory label >>= _) = (childOf directory label >>= _)
      cases hchild : childOf directory label with
      | error error => rfl
      | ok place =>
        obtain ⟨-, rfl⟩ := childOf_eq_ok_iff.mp hchild
        simp only [bind, Except.bind, hnode directory label closed rfl]
  unfold FileSystem.read
  rw [hlookup]

/-- Where one name in a directory can be looked at, so can any other and the directory itself. -/
theorem exists_locateFrom {pieces : List String} {piece : String} {closed : Bool} {target : Target}
    (hlocate : fs.locateFrom directory closed (pieces ++ [piece]) = .ok target)
    (last : Option String) (mark : Bool) :
    ∃ end_, fs.locateFrom directory mark (pieces ++ last.toList) = .ok end_ := by
  induction pieces generalizing directory with
  | nil =>
    cases last with
    | none => exact ⟨.here directory, rfl⟩
    | some name =>
      change ∃ end_, fs.locateFrom directory mark [name] = .ok end_
      unfold locateFrom
      split
      · exact ⟨_, rfl⟩
      · split <;> exact ⟨_, rfl⟩
  | cons first pieces ih =>
    rw [List.cons_append, locateFrom_cons _ _ _ _ (by simp)] at hlocate
    obtain ⟨next, hfollow, hlocate⟩ := bind_eq_ok.mp hlocate
    obtain ⟨end_, hend⟩ := ih hlocate
    by_cases hnil : pieces ++ last.toList = []
    · rw [List.cons_append, hnil]
      unfold locateFrom
      split
      · exact ⟨_, rfl⟩
      · split <;> exact ⟨_, rfl⟩
    · rw [List.cons_append, locateFrom_cons _ _ _ _ hnil, hfollow]
      exact ⟨end_, hend⟩

end FileSystem

namespace QueueFile

open FileSystem

variable {fs next left : FileSystem} {path : Path} {items : List Item}

/-- A file named after another one stands in the same directory; where the path ends in a slash, it
stands in the directory that the path leads to. -/
theorem piecesOf_withSuffix (path : Path) :
    ∃ (pieces : List String) (last : Option String), piecesOf path = pieces ++ last.toList ∧
      ∀ suffix : String, '/' ∉ suffix.toList → suffix ≠ "" →
        piecesOf (path.withSuffix suffix) = pieces ++ [last.getD "" ++ suffix] := by
  obtain ⟨init, last, hsplit, hmore⟩ := Path.splitSlash_append_of_not_mem path.text.toList
  have hkept {piece : List Char} (h : piece ≠ []) :
      [piece].filter (fun piece => piece ≠ []) = [piece] :=
    List.filter_cons_of_pos (decide_eq_true h)
  refine ⟨(init.filter fun piece => piece ≠ []).map String.ofList,
    if last = [] then none else some (String.ofList last), ?_, fun suffix hplain hne => ?_⟩
  · unfold piecesOf
    rw [hsplit, List.filter_append, List.map_append]
    by_cases hempty : last = []
    · rw [hempty]
      rfl
    · rw [if_neg hempty, hkept hempty]
      rfl
  · have htext : (path.withSuffix suffix).text.toList = path.text.toList ++ suffix.toList :=
      String.toList_append
    have hpiece : last ++ suffix.toList ≠ [] := by simp [hne]
    have hname : String.ofList (last ++ suffix.toList) = String.ofList last ++ suffix := by
      rw [String.ofList_append, String.ofList_toList]
    unfold piecesOf
    rw [htext, hmore _ hplain, List.filter_append, hkept hpiece, List.map_append,
      List.map_singleton, hname]
    by_cases hempty : last = []
    · rw [if_pos hempty, hempty]
      rfl
    · rw [if_neg hempty]
      rfl

theorem isAbsolute_withSuffix (path : Path) {suffix : String} (hplain : '/' ∉ suffix.toList) :
    (path.withSuffix suffix).isAbsolute = path.isAbsolute := by
  have htext : (path.withSuffix suffix).text.toList = path.text.toList ++ suffix.toList :=
    String.toList_append
  unfold Path.isAbsolute
  rw [htext]
  cases path.text.toList with
  | nil =>
    have hhead : suffix.toList.head? ≠ some '/' := fun hhead => hplain (List.mem_of_mem_head? hhead)
    simpa using hhead
  | cons c cs => rfl

/-- Files named after one file stand in one directory, and none of them where that file stands. -/
theorem placeOf_withSuffix (fs : FileSystem) (path : Path) :
    ∃ (directory : Place) (name : String), ∀ suffix : String, '/' ∉ suffix.toList →
      2 < suffix.length → fs.placeOf (path.withSuffix suffix) = directory ++ [name ++ suffix] ∧
        fs.placeOf path ≠ directory ++ [name ++ suffix] := by
  obtain ⟨pieces, last, hpieces, hsuffix⟩ := piecesOf_withSuffix path
  generalize hstart : (if path.isAbsolute then [] else fs.cwd) = start
  refine ⟨pieces.foldl pieceStep start, last.getD "", fun suffix hplain hlong => ⟨?_, ?_⟩⟩
  · have hlonger {other : String} (hshort : other.length < 3) : last.getD "" ++ suffix ≠ other := by
      rintro rfl
      rw [String.length_append] at hshort
      omega
    have hne : suffix ≠ "" := by
      rintro rfl
      exact absurd hlong (by decide)
    unfold placeOf
    rw [← foldl_piecesOf, isAbsolute_withSuffix path hplain, hstart, hsuffix suffix hplain hne,
      List.foldl_append, List.foldl_cons, List.foldl_nil, pieceStep,
      if_neg (hlonger (by decide)), if_neg (hlonger (by decide))]
  · unfold placeOf
    rw [← foldl_piecesOf, hstart, hpieces, List.foldl_append]
    generalize pieces.foldl pieceStep start = directory
    cases last with
    | none => simp
    | some name =>
      change pieceStep directory name ≠ directory ++ [name ++ suffix]
      have hlonger : name ≠ name ++ suffix := by
        intro heq
        have hlength := congrArg String.length heq
        rw [String.length_append] at hlength
        omega
      unfold pieceStep
      split
      · simp
      · split
        · intro heq
          have hlength := congrArg List.length heq
          rw [List.length_append, List.length_dropLast, List.length_singleton] at hlength
          omega
        · simpa using hlonger

/-- The temporary file does not stand where the queue file does. -/
theorem placeOf_temporary_ne (fs : FileSystem) (path : Path) :
    fs.placeOf (temporary path) ≠ fs.placeOf path := by
  obtain ⟨directory, name, hsuffix⟩ := placeOf_withSuffix fs path
  obtain ⟨hplace, hne⟩ := hsuffix ".tmp" (by decide) (by decide)
  rw [temporary, hplace]
  exact hne.symm

/-- Where the temporary file can be opened, the path of the queue file can be followed, unless it is
empty. -/
theorem exists_locate_of_temporary {target : Target}
    (hlocate : fs.locate (temporary path) = .ok target) (hempty : path.isEmpty = false) :
    ∃ end_, fs.locate path = .ok end_ := by
  have htext : (temporary path).text.toList = path.text.toList ++ ".tmp".toList :=
    String.toList_append
  have hsize : (temporary path).text.utf8ByteSize = path.text.utf8ByteSize + 4 :=
    String.utf8ByteSize_append
  obtain ⟨pieces, last, hpieces, hsuffix⟩ := piecesOf_withSuffix path
  have htemporary : piecesOf (temporary path) = pieces ++ [last.getD "" ++ ".tmp"] :=
    hsuffix ".tmp" (by decide) (by decide)
  have habsolute : (temporary path).isAbsolute = path.isAbsolute :=
    isAbsolute_withSuffix path (by decide)
  unfold FileSystem.locate at hlocate
  rw [habsolute, htemporary, htext, hsize] at hlocate
  split at hlocate
  · cases hlocate
  next hplain =>
  split at hlocate
  · cases hlocate
  split at hlocate
  · cases hlocate
  next hshort =>
  have hplain' : ¬ path.text.toList.contains (Char.ofNat 0) = true := by
    intro hnul
    rw [List.contains_append, hnul] at hplain
    exact hplain rfl
  have hshort' : ¬ pathLimit < path.text.utf8ByteSize := by omega
  unfold FileSystem.locate
  rw [if_neg hplain', hempty, if_neg Bool.false_ne_true, if_neg hshort', hpieces]
  exact exists_locateFrom hlocate last _

/-- What is read under a path does not depend on the file beside it. -/
theorem read_put_temporary (h : fs.Sound) {place : Place} {content : List UInt8}
    (hopen : fs.openPlace (temporary path) = .ok (place, content)) (new : List UInt8) :
    (fs.put place (.file new)).read path = fs.read path := by
  obtain ⟨directory, label, hlocate, -, -, -, hplace, hfree, -⟩ := h.openPlace hopen
  cases hempty : path.isEmpty with
  | true =>
    have hnul : ¬ path.text.toList.contains (Char.ofNat 0) = true := by
      rw [Path.isEmpty, String.isEmpty_iff] at hempty
      rw [hempty]
      decide
    have hnone (fs : FileSystem) : fs.read path = .error .noEntry := by
      unfold FileSystem.read FileSystem.lookup FileSystem.locate
      rw [if_neg hnul, hempty, if_pos rfl]
      rfl
    rw [hnone, hnone]
  | false =>
    obtain ⟨target, htarget⟩ := exists_locate_of_temporary hlocate hempty
    have hdirectories (other : Place) (hdirectory : fs.node? other = some .directory) :
        (fs.put place (.file new)).node? other = some .directory := by
      rw [node?_put_of_ne, hdirectory]
      rintro rfl
      exact hfree hdirectory
    refine read_congr htarget (locate_mono hdirectories rfl htarget) ?_
    rintro above name closed rfl
    refine node?_put_of_ne fs ?_ _
    rw [(h.locate htarget).2, hplace]
    exact (placeOf_temporary_ne fs path).symm

/-- A step failed or was cut off and left this tree: some of the directories were made, or a part of
the bytes was written. -/
def SaveStep.Breaks (path : Path) (fs left : FileSystem) : SaveStep → Prop
  | .makeRoom => MakesWay path fs left
  | .write bytes => left = fs ∨ ∃ part, part <+: bytes ∧ fs.append (temporary path) part = .ok left
  | _ => left = fs

/-- Some steps were run, and the next one failed or was cut off, whatever the tree would have let it
do. -/
inductive CutOff (path : Path) : FileSystem → List SaveStep → FileSystem → Prop
  | here {fs left : FileSystem} {step : SaveStep} {steps : List SaveStep}
      (hbreaks : step.Breaks path fs left) : CutOff path fs (step :: steps) left
  | later {fs next left : FileSystem} {step : SaveStep} {steps : List SaveStep}
      (hrun : step.run path fs = .ok next) (hcut : CutOff path next steps left) :
      CutOff path fs (step :: steps) left

/-- What a step that fails leaves is one of the trees that it can leave. -/
theorem SaveStep.breaks_leftover (path : Path) (fs : FileSystem) (step : SaveStep) :
    step.Breaks path fs (step.leftover path fs) := by
  cases step with
  | makeRoom => exact makesWay_roomLeft fs path
  | write bytes => exact .inl rfl
  | _ => rfl

theorem cutOff_runSteps {steps : List SaveStep} {error : IoError}
    (hfails : (runSteps path fs steps).2 = .error error) :
    CutOff path fs steps (runSteps path fs steps).1 := by
  induction steps generalizing fs with
  | nil => cases hfails
  | cons step steps ih =>
    rw [runSteps] at hfails ⊢
    cases hrun : step.run path fs with
    | ok next =>
      rw [hrun] at hfails
      exact .later hrun (ih hfails)
    | error found => exact .here (step.breaks_leftover path fs)

theorem read_append_temporary (h : fs.Sound) {bytes : List UInt8}
    (happend : fs.append (temporary path) bytes = .ok left) :
    left.Sound ∧ left.read path = fs.read path := by
  refine ⟨(writes_append h happend).edits.sound, ?_⟩
  obtain ⟨⟨place, content⟩, hopen, hput⟩ := bind_eq_ok.mp happend
  cases hput
  exact read_put_temporary h hopen _

/-- The steps between the first and the last one leave the queue file alone. -/
theorem SaveStep.read_run (h : fs.Sound) {step : SaveStep} (hroom : step ≠ .makeRoom)
    (hreplace : step ≠ .replace) (hrun : step.run path fs = .ok next) :
    next.Sound ∧ next.read path = fs.read path := by
  cases step with
  | makeRoom => exact absurd rfl hroom
  | createTemporary =>
    refine ⟨(writes_create h hrun).edits.sound, ?_⟩
    obtain ⟨⟨place, content⟩, hopen, hput⟩ := bind_eq_ok.mp hrun
    cases hput
    exact read_put_temporary h hopen _
  | write bytes => exact read_append_temporary h hrun
  | synchronise =>
    cases hrun
    exact ⟨h, rfl⟩
  | replace => exact absurd rfl hreplace

theorem SaveStep.Breaks.read (h : fs.Sound) {step : SaveStep} (hroom : step ≠ .makeRoom)
    (hbreaks : step.Breaks path fs left) : left.Sound ∧ left.read path = fs.read path := by
  cases step with
  | makeRoom => exact absurd rfl hroom
  | write bytes =>
    rcases hbreaks with rfl | ⟨part, -, happend⟩
    · exact ⟨h, rfl⟩
    · exact read_append_temporary h happend
  | _ =>
    cases hbreaks
    exact ⟨h, rfl⟩

/-- Once the directories are there, a save that does not come to its end has changed nothing for
those who read the queue file. -/
theorem CutOff.read {steps : List SaveStep} (hcut : CutOff path fs steps left) (h : fs.Sound)
    (hroom : .makeRoom ∉ steps) (hreplace : .replace ∉ steps.dropLast) :
    left.Sound ∧ left.read path = fs.read path := by
  induction hcut with
  | here hbreaks => exact hbreaks.read h fun heq => hroom (heq ▸ List.mem_cons_self)
  | @later fs next left step steps hrun hcut ih =>
    have hmore : steps ≠ [] := by
      rintro rfl
      cases hcut
    rw [List.dropLast_cons_of_ne_nil hmore] at hreplace
    have hstep : step ≠ .makeRoom := fun heq => hroom (heq ▸ List.mem_cons_self)
    have hstep' : step ≠ .replace := fun heq => hreplace (heq ▸ List.mem_cons_self)
    obtain ⟨hnext, hkept⟩ := SaveStep.read_run h hstep hstep' hrun
    obtain ⟨hleft, hread⟩ := ih hnext (fun hmem => hroom (List.mem_cons_of_mem _ hmem))
      fun hmem => hreplace (List.mem_cons_of_mem _ hmem)
    exact ⟨hleft, hread.trans hkept⟩

/-- A save that does not come to its end has made directories at most, as far as those who read the
queue file can tell. -/
theorem CutOff.exists_makesWay (h : fs.Sound) (hcut : CutOff path fs (saveSteps items) left) :
    left.Sound ∧ ∃ made, MakesWay path fs made ∧ left.read path = made.read path := by
  cases hcut with
  | here hbreaks => exact ⟨(MakesWay.edits h hbreaks).sound, left, hbreaks, rfl⟩
  | @later _ made _ _ _ hrun hcut =>
    have hway := makesWay_makeRoomFor hrun
    obtain ⟨hleft, hread⟩ := hcut.read (MakesWay.edits h hway).sound (by simp) (by simp)
    exact ⟨hleft, made, hway, hread⟩

theorem load_congr {other : FileSystem} (hread : other.read path = fs.read path) :
    load other path = load fs path := by
  rw [load, load, hread]

theorem runSteps_eq_ok {steps : List SaveStep} {step : SaveStep}
    (hruns : runSteps path fs (step :: steps) = (left, .ok ())) :
    ∃ next, step.run path fs = .ok next ∧ runSteps path next steps = (left, .ok ()) := by
  rw [runSteps] at hruns
  cases hrun : step.run path fs with
  | ok next =>
    rw [hrun] at hruns
    exact ⟨next, rfl, hruns⟩
  | error error =>
    rw [hrun] at hruns
    cases hruns

/-- A save that came to its end has moved the temporary file away. -/
theorem node?_temporary_of_save (h : fs.Sound) (hsaved : (save fs path items).2 = .ok ()) :
    (save fs path items).1.node? ((save fs path items).1.placeOf (temporary path)) = none := by
  have hcwd := (edits_save h path items).1.cwd
  have hruns : runSteps path fs (saveSteps items) = ((save fs path items).1, .ok ()) := by
    unfold save at hsaved ⊢
    split at hsaved
    · next left heq => rw [heq]
    · cases hsaved
  generalize (save fs path items).1 = left at hruns hcwd
  obtain ⟨roomy, hroom, hruns⟩ := runSteps_eq_ok hruns
  obtain ⟨created, hcreate, hruns⟩ := runSteps_eq_ok hruns
  obtain ⟨written, hwrite, hruns⟩ := runSteps_eq_ok hruns
  obtain ⟨same, hsame, hruns⟩ := runSteps_eq_ok hruns
  obtain ⟨last, hreplace, hruns⟩ := runSteps_eq_ok hruns
  cases hruns
  cases hsame
  have hedits := edits_makeRoomFor h hroom
  have hwrites :=
    have hcreated := writes_create hedits.sound hcreate
    hcreated.trans (writes_append hcreated.edits.sound hwrite)
  have hhome : written.cwd = left.cwd := by rw [hcwd, hwrites.edits.cwd, hedits.cwd]
  have hgone := hwrites.edits.sound.node?_rename (placeOf_temporary_ne written path) hreplace
  unfold placeOf at hgone ⊢
  rwa [← hhome]

/-- **Atomic save.** Whatever stood at the path of the queue file, a save that fails or is cut off
leaves the queue that was loaded before, seen through the directories that it has made; these make no
difference where the path could be followed before, or where it does not step up and holds no name
that is too long. A save that comes to its end leaves the new queue and no temporary file. -/
theorem save_atomic {fs : FileSystem} (h : fs.Sound) (path : Path) {items : List Item}
    (hnodup : (items.map Item.id).Nodup) :
    (∀ left, CutOff path fs (saveSteps items) left →
      left.Sound ∧ (∃ made, MakesWay path fs made ∧ load left path = load made path) ∧
      ((∃ target, fs.locate path = .ok target) ∨ path.Level → load left path = load fs path)) ∧
    (∀ error, (save fs path items).2 = .error error →
      CutOff path fs (saveSteps items) (save fs path items).1) ∧
    ((save fs path items).2 = .ok () →
      load (save fs path items).1 path = .ok (kept items) ∧
      (save fs path items).1.node? ((save fs path items).1.placeOf (temporary path)) = none) := by
  refine ⟨fun left hcut => ?_, fun error hfails => ?_, fun hsaved => ⟨?_, ?_⟩⟩
  · obtain ⟨hleft, made, hway, hread⟩ := hcut.exists_makesWay h
    refine ⟨hleft, ⟨made, hway, load_congr hread⟩, ?_⟩
    rintro (⟨target, hlocate⟩ | hlevel)
    · exact load_congr (hread.trans (by rw [hway.eq_of_locate h hlocate]))
    · exact load_congr (hread.trans (hway.read_of_level h hlevel))
  · have hsteps : (runSteps path fs (saveSteps items)).2 ≠ .ok () ∧
        (save fs path items).1 = (runSteps path fs (saveSteps items)).1 := by
      unfold save at hfails ⊢
      split at hfails
      · cases hfails
      · next left found heq =>
        rw [heq]
        exact ⟨nofun, rfl⟩
    obtain ⟨hfailed, hleft⟩ := hsteps
    rw [hleft]
    cases hresult : (runSteps path fs (saveSteps items)).2 with
    | ok => exact absurd hresult hfailed
    | error found => exact cutOff_runSteps hresult
  · exact load_of_read hnodup ((edits_save h path items).2 hsaved)
  · exact node?_temporary_of_save h hsaved

def blocked : FileSystem :=
  ⟨[], [(["q.json"], .file (render [Item.new ⟨3⟩ "u" ⟨"/d/a"⟩ .epoch])),
    (["q.json.tmp"], .directory)]⟩

theorem sound_blocked : blocked.Sound := by
  refine .flat fun entry hmem => ?_
  rw [List.mem_cons, List.mem_singleton] at hmem
  rcases hmem with rfl | rfl <;> rfl

def replacement : List Item :=
  [Item.new ⟨4⟩ "v" ⟨"/d/b"⟩ .epoch,
    { Item.new ⟨3⟩ "u" ⟨"/d/a"⟩ .epoch with status := .paused, bytesDownloaded := 7 }]

/-- The new queue cannot be saved, and the old one stays. -/
theorem save_atomic_blocked :
    (replacement.map Item.id).Nodup ∧
      (save blocked ⟨"/q.json"⟩ replacement).2 = .error (.write ⟨"/q.json"⟩ .isDirectory) ∧
      load blocked ⟨"/q.json"⟩ = .ok (kept [Item.new ⟨3⟩ "u" ⟨"/d/a"⟩ .epoch]) ∧
      load (save blocked ⟨"/q.json"⟩ replacement).1 ⟨"/q.json"⟩ = load blocked ⟨"/q.json"⟩ := by
  have hnodup : (replacement.map Item.id).Nodup := by decide
  have hfails : (save blocked ⟨"/q.json"⟩ replacement).2 =
      .error (.write ⟨"/q.json"⟩ .isDirectory) := by rfl
  have hbefore : load blocked ⟨"/q.json"⟩ = .ok (kept [Item.new ⟨3⟩ "u" ⟨"/d/a"⟩ .epoch]) :=
    load_of_read (by decide) (by rfl)
  have hatomic := save_atomic sound_blocked ⟨"/q.json"⟩ hnodup
  have hlocate : blocked.locate ⟨"/q.json"⟩ = .ok (.entry [] "q.json" false) := by rfl
  have hkept := (hatomic.1 _ (hatomic.2.1 _ hfails)).2.2 (.inl ⟨_, hlocate⟩)
  exact ⟨hnodup, hfails, hbefore, hkept⟩

/-- A save that fails can bring a file into view: the directory that it has made lets the path step
up again. -/
theorem load_of_blocked_save :
    ¬ ∀ (fs : FileSystem) (path : Path) (items : List Item), fs.Sound →
      (items.map Item.id).Nodup → ∀ error, (save fs path items).2 = .error error →
      load (save fs path items).1 path = load fs path := by
  intro hkept
  have hfails : (save blocked ⟨"a/../q.json"⟩ []).2 =
      .error (.write ⟨"a/../q.json"⟩ .isDirectory) := by rfl
  have hbefore : load blocked ⟨"a/../q.json"⟩ = .ok [] := by rfl
  have hafter : load (save blocked ⟨"a/../q.json"⟩ []).1 ⟨"a/../q.json"⟩ =
      .ok (kept [Item.new ⟨3⟩ "u" ⟨"/d/a"⟩ .epoch]) :=
    load_of_read (by decide) (by rfl)
  have heq := hkept blocked ⟨"a/../q.json"⟩ [] sound_blocked .nil _ hfails
  rw [hbefore, hafter] at heq
  cases heq

end QueueFile

end DownloadQueue
