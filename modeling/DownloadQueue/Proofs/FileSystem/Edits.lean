import DownloadQueue.FileSystem.Change
import DownloadQueue.Proofs.FileSystem.Places

namespace DownloadQueue.FileSystem

variable {fs other third : FileSystem} {place directory : Place} {label : String} {path : Path}

/-- A tree was turned into another: directories may have come in, and files have changed at some
places only. -/
structure Edits (fs other : FileSystem) (touched : Place → Prop) : Prop where
  sound : other.Sound
  cwd : other.cwd = fs.cwd
  fileAt : ∀ place, ¬ touched place → other.fileAt place = fs.fileAt place

variable {touched : Place → Prop}

theorem Edits.refl (h : fs.Sound) : Edits fs fs touched :=
  ⟨h, rfl, fun _ _ => rfl⟩

theorem Edits.trans (h : Edits fs other touched) (h' : Edits other third touched) :
    Edits fs third touched where
  sound := h'.sound
  cwd := h'.cwd.trans h.cwd
  fileAt place hplace := (h'.fileAt place hplace).trans (h.fileAt place hplace)

theorem Edits.mono {wider : Place → Prop} (h : Edits fs other touched)
    (hwider : ∀ place, touched place → wider place) : Edits fs other wider :=
  ⟨h.sound, h.cwd, fun place hplace => h.fileAt place fun htouched => hplace (hwider place htouched)⟩

theorem Edits.content? (h : Edits fs other touched) (hsound : fs.Sound) (hresolved : path.Resolved)
    (hplace : ¬ touched (fs.placeOf path)) : other.content? path = fs.content? path :=
  content?_congr hsound h.sound hresolved (h.fileAt _ hplace)

/-- A node can be put at a place in a directory, unless it takes the place of a directory. -/
theorem Sound.put (h : fs.Sound) (hparent : fs.node? directory = some .directory) {node : Node}
    (hfree : fs.node? (directory ++ [label]) ≠ some .directory) :
    (fs.put (directory ++ [label]) node).Sound where
  parents place name found hfound := by
    have hkept (hdirectory : fs.node? place = some .directory) :
        (fs.put (directory ++ [label]) node).node? place = some .directory := by
      rw [node?_put_of_ne, hdirectory]
      intro heq
      exact hfree (heq ▸ hdirectory)
    by_cases heq : place ++ [name] = directory ++ [label]
    · rw [(List.append_inj' heq rfl).1]
      exact (List.append_inj' heq rfl).1 ▸ hkept ((List.append_inj' heq rfl).1 ▸ hparent)
    · rw [node?_put_of_ne _ heq] at hfound
      exact hkept (h.parents place name found hfound)
  home := by
    change (fs.put (directory ++ [label]) node).node? fs.cwd = _
    rw [node?_put_of_ne, h.home]
    intro heq
    exact hfree (heq ▸ h.home)
  named := h.named

theorem fileAt_put_of_ne {node : Node} (hne : place ≠ directory ++ [label]) :
    (fs.put (directory ++ [label]) node).fileAt place = fs.fileAt place := by
  unfold fileAt
  rw [node?_put_of_ne _ hne]

theorem fileAt_put_self {content : List UInt8} :
    (fs.put (directory ++ [label]) (.file content)).fileAt (directory ++ [label]) = some content := by
  rw [fileAt_eq_some_iff]
  exact node?_put_self fs (by simp) _

theorem edits_put_file (h : fs.Sound) (hparent : fs.node? directory = some .directory)
    (hfree : fs.node? (directory ++ [label]) ≠ some .directory) (content : List UInt8) :
    Edits fs (fs.put (directory ++ [label]) (.file content)) (· = directory ++ [label]) :=
  ⟨h.put hparent hfree, rfl, fun _ hne => fileAt_put_of_ne hne⟩

theorem edits_put_directory (h : fs.Sound) (hparent : fs.node? directory = some .directory)
    (hfree : fs.node? (directory ++ [label]) = none) :
    Edits fs (fs.put (directory ++ [label]) .directory) fun _ => False := by
  refine ⟨h.put hparent (by simp [hfree]), rfl, fun place _ => ?_⟩
  by_cases heq : place = directory ++ [label]
  · subst heq
    rw [fileAt_eq_none_iff.mpr (.inl hfree), fileAt_eq_none_iff]
    exact .inr (node?_put_self fs (by simp) _)
  · exact fileAt_put_of_ne heq

/-- A new directory is no change of any file. -/
theorem edits_makeDirectory (h : fs.Sound) (hmake : fs.makeDirectory path = .ok other) :
    Edits fs other fun _ => False := by
  obtain ⟨target, hlocate, hmake⟩ := bind_eq_ok.mp hmake
  cases target with
  | here place => cases hmake
  | entry directory label closed =>
    obtain ⟨hparent, -⟩ := h.locate hlocate
    obtain ⟨place, hchild, hmake⟩ := bind_eq_ok.mp hmake
    obtain ⟨-, rfl⟩ := childOf_eq_ok_iff.mp hchild
    split at hmake
    · cases hmake
    · next hfree =>
      cases hmake
      exact edits_put_directory h hparent hfree

theorem edits_makeParents (h : fs.Sound) (components : List Path.Component)
    (hmake : fs.makeParents components = .ok other) : Edits fs other fun _ => False := by
  induction components generalizing other with
  | nil =>
    cases hmake
    exact .refl h
  | cons last above ih =>
    rw [makeParents] at hmake
    split at hmake
    · next made hmade =>
      cases hmake
      exact edits_makeDirectory h hmade
    · split at hmake
      · obtain ⟨parents, hparents, hmake⟩ := bind_eq_ok.mp hmake
        have habove := ih hparents
        split at hmake
        · next made hmade =>
          cases hmake
          exact habove.trans (edits_makeDirectory habove.sound hmade)
        · split at hmake
          · cases hmake
            exact habove
          · cases hmake
      · split at hmake
        · cases hmake
          exact .refl h
        · cases hmake

theorem edits_makeRoomFor (h : fs.Sound) (hmake : fs.makeRoomFor path = .ok other) :
    Edits fs other fun _ => False := by
  unfold makeRoomFor at hmake
  split at hmake
  · cases hmake
    exact .refl h
  · split at hmake
    · cases hmake
      exact .refl h
    · exact edits_makeParents h _ hmake

theorem edits_parentsLeft (h : fs.Sound) (components : List Path.Component) :
    Edits fs (fs.parentsLeft components) fun _ => False := by
  induction components with
  | nil => exact .refl h
  | cons last above ih =>
    rw [parentsLeft]
    split
    · exact .refl h
    · split
      · split
        · next made hmade => exact edits_makeParents h above hmade
        · exact ih
      · exact .refl h

theorem edits_roomLeft (h : fs.Sound) (path : Path) :
    Edits fs (fs.roomLeft path) fun _ => False := by
  unfold roomLeft
  split
  · exact .refl h
  · split
    · exact .refl h
    · exact edits_parentsLeft h _

/-- A file that can be opened for writing stands, or may stand, at the place that its path names. -/
theorem Sound.openPlace (h : fs.Sound) {content : List UInt8}
    (hopen : fs.openPlace path = .ok (place, content)) :
    ∃ directory label, fs.locate path = .ok (.entry directory label false) ∧
      label.utf8ByteSize ≤ nameLimit ∧ fs.node? directory = some .directory ∧
      place = directory ++ [label] ∧ place = fs.placeOf path ∧
      fs.node? place ≠ some .directory ∧ content = (fs.fileAt place).getD [] := by
  obtain ⟨target, hlocate, hopen⟩ := bind_eq_ok.mp hopen
  cases target with
  | here place => cases hopen
  | entry directory label closed =>
    obtain ⟨hparent, hplace⟩ := h.locate hlocate
    dsimp only at hopen
    split at hopen
    · cases hopen
    · next hclosed =>
      rw [Bool.not_eq_true] at hclosed
      subst hclosed
      obtain ⟨child, hchild, hopen⟩ := bind_eq_ok.mp hopen
      obtain ⟨hlabel, rfl⟩ := childOf_eq_ok_iff.mp hchild
      refine ⟨directory, label, hlocate, hlabel, hparent, ?_⟩
      split at hopen
      · cases hopen
      · next found hnode =>
        cases hopen
        exact ⟨rfl, hplace, by simp [hnode], by simp [fileAt, hnode]⟩
      · next hnode =>
        cases hopen
        exact ⟨rfl, hplace, by simp [hnode], by simp [fileAt, hnode]⟩

structure Writes (fs other : FileSystem) (path : Path) (change : List UInt8 → List UInt8) : Prop where
  edits : Edits fs other (· = fs.placeOf path)
  fileAt : other.fileAt (fs.placeOf path) = some (change ((fs.fileAt (fs.placeOf path)).getD []))
  content? : path.Resolved → other.content? path = some (change ((fs.content? path).getD []))

theorem Sound.content?_eq_fileAt (h : fs.Sound) {names : List String}
    (hnames : ∀ name ∈ names, Path.IsName name) (hfits : Fits names) :
    fs.content? (Path.ofNames names) = fs.fileAt names := by
  ext content
  rw [h.content?_ofNames hnames]
  exact ⟨And.right, fun hfile => ⟨hfits, hfile⟩⟩

theorem writes_put (h : fs.Sound) {content : List UInt8}
    (hopen : fs.openPlace path = .ok (place, content)) (change : List UInt8 → List UInt8) :
    Writes fs (fs.put place (.file (change content))) path change := by
  obtain ⟨directory, label, hlocate, hlabel, hparent, rfl, hplace, hfree, rfl⟩ := h.openPlace hopen
  have hedits := edits_put_file h hparent hfree
    (change ((fs.fileAt (directory ++ [label])).getD []))
  refine ⟨hplace ▸ hedits, hplace ▸ fileAt_put_self, ?_⟩
  rintro ⟨names, hnames, rfl⟩
  have hfits := h.fits_of_locate hnames hlocate hlabel
  rw [placeOf_ofNames fs hnames] at hplace
  rw [hedits.sound.content?_eq_fileAt hnames hfits, h.content?_eq_fileAt hnames hfits, ← hplace,
    fileAt_put_self]

theorem writes_create (h : fs.Sound) (hcreate : fs.create path = .ok other) :
    Writes fs other path fun _ => [] := by
  obtain ⟨⟨place, content⟩, hopen, hput⟩ := bind_eq_ok.mp hcreate
  cases hput
  exact writes_put h hopen fun _ => []

theorem writes_append (h : fs.Sound) {bytes : List UInt8}
    (happend : fs.append path bytes = .ok other) : Writes fs other path (· ++ bytes) := by
  obtain ⟨⟨place, content⟩, hopen, hput⟩ := bind_eq_ok.mp happend
  cases hput
  exact writes_put h hopen (· ++ bytes)

theorem writes_setLength (h : fs.Sound) {length : Nat}
    (hset : fs.setLength path length = .ok other) : Writes fs other path (resized length) := by
  obtain ⟨⟨place, content⟩, hopen, hput⟩ := bind_eq_ok.mp hset
  cases hput
  exact writes_put h hopen (resized length)

theorem Writes.trans {change next : List UInt8 → List UInt8} (h : Writes fs other path change)
    (h' : Writes other third path next) : Writes fs third path fun content => next (change content) := by
  have hplace : other.placeOf path = fs.placeOf path := by
    unfold placeOf
    rw [h.edits.cwd]
  refine ⟨h.edits.trans (hplace ▸ h'.edits), ?_, fun hresolved => ?_⟩
  · rw [← hplace, h'.fileAt, hplace, h.fileAt, Option.getD_some]
  · rw [h'.content? hresolved, h.content? hresolved, Option.getD_some]

/-- A file can go; nothing stands below it. -/
theorem Sound.erase (h : fs.Sound) {content : List UInt8}
    (hfile : fs.node? place = some (.file content)) : (fs.erase place).Sound := by
  have hkept {other : Place} (hdirectory : fs.node? other = some .directory) :
      (fs.erase place).node? other = some .directory := by
    rw [node?_erase_of_ne, hdirectory]
    intro heq
    rw [heq, hfile] at hdirectory
    cases hdirectory
  refine ⟨fun other label node hnode => hkept ?_, hkept h.home, h.named⟩
  by_cases heq : other ++ [label] = place
  · rw [heq, node?_erase_self fs (by simp [← heq])] at hnode
    cases hnode
  · rw [node?_erase_of_ne fs heq] at hnode
    exact h.parents other label node hnode

theorem edits_erase (h : fs.Sound) {content : List UInt8}
    (hfile : fs.node? place = some (.file content)) : Edits fs (fs.erase place) (· = place) := by
  refine ⟨h.erase hfile, rfl, fun other hne => ?_⟩
  unfold FileSystem.fileAt
  rw [node?_erase_of_ne fs hne]

/-- What can be read can be removed, and nothing else. -/
theorem removeFile_eq_ok_iff :
    fs.removeFile path = .ok other ↔
      (∃ content, fs.content? path = some content) ∧ other = fs.erase (fs.placeOf path) := by
  constructor
  · intro hremove
    obtain ⟨target, hlocate, hremove⟩ := bind_eq_ok.mp hremove
    cases target with
    | here place => cases hremove
    | entry directory label closed =>
      have hplace := append_eq_placeOf hlocate
      obtain ⟨child, hchild, hremove⟩ := bind_eq_ok.mp hremove
      obtain ⟨hfits, rfl⟩ := childOf_eq_ok_iff.mp hchild
      split at hremove
      · cases hremove
      · cases hremove
      · next content hnode =>
        cases closed with
        | true => cases hremove
        | false =>
          cases hremove
          rw [hplace] at hnode ⊢
          exact ⟨⟨content, content?_eq_some_iff.mpr
            ⟨directory, label, hlocate, hfits, hplace, hnode⟩⟩, rfl⟩
  · rintro ⟨⟨content, hcontent⟩, rfl⟩
    obtain ⟨directory, label, hlocate, hfits, hplace, hnode⟩ := content?_eq_some_iff.mp hcontent
    rw [← hplace] at hnode ⊢
    have hchild : childOf directory label = .ok (directory ++ [label]) :=
      childOf_eq_ok_iff.mpr ⟨hfits, rfl⟩
    refine bind_eq_ok.mpr ⟨_, hlocate, bind_eq_ok.mpr ⟨_, hchild, ?_⟩⟩
    rw [hnode]
    rfl

theorem node?_of_content? {content : List UInt8} (h : fs.content? path = some content) :
    fs.node? (fs.placeOf path) = some (.file content) ∧ fs.placeOf path ≠ [] := by
  obtain ⟨directory, label, -, -, hplace, hnode⟩ := content?_eq_some_iff.mp h
  exact ⟨hnode, by simp [← hplace]⟩

theorem edits_removeFile (h : fs.Sound) (hremove : fs.removeFile path = .ok other) :
    Edits fs other (· = fs.placeOf path) ∧ other.fileAt (fs.placeOf path) = none := by
  obtain ⟨⟨content, hcontent⟩, rfl⟩ := removeFile_eq_ok_iff.mp hremove
  obtain ⟨hnode, hne⟩ := node?_of_content? hcontent
  refine ⟨edits_erase h hnode, fileAt_eq_none_iff.mpr (.inl ?_)⟩
  exact node?_erase_self fs hne

/-- What is left after a partial file was to be removed. -/
theorem edits_removePartial (h : fs.Sound) (path : Path) :
    Edits fs ((fs.removePartial path).toOption.getD fs) (· = fs.placeOf path) ∧
      (((fs.removePartial path).toOption.getD fs).fileAt (fs.placeOf path) = none ∨
        (fs.removePartial path).toOption.getD fs = fs) := by
  unfold removePartial
  split
  · next other hremove =>
    obtain ⟨hedits, hnone⟩ := edits_removeFile h hremove
    exact ⟨hedits, .inl hnone⟩
  · split
    · exact ⟨.refl h, .inr rfl⟩
    · exact ⟨.refl h, .inr rfl⟩

theorem content?_removePartial (h : fs.Sound) (hresolved : path.Resolved) :
    ((fs.removePartial path).toOption.getD fs).content? path = none ∨
      ((fs.removePartial path).toOption.getD fs).content? path = fs.content? path := by
  obtain ⟨hedits, hnone | hsame⟩ := edits_removePartial h path
  · left
    obtain ⟨names, hnames, rfl⟩ := hresolved
    rw [placeOf_ofNames fs hnames] at hnone
    rw [Option.eq_none_iff_forall_ne_some]
    intro content hcontent
    rw [hedits.sound.content?_ofNames hnames, hnone] at hcontent
    cases hcontent.2
  · exact .inr (by rw [hsame])

theorem Sound.node?_of_append_ne_nil (h : fs.Sound) {names : Place} (hne : names ≠ []) {node : Node}
    (hnode : fs.node? (place ++ names) = some node) : fs.node? place = some .directory := by
  rcases List.eq_nil_or_concat names with rfl | ⟨init, last, rfl⟩
  · exact absurd rfl hne
  rw [List.concat_eq_append, ← List.append_assoc] at hnode
  exact h.node?_of_append (h.parents _ _ _ hnode)

/-- More directories do not lead a step astray. -/
theorem follow_mono
    (hdirectories : ∀ place, fs.node? place = some .directory → other.node? place = some .directory)
    {piece : String} {next : Place} (hfollow : fs.follow directory piece = .ok next) :
    other.follow directory piece = .ok next := by
  unfold FileSystem.follow at hfollow ⊢
  split at hfollow
  · next hdot => rwa [if_pos hdot]
  · next hdot =>
    split at hfollow
    · next hdots => rwa [if_neg hdot, if_pos hdots]
    · next hdots =>
      obtain ⟨child, hchild, henter⟩ := bind_eq_ok.mp hfollow
      obtain ⟨hnode, rfl⟩ := enter_eq_ok_iff.mp henter
      rw [if_neg hdot, if_neg hdots]
      exact bind_eq_ok.mpr ⟨_, hchild, enter_eq_ok_iff.mpr ⟨hdirectories _ hnode, rfl⟩⟩

/-- Where nothing comes in, a step that failed still fails in the same way, unless a file was in its
way. -/
theorem follow_error (hmissing : ∀ place, fs.node? place = none → other.node? place = none)
    {piece : String} {error : IoError} (hfollow : fs.follow directory piece = .error error)
    (hne : error ≠ .notDirectory) : other.follow directory piece = .error error := by
  unfold FileSystem.follow at hfollow ⊢
  split at hfollow
  · cases hfollow
  · next hdot =>
    split at hfollow
    · cases hfollow
    · next hdots =>
      rw [if_neg hdot, if_neg hdots]
      cases hchild : childOf directory piece with
      | error found =>
        rw [hchild] at hfollow
        exact hfollow
      | ok child =>
        rw [hchild] at hfollow
        change fs.enter child = _ at hfollow
        change other.enter child = _
        unfold enter at hfollow ⊢
        split at hfollow
        · next hnone => rwa [hmissing child hnone]
        · cases hfollow
          exact absurd rfl hne
        · cases hfollow

theorem locateFrom_mono
    (hdirectories : ∀ place, fs.node? place = some .directory → other.node? place = some .directory)
    {closed : Bool} {pieces : List String} {target : Target}
    (hlocate : fs.locateFrom directory closed pieces = .ok target) :
    other.locateFrom directory closed pieces = .ok target := by
  induction pieces generalizing directory with
  | nil => exact hlocate
  | cons piece pieces ih =>
    by_cases hnil : pieces = []
    · subst hnil
      exact hlocate
    · rw [locateFrom_cons _ _ _ _ hnil] at hlocate ⊢
      obtain ⟨next, hfollow, hlocate⟩ := bind_eq_ok.mp hlocate
      exact bind_eq_ok.mpr ⟨next, follow_mono hdirectories hfollow, ih hlocate⟩

/-- What can be found is found in any tree with the same directories and more. -/
theorem locate_mono
    (hdirectories : ∀ place, fs.node? place = some .directory → other.node? place = some .directory)
    (hcwd : other.cwd = fs.cwd) {target : Target} (hlocate : fs.locate path = .ok target) :
    other.locate path = .ok target := by
  unfold FileSystem.locate at hlocate ⊢
  split at hlocate
  · cases hlocate
  · next hplain =>
    rw [if_neg hplain]
    split at hlocate
    · cases hlocate
    · next hempty =>
      rw [if_neg hempty]
      split at hlocate
      · cases hlocate
      · next hshort =>
        rw [if_neg hshort, hcwd]
        exact locateFrom_mono hdirectories hlocate

/-- A path that cannot be followed for lack of a name still cannot when files are gone. -/
theorem locateFrom_error
    (hdirectories : ∀ place, fs.node? place = some .directory → other.node? place = some .directory)
    (hmissing : ∀ place, fs.node? place = none → other.node? place = none) {closed : Bool}
    {pieces : List String} {error : IoError}
    (hlocate : fs.locateFrom directory closed pieces = .error error)
    (hne : error ≠ .notDirectory) : other.locateFrom directory closed pieces = .error error := by
  induction pieces generalizing directory with
  | nil => cases hlocate
  | cons piece pieces ih =>
    by_cases hnil : pieces = []
    · subst hnil
      exact hlocate
    · rw [locateFrom_cons _ _ _ _ hnil] at hlocate ⊢
      cases hfollow : fs.follow directory piece with
      | ok next =>
        rw [hfollow] at hlocate
        rw [follow_mono hdirectories hfollow]
        exact ih hlocate
      | error found =>
        rw [hfollow] at hlocate
        cases hlocate
        rw [follow_error hmissing hfollow hne]
        rfl

/-- What cannot be found is still not found, unless a file was in the way. -/
theorem locate_error
    (hdirectories : ∀ place, fs.node? place = some .directory → other.node? place = some .directory)
    (hmissing : ∀ place, fs.node? place = none → other.node? place = none)
    (hcwd : other.cwd = fs.cwd) {error : IoError} (hlocate : fs.locate path = .error error)
    (hne : error ≠ .notDirectory) : other.locate path = .error error := by
  unfold FileSystem.locate at hlocate ⊢
  rw [hcwd]
  split at hlocate
  · next hnul => rwa [if_pos hnul]
  · next hnul =>
    rw [if_neg hnul]
    split at hlocate
    · next hempty => rwa [if_pos hempty]
    · next hempty =>
      rw [if_neg hempty]
      split at hlocate
      · next hlong => rwa [if_pos hlong]
      · next hlong =>
        rw [if_neg hlong]
        exact locateFrom_error hdirectories hmissing hlocate hne

/-- What a path leads to depends on the directories and on the node at its place. -/
theorem Sound.lookup_congr (h : fs.Sound)
    (hdirectories : ∀ place, fs.node? place = some .directory → other.node? place = some .directory)
    (hmissing : ∀ place, fs.node? place = none → other.node? place = none)
    (hcwd : other.cwd = fs.cwd) (hnode : other.node? (fs.placeOf path) = fs.node? (fs.placeOf path))
    (hne : fs.lookup path ≠ .error .notDirectory) : other.lookup path = fs.lookup path := by
  unfold FileSystem.lookup at hne ⊢
  cases hlocate : fs.locate path with
  | error error =>
    rw [hlocate] at hne
    have hkept : error ≠ .notDirectory := fun heq => hne (heq ▸ rfl)
    rw [locate_error hdirectories hmissing hcwd hlocate hkept]
    rfl
  | ok target =>
    rw [locate_mono hdirectories hcwd hlocate]
    cases target with
    | here place => rfl
    | entry directory label closed =>
      have hplace := (h.locate hlocate).2
      rw [← hplace] at hnode
      change (childOf directory label >>= _) = (childOf directory label >>= _)
      cases hchild : childOf directory label with
      | error error => rfl
      | ok place =>
        obtain ⟨-, rfl⟩ := childOf_eq_ok_iff.mp hchild
        simp only [bind, Except.bind, hnode]

/-- The removal of a file leaves what is read under paths to other places. -/
theorem Sound.read_removePartial (h : fs.Sound) {destination : Path}
    (hplace : fs.placeOf path ≠ fs.placeOf destination)
    (hne : fs.read path ≠ .error .notDirectory) :
    ((fs.removePartial destination).toOption.getD fs).read path = fs.read path := by
  unfold removePartial
  split
  · next other hremove =>
    obtain ⟨⟨content, hcontent⟩, rfl⟩ := removeFile_eq_ok_iff.mp hremove
    obtain ⟨hfile, -⟩ := node?_of_content? hcontent
    have hlookup : (fs.erase (fs.placeOf destination)).lookup path = fs.lookup path := by
      refine h.lookup_congr (fun place hdirectory => ?_) (fun place hnone => ?_) rfl
        (node?_erase_of_ne fs hplace) fun hlookup => hne ?_
      · rw [node?_erase_of_ne fs, hdirectory]
        rintro rfl
        rw [hfile] at hdirectory
        cases hdirectory
      · rw [node?_erase_of_ne fs, hnone]
        rintro rfl
        rw [hfile] at hnone
        cases hnone
      · rw [FileSystem.read, hlookup]
        rfl
    change (fs.erase (fs.placeOf destination)).read path = fs.read path
    rw [FileSystem.read, FileSystem.read, hlookup]
  · split <;> rfl

/-- Nothing can be read where a removal has not failed. -/
theorem content?_of_removePartial_eq_ok (hremove : fs.removePartial path = .ok other) :
    other.content? path = none := by
  rw [Option.eq_none_iff_forall_ne_some]
  intro content hcontent
  unfold removePartial at hremove
  split at hremove
  · next removed hfile =>
    cases hremove
    obtain ⟨⟨found, hfound⟩, rfl⟩ := removeFile_eq_ok_iff.mp hfile
    have hgone : (fs.erase (fs.placeOf path)).node? (fs.placeOf path) = none :=
      node?_erase_self fs (node?_of_content? hfound).2
    have hplace : (fs.erase (fs.placeOf path)).placeOf path = fs.placeOf path := rfl
    have hnode := (node?_of_content? hcontent).1
    rw [hplace, hgone] at hnode
    cases hnode
  · next error hfailed =>
    split at hremove
    · cases hremove
      rw [removeFile_eq_ok_iff.mpr ⟨⟨content, hcontent⟩, rfl⟩] at hfailed
      cases hfailed
    · cases hremove

end DownloadQueue.FileSystem
