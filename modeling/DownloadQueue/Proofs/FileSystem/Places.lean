import DownloadQueue.Proofs.Path
import Mathlib.Data.List.Induction

namespace DownloadQueue.FileSystem

variable {fs other : FileSystem} {place directory : Place} {label : String} {path : Path}

/-- What stands in the tree stands in a directory, and so do the relative paths. -/
structure Sound (fs : FileSystem) : Prop where
  parents : ∀ place label node, fs.node? (place ++ [label]) = some node →
    fs.node? place = some .directory
  home : fs.node? fs.cwd = some .directory
  named : ∀ name ∈ fs.cwd, Path.IsName name

def fileAt (fs : FileSystem) (place : Place) : Option (List UInt8) :=
  match fs.node? place with
  | some (.file content) => some content
  | _ => none

def content? (fs : FileSystem) (path : Path) : Option (List UInt8) :=
  (fs.read path).toOption

def placeOf (fs : FileSystem) (path : Path) : Place :=
  Path.fold fs.cwd path.components

theorem fileAt_eq_some_iff {content : List UInt8} :
    fs.fileAt place = some content ↔ fs.node? place = some (.file content) := by
  unfold fileAt
  constructor
  · intro h
    split at h
    · next heq => rw [heq, Option.some.inj h]
    · cases h
  · intro h
    rw [h]

theorem fileAt_eq_none_iff : fs.fileAt place = none ↔
    fs.node? place = none ∨ fs.node? place = some .directory := by
  unfold fileAt
  cases fs.node? place with
  | none => simp
  | some node => cases node <;> simp

theorem Sound.node?_dropLast (h : fs.Sound) (hdirectory : fs.node? place = some .directory) :
    fs.node? place.dropLast = some .directory := by
  rcases List.eq_nil_or_concat place with rfl | ⟨init, last, rfl⟩
  · rfl
  · rw [List.concat_eq_append] at hdirectory ⊢
    rw [List.dropLast_concat]
    exact h.parents init last _ hdirectory

/-- A tree without directories of its own is sound. -/
theorem Sound.flat {nodes : List (Place × Node)} (h : ∀ entry ∈ nodes, entry.1.length = 1) :
    (⟨[], nodes⟩ : FileSystem).Sound where
  parents place label node hnode := by
    rw [node?_of_ne_nil _ (by simp)] at hnode
    obtain ⟨entry, hfind, -⟩ := Option.map_eq_some_iff.mp hnode
    have hplace : entry.1 = place ++ [label] := by simpa using List.find?_some hfind
    have hlength := h entry (List.mem_of_find?_eq_some hfind)
    rw [hplace, List.length_append, List.length_singleton] at hlength
    obtain rfl : place = [] := List.eq_nil_of_length_eq_zero (by omega)
    rfl
  home := rfl
  named name hname := absurd hname List.not_mem_nil

theorem bind_eq_ok {α β : Type} {x : Except IoError α} {f : α → Except IoError β} {b : β} :
    (x >>= f) = .ok b ↔ ∃ a, x = .ok a ∧ f a = .ok b := by
  cases x with
  | error error => simp [bind, Except.bind]
  | ok a => simp [bind, Except.bind]

theorem enter_eq_ok_iff {next : Place} :
    fs.enter place = .ok next ↔ fs.node? place = some .directory ∧ next = place := by
  unfold enter
  cases fs.node? place with
  | none => simp
  | some node => cases node <;> simp [eq_comm]

theorem childOf_eq_ok_iff :
    childOf directory label = .ok place ↔
      label.utf8ByteSize ≤ nameLimit ∧ place = directory ++ [label] := by
  unfold childOf
  split
  · next h => simp [Nat.not_le.mpr h]
  · next h => simp [Nat.le_of_not_lt h, eq_comm]

theorem locateFrom_cons (fs : FileSystem) (directory : Place) (closed : Bool) (piece : String)
    {pieces : List String} (hne : pieces ≠ []) :
    fs.locateFrom directory closed (piece :: pieces) =
      fs.follow directory piece >>= fun next => fs.locateFrom next closed pieces := by
  rw [FileSystem.locateFrom]
  exact hne

theorem locateFrom_of_locate {target : Target} (hlocate : fs.locate path = .ok target) :
    fs.locateFrom (if path.isAbsolute then [] else fs.cwd) (path.text.toList.getLast? = some '/')
      (piecesOf path) = .ok target := by
  unfold FileSystem.locate at hlocate
  split at hlocate
  · cases hlocate
  split at hlocate
  · cases hlocate
  split at hlocate
  · cases hlocate
  exact hlocate

/-- A step that can be taken leads where the path says. -/
theorem follow_eq_pieceStep {piece : String} {next : Place}
    (hfollow : fs.follow directory piece = .ok next) : next = pieceStep directory piece := by
  unfold FileSystem.follow at hfollow
  unfold pieceStep
  split at hfollow
  · next hdot =>
    cases hfollow
    rw [if_pos hdot]
  · next hdot =>
    rw [if_neg hdot]
    split at hfollow
    · next hdots =>
      cases hfollow
      rw [if_pos hdots]
    · next hdots =>
      obtain ⟨child, hchild, hfollow⟩ := bind_eq_ok.mp hfollow
      obtain ⟨-, rfl⟩ := enter_eq_ok_iff.mp hfollow
      rw [if_neg hdots, (childOf_eq_ok_iff.mp hchild).2]

/-- The place that is found is the one that the path names. -/
theorem locateFrom_eq_entry {closed mark : Bool} {pieces : List String} {place : Place}
    (hlocate : fs.locateFrom directory closed pieces = .ok (.entry place label mark)) :
    place ++ [label] = pieces.foldl pieceStep directory := by
  induction pieces generalizing directory with
  | nil => cases hlocate
  | cons piece pieces ih =>
    by_cases hnil : pieces = []
    · subst hnil
      rw [FileSystem.locateFrom] at hlocate
      split at hlocate
      · cases hlocate
      · next hdot =>
        split at hlocate
        · cases hlocate
        · next hdots =>
          cases hlocate
          rw [List.foldl_cons, List.foldl_nil, pieceStep, if_neg hdot, if_neg hdots]
    · rw [locateFrom_cons _ _ _ _ hnil] at hlocate
      obtain ⟨next, hfollow, hlocate⟩ := bind_eq_ok.mp hlocate
      rw [List.foldl_cons, ← follow_eq_pieceStep hfollow]
      exact ih hlocate

/-- A path that leads to a name in a directory names the place with this name. -/
theorem append_eq_placeOf {closed : Bool}
    (hlocate : fs.locate path = .ok (.entry directory label closed)) :
    directory ++ [label] = fs.placeOf path := by
  rw [locateFrom_eq_entry (locateFrom_of_locate hlocate), foldl_piecesOf]
  rfl

/-- What it takes to read a file. -/
theorem read_eq_ok_iff {content : List UInt8} :
    fs.read path = .ok content ↔
      ∃ directory label, fs.locate path = .ok (.entry directory label false) ∧
        label.utf8ByteSize ≤ nameLimit ∧
        fs.node? (directory ++ [label]) = some (.file content) := by
  constructor
  · intro hread
    obtain ⟨⟨place, node⟩, hlookup, hread⟩ := bind_eq_ok.mp hread
    obtain ⟨target, hlocate, hlookup⟩ := bind_eq_ok.mp hlookup
    cases target with
    | here =>
      cases hlookup
      cases hread
    | entry directory label closed =>
      obtain ⟨child, hchild, hlookup⟩ := bind_eq_ok.mp hlookup
      obtain ⟨hfits, rfl⟩ := childOf_eq_ok_iff.mp hchild
      split at hlookup
      · cases hlookup
      · cases hlookup
        cases hread
      · next found hnode =>
        cases closed with
        | true => cases hlookup
        | false =>
          cases hlookup
          cases hread
          exact ⟨directory, label, hlocate, hfits, hnode⟩
  · rintro ⟨directory, label, hlocate, hfits, hnode⟩
    have hchild : childOf directory label = .ok (directory ++ [label]) :=
      childOf_eq_ok_iff.mpr ⟨hfits, rfl⟩
    have hlookup : fs.lookup path = .ok (directory ++ [label], .file content) := by
      refine bind_eq_ok.mpr ⟨_, hlocate, bind_eq_ok.mpr ⟨_, hchild, ?_⟩⟩
      rw [hnode]
      rfl
    exact bind_eq_ok.mpr ⟨_, hlookup, rfl⟩

/-- What is read under a path is the file at the place that it names. -/
theorem content?_eq_some_iff {content : List UInt8} :
    fs.content? path = some content ↔
      ∃ directory label, fs.locate path = .ok (.entry directory label false) ∧
        label.utf8ByteSize ≤ nameLimit ∧ directory ++ [label] = fs.placeOf path ∧
        fs.node? (fs.placeOf path) = some (.file content) := by
  have hread : fs.content? path = some content ↔ fs.read path = .ok content := by
    unfold content?
    cases fs.read path <;> simp [Except.toOption]
  rw [hread, read_eq_ok_iff]
  constructor
  · rintro ⟨directory, label, hlocate, hfits, hnode⟩
    have hplace := append_eq_placeOf hlocate
    exact ⟨directory, label, hlocate, hfits, hplace, hplace ▸ hnode⟩
  · rintro ⟨directory, label, hlocate, hfits, hplace, hnode⟩
    exact ⟨directory, label, hlocate, hfits, hplace ▸ hnode⟩

theorem Sound.node?_start (h : fs.Sound) (path : Path) :
    fs.node? (if path.isAbsolute then [] else fs.cwd) = some .directory := by
  split
  · rfl
  · exact h.home

theorem Sound.follow (h : fs.Sound) (hdirectory : fs.node? directory = some .directory)
    {piece : String} {next : Place} (hfollow : fs.follow directory piece = .ok next) :
    fs.node? next = some .directory := by
  unfold FileSystem.follow at hfollow
  split at hfollow
  · cases hfollow
    exact hdirectory
  · split at hfollow
    · cases hfollow
      exact h.node?_dropLast hdirectory
    · obtain ⟨child, -, hfollow⟩ := bind_eq_ok.mp hfollow
      obtain ⟨hnode, rfl⟩ := enter_eq_ok_iff.mp hfollow
      exact hnode

/-- A path leads to an entry of a directory that is there. -/
theorem Sound.locateFrom (h : fs.Sound) {closed mark : Bool} {pieces : List String}
    (hdirectory : fs.node? directory = some .directory) {place : Place}
    (hlocate : fs.locateFrom directory closed pieces = .ok (.entry place label mark)) :
    fs.node? place = some .directory := by
  induction pieces generalizing directory with
  | nil => cases hlocate
  | cons piece pieces ih =>
    by_cases hnil : pieces = []
    · subst hnil
      rw [FileSystem.locateFrom] at hlocate
      split at hlocate
      · cases hlocate
      · split at hlocate
        · cases hlocate
        · cases hlocate
          exact hdirectory
    · rw [locateFrom_cons _ _ _ _ hnil] at hlocate
      obtain ⟨next, hfollow, hlocate⟩ := bind_eq_ok.mp hlocate
      exact ih (h.follow hdirectory hfollow) hlocate

/-- A path that can be followed to a name in a directory names that place. -/
theorem Sound.locate (h : fs.Sound) {closed : Bool}
    (hlocate : fs.locate path = .ok (.entry directory label closed)) :
    fs.node? directory = some .directory ∧ directory ++ [label] = fs.placeOf path :=
  ⟨h.locateFrom (h.node?_start path) (locateFrom_of_locate hlocate), append_eq_placeOf hlocate⟩

theorem piecesOf_ofNames {names : List String} (hnames : ∀ name ∈ names, Path.IsName name) :
    piecesOf (Path.ofNames names) = names := by
  cases names with
  | nil => rfl
  | cons first rest =>
    have hfilter : ((first :: rest).map String.toList).filter (fun piece => piece ≠ []) =
        (first :: rest).map String.toList := by
      rw [List.filter_eq_self]
      intro piece hmem
      obtain ⟨name, hname, rfl⟩ := List.mem_map.mp hmem
      simpa using (hnames name hname).1
    unfold piecesOf
    rw [Path.splitSlash_ofNames (List.cons_ne_nil first rest) hnames, List.filter_cons_of_neg (by simp),
      hfilter, List.map_map]
    exact List.map_id'' (fun name => String.ofList_toList) _

theorem getLast?_intercalate {first : String} {names : List String}
    (hnames : ∀ name ∈ first :: names, Path.IsName name) :
    ("/".intercalate (first :: names)).toList ≠ [] ∧
      ("/".intercalate (first :: names)).toList.getLast? ≠ some '/' := by
  induction names generalizing first with
  | nil =>
    have hfirst := hnames first List.mem_cons_self
    refine ⟨by simpa using hfirst.1, fun h => hfirst.2.2.2 ?_⟩
    simpa using List.mem_of_getLast? h
  | cons second names ih =>
    obtain ⟨hne, hlast⟩ := ih fun name hmem => hnames name (List.mem_cons_of_mem first hmem)
    have htext : ("/".intercalate (first :: second :: names)).toList =
        first.toList ++ '/' :: ("/".intercalate (second :: names)).toList := by
      simp [String.toList_intercalate, List.intercalate]
    rw [htext]
    refine ⟨by simp, ?_⟩
    rw [List.getLast?_append, List.getLast?_cons, Option.some_or]
    rw [List.getLast?_eq_some_getLast hne] at hlast ⊢
    simpa using hlast

theorem getLast?_ofNames {names : List String} (hne : names ≠ [])
    (hnames : ∀ name ∈ names, Path.IsName name) :
    (Path.ofNames names).text.toList.getLast? ≠ some '/' := by
  cases names with
  | nil => exact absurd rfl hne
  | cons first rest =>
    obtain ⟨hne, hlast⟩ := getLast?_intercalate hnames
    rw [Path.toList_ofNames, List.getLast?_cons]
    rw [List.getLast?_eq_some_getLast hne] at hlast ⊢
    simpa using hlast

structure Fits (names : List String) : Prop where
  plain : (Path.ofNames names).text.toList.contains (Char.ofNat 0) = false
  short : (Path.ofNames names).text.utf8ByteSize ≤ pathLimit
  labels : ∀ name ∈ names, name.utf8ByteSize ≤ nameLimit

/-- A path that is made of names is followed from the root, name by name. -/
theorem locate_ofNames {names : List String} (hne : names ≠ [])
    (hnames : ∀ name ∈ names, Path.IsName name)
    (hplain : (Path.ofNames names).text.toList.contains (Char.ofNat 0) = false)
    (hshort : (Path.ofNames names).text.utf8ByteSize ≤ pathLimit) :
    fs.locate (Path.ofNames names) = fs.locateFrom [] false names := by
  have hempty : (Path.ofNames names).isEmpty = false := by
    have htext : (Path.ofNames names).text ≠ "" := fun h => by
      have hlist := congrArg String.toList h
      rw [Path.toList_ofNames] at hlist
      cases hlist
    simpa [Path.isEmpty] using htext
  have habsolute : (Path.ofNames names).isAbsolute = true := by
    simp [Path.isAbsolute, Path.toList_ofNames]
  have hlast := getLast?_ofNames hne hnames
  unfold FileSystem.locate
  rw [if_neg (by simpa using hplain), if_neg (by simp [hempty]), if_neg (Nat.not_lt.mpr hshort),
    piecesOf_ofNames hnames, if_pos habsolute, decide_eq_false hlast]

theorem Sound.node?_of_append (h : fs.Sound) {names : Place}
    (hdirectory : fs.node? (place ++ names) = some .directory) :
    fs.node? place = some .directory := by
  induction names using List.reverseRecOn with
  | nil => simpa using hdirectory
  | append_singleton init last ih =>
    rw [← List.append_assoc] at hdirectory
    exact ih (h.parents _ _ _ hdirectory)

theorem follow_name {piece : String} (hpiece : Path.IsName piece) :
    fs.follow directory piece = childOf directory piece >>= fs.enter := by
  have hdot : piece ≠ "." := fun h => hpiece.2.1 (by rw [h]; rfl)
  have hdots : piece ≠ ".." := fun h => hpiece.2.2.1 (by rw [h]; rfl)
  rw [follow, if_neg hdot, if_neg hdots]

theorem locateFrom_name {piece : String} (hpiece : Path.IsName piece) {closed : Bool} :
    fs.locateFrom directory closed [piece] = .ok (.entry directory piece closed) := by
  have hdot : piece ≠ "." := fun h => hpiece.2.1 (by rw [h]; rfl)
  have hdots : piece ≠ ".." := fun h => hpiece.2.2.1 (by rw [h]; rfl)
  rw [FileSystem.locateFrom, if_neg hdot, if_neg hdots]

/-- A place in a directory is found by its names. -/
theorem Sound.locateFrom_names (h : fs.Sound) {init : List String} {last : String} {closed : Bool}
    (hnames : ∀ name ∈ init ++ [last], Path.IsName name)
    (hlabels : ∀ name ∈ init, name.utf8ByteSize ≤ nameLimit)
    (hdirectory : fs.node? (directory ++ init) = some .directory) :
    fs.locateFrom directory closed (init ++ [last]) =
      .ok (.entry (directory ++ init) last closed) := by
  induction init generalizing directory with
  | nil =>
    rw [List.nil_append, List.append_nil]
    exact locateFrom_name (hnames last (by simp))
  | cons name init ih =>
    have hassoc : directory ++ name :: init = (directory ++ [name]) ++ init := by simp
    rw [hassoc] at hdirectory ⊢
    have hchild : childOf directory name = .ok (directory ++ [name]) :=
      childOf_eq_ok_iff.mpr ⟨hlabels name List.mem_cons_self, rfl⟩
    have henter : fs.enter (directory ++ [name]) = .ok (directory ++ [name]) :=
      enter_eq_ok_iff.mpr ⟨h.node?_of_append hdirectory, rfl⟩
    have hfollow : fs.follow directory name = .ok (directory ++ [name]) := by
      rw [follow_name (hnames name (by simp)), hchild]
      exact henter
    rw [List.cons_append, locateFrom_cons _ _ _ _ (by simp), hfollow]
    exact ih (fun other hmem => hnames other (List.mem_cons_of_mem name hmem))
      (fun other hmem => hlabels other (List.mem_cons_of_mem name hmem)) hdirectory

/-- Names that are too long are noticed on the way, but for the last one. -/
theorem labels_of_locateFrom {names : List String} {closed : Bool} {target : Target}
    (hnames : ∀ name ∈ names, Path.IsName name)
    (hlocate : fs.locateFrom directory closed names = .ok target) :
    ∀ name ∈ names.dropLast, name.utf8ByteSize ≤ nameLimit := by
  induction names generalizing directory with
  | nil => simp
  | cons name names ih =>
    by_cases hnil : names = []
    · simp [hnil]
    · rw [locateFrom_cons _ _ _ _ hnil, follow_name (hnames name List.mem_cons_self)] at hlocate
      obtain ⟨next, hfollow, hlocate⟩ := bind_eq_ok.mp hlocate
      obtain ⟨child, hchild, -⟩ := bind_eq_ok.mp hfollow
      rw [List.dropLast_cons_of_ne_nil hnil]
      intro other hmem
      rcases List.mem_cons.mp hmem with rfl | hmem
      · exact (childOf_eq_ok_iff.mp hchild).1
      · exact ih (fun other hmem => hnames other (List.mem_cons_of_mem name hmem)) hlocate other hmem

theorem placeOf_ofNames (fs : FileSystem) {names : List String}
    (hnames : ∀ name ∈ names, Path.IsName name) : fs.placeOf (Path.ofNames names) = names :=
  Path.fold_ofNames fs.cwd hnames

/-- What stands in the tree has a path that can be written. -/
theorem Sound.fits_of_locate (h : fs.Sound) {names : List String} {closed : Bool}
    (hnames : ∀ name ∈ names, Path.IsName name)
    (hlocate : fs.locate (Path.ofNames names) = .ok (.entry directory label closed))
    (hlabel : label.utf8ByteSize ≤ nameLimit) : Fits names := by
  obtain ⟨-, hplace⟩ := h.locate hlocate
  rw [placeOf_ofNames fs hnames] at hplace
  have hne : names ≠ [] := by simp [← hplace]
  by_cases hplain : (Path.ofNames names).text.toList.contains (Char.ofNat 0) = true
  · rw [FileSystem.locate, if_pos hplain] at hlocate
    cases hlocate
  rw [Bool.not_eq_true] at hplain
  by_cases hshort : pathLimit < (Path.ofNames names).text.utf8ByteSize
  · rw [FileSystem.locate, if_neg (by simpa using hplain), if_pos hshort] at hlocate
    split at hlocate <;> cases hlocate
  have hfrom := hlocate
  rw [locate_ofNames hne hnames hplain (Nat.le_of_not_lt hshort)] at hfrom
  have hlabels := labels_of_locateFrom hnames hfrom
  refine ⟨hplain, Nat.le_of_not_lt hshort, fun name hmem => ?_⟩
  rw [← hplace, List.dropLast_concat] at hlabels
  rw [← hplace, List.mem_append, List.mem_singleton] at hmem
  rcases hmem with hmem | rfl
  · exact hlabels name hmem
  · exact hlabel

/-- The content of a file whose path is made of names is what stands at the place with these names,
if the path is one that can be opened at all. -/
theorem Sound.content?_ofNames (h : fs.Sound) {names : List String}
    (hnames : ∀ name ∈ names, Path.IsName name) {content : List UInt8} :
    fs.content? (Path.ofNames names) = some content ↔
      Fits names ∧ fs.fileAt names = some content := by
  rw [content?_eq_some_iff, placeOf_ofNames fs hnames, fileAt_eq_some_iff]
  constructor
  · rintro ⟨directory, label, hlocate, hlabel, -, hfile⟩
    exact ⟨h.fits_of_locate hnames hlocate hlabel, hfile⟩
  · rintro ⟨hfits, hfile⟩
    rcases List.eq_nil_or_concat names with rfl | ⟨init, last, rfl⟩
    · cases hfile
    rw [List.concat_eq_append] at *
    have hdirectory := h.parents _ _ _ hfile
    have hlocate : fs.locate (Path.ofNames (init ++ [last])) = .ok (.entry init last false) := by
      rw [locate_ofNames (by simp) hnames hfits.plain hfits.short]
      refine h.locateFrom_names hnames (fun name hmem => hfits.labels name ?_) hdirectory
      exact List.mem_append_left _ hmem
    exact ⟨init, last, hlocate, hfits.labels last (by simp), rfl, hfile⟩

theorem content?_congr (h : fs.Sound) (h' : other.Sound) (hresolved : path.Resolved)
    (hfile : other.fileAt (fs.placeOf path) = fs.fileAt (fs.placeOf path)) :
    other.content? path = fs.content? path := by
  obtain ⟨names, hnames, rfl⟩ := hresolved
  rw [placeOf_ofNames fs hnames] at hfile
  ext content
  rw [h'.content?_ofNames hnames, h.content?_ofNames hnames, hfile]

end DownloadQueue.FileSystem
