import DownloadQueue.Proofs.FileSystem.Edits
import Mathlib.Data.List.Find

namespace DownloadQueue.FileSystem

variable {fs other : FileSystem} {place directory source target : Place} {label : String}
variable {path : Path}

theorem mem_of_node? (hne : place ≠ []) {node : Node} (hnode : fs.node? place = some node) :
    (place, node) ∈ fs.nodes := by
  rw [node?_of_ne_nil fs hne, Option.map_eq_some_iff] at hnode
  obtain ⟨entry, hentry, rfl⟩ := hnode
  have hplace : entry.1 = place := by simpa using List.find?_some hentry
  rw [← hplace]
  exact List.mem_of_find?_eq_some hentry

theorem exists_node?_of_mem {entry : Place × Node} (hmem : entry ∈ fs.nodes) :
    ∃ node, fs.node? entry.1 = some node := by
  by_cases hnil : entry.1 = []
  · exact ⟨.directory, by rw [hnil]; rfl⟩
  · rw [← Option.ne_none_iff_exists', node?_of_ne_nil fs hnil, Ne, Option.map_eq_none_iff,
      List.find?_eq_none]
    exact fun hnone => hnone entry hmem (by simp)

theorem isBelow_iff : isBelow directory place = true ↔ directory <+: place ∧ directory ≠ place := by
  unfold isBelow
  rw [Bool.and_eq_true, decide_eq_true_eq, List.isPrefixOf_iff_prefix]
  constructor
  · rintro ⟨hlength, hunder⟩
    exact ⟨hunder, fun heq => Nat.lt_irrefl _ (heq ▸ hlength)⟩
  · rintro ⟨hunder, hne⟩
    refine ⟨Nat.lt_of_le_of_ne hunder.length_le fun hlength => hne ?_, hunder⟩
    exact hunder.eq_of_length hlength

structure Movable (fs : FileSystem) (source target : Place) : Prop where
  inside : ¬ source <+: target
  outside : ¬ target <+: source
  free : ∀ names, names ≠ [] → fs.node? (target ++ names) = none

theorem Movable.source_ne_nil (h : fs.Movable source target) : source ≠ [] := by
  rintro rfl
  exact h.inside List.nil_prefix

theorem Movable.target_ne_nil (h : fs.Movable source target) : target ≠ [] := by
  rintro rfl
  exact h.outside List.nil_prefix

theorem Movable.not_isBelow (h : fs.Movable source target) {entry : Place × Node}
    (hmem : entry ∈ fs.nodes) : isBelow target entry.1 = false := by
  rw [Bool.eq_false_iff, Ne, isBelow_iff]
  rintro ⟨⟨names, hnames⟩, hne⟩
  obtain ⟨node, hnode⟩ := exists_node?_of_mem hmem
  rw [← hnames, h.free names] at hnode
  · cases hnode
  · rintro rfl
    rw [List.append_nil] at hnames
    exact hne hnames

def relocate (source target : Place) (entry : Place × Node) : Place × Node :=
  if entry.1 = source ∨ isBelow source entry.1 then
    (target ++ entry.1.drop source.length, entry.2)
  else entry

theorem relocate_append (source target names : Place) (node : Node) :
    relocate source target (source ++ names, node) = (target ++ names, node) := by
  have hwithin : source ++ names = source ∨ isBelow source (source ++ names) = true := by
    by_cases hnil : names = []
    · exact .inl (by rw [hnil, List.append_nil])
    · exact .inr (isBelow_iff.mpr ⟨List.prefix_append _ _, by simpa using hnil⟩)
  rw [relocate, if_pos hwithin, List.drop_left]

theorem relocate_of_outside {entry : Place × Node} (h : ¬ source <+: entry.1) :
    relocate source target entry = entry := by
  rw [relocate, if_neg]
  rintro (heq | hbelow)
  · exact h (heq ▸ List.prefix_rfl)
  · exact h (isBelow_iff.mp hbelow).1

/-- The entries that a move takes to a place. -/
theorem fst_relocate_eq_iff (hinside : ¬ source <+: target) {entry : Place × Node}
    (hfree : isBelow target entry.1 = false) :
    entry.1 ≠ target ∧ (relocate source target entry).1 = place ↔
      if target <+: place then entry.1 = source ++ place.drop target.length
      else ¬ source <+: place ∧ entry.1 = place := by
  obtain ⟨key, node⟩ := entry
  by_cases hsource : source <+: key
  · -- the entry is taken to the target
    obtain ⟨names, rfl⟩ := hsource
    have hkept : source ++ names ≠ target := fun heq => hinside ⟨names, heq⟩
    rw [relocate_append]
    split
    · next htarget =>
      obtain ⟨others, rfl⟩ := htarget
      simp [hkept]
    · next htarget =>
      refine ⟨fun hmoved => absurd ⟨names, hmoved.2⟩ htarget, fun hstays => ?_⟩
      exact absurd ⟨names, hstays.2⟩ hstays.1
  · -- the entry stays, or it makes way
    rw [relocate_of_outside hsource]
    split
    · next htarget =>
      refine ⟨fun hstays => ?_, fun heq => absurd ⟨_, heq.symm⟩ hsource⟩
      obtain ⟨hne, rfl⟩ := hstays
      simp [isBelow_iff.mpr ⟨htarget, hne.symm⟩] at hfree
    · next htarget =>
      constructor
      · rintro ⟨-, rfl⟩
        exact ⟨hsource, rfl⟩
      · rintro ⟨-, rfl⟩
        exact ⟨fun hgone => htarget (hgone ▸ List.prefix_rfl), rfl⟩

/-- Each entry is found where the move has taken it. -/
theorem find?_move (hinside : ¬ source <+: target) (entries : List (Place × Node))
    (hfree : ∀ entry ∈ entries, isBelow target entry.1 = false) (place : Place) :
    (((entries.filter fun entry => entry.1 ≠ target).map (relocate source target)).find?
        (fun entry => entry.1 = place)).map Prod.snd =
      if target <+: place then
        (entries.find? fun entry => entry.1 = source ++ place.drop target.length).map Prod.snd
      else if source <+: place then none
      else (entries.find? fun entry => entry.1 = place).map Prod.snd := by
  have hsnd : (Prod.snd ∘ relocate source target : Place × Node → Node) = Prod.snd := by
    funext entry
    rw [Function.comp, relocate]
    split <;> rfl
  have hkeys : ∀ entry ∈ entries,
      decide (decide (entry.1 ≠ target) = true ∧
        decide ((relocate source target entry).1 = place) = true) =
      decide (if target <+: place then entry.1 = source ++ place.drop target.length
        else ¬ source <+: place ∧ entry.1 = place) := by
    intro entry hmem
    simp only [decide_eq_true_eq, fst_relocate_eq_iff hinside (hfree entry hmem)]
  rw [List.find?_map, Option.map_map, hsnd, List.find?_filter]
  simp only [Function.comp_apply]
  rw [List.find?_congr hkeys]
  by_cases htarget : target <+: place
  · simp only [if_pos htarget]
  · by_cases hsource : source <+: place <;> simp [htarget, hsource]

/-- What is below the source goes with it, and nothing of what was at the target stays. -/
theorem Movable.node?_move (h : fs.Movable source target) (place : Place) :
    (fs.move source target).node? place =
      if target <+: place then fs.node? (source ++ place.drop target.length)
      else if source <+: place then none
      else fs.node? place := by
  by_cases hnil : place = []
  · have htarget : ¬ target <+: place := by
      rw [hnil, List.prefix_nil]
      exact h.target_ne_nil
    have hsource : ¬ source <+: place := by
      rw [hnil, List.prefix_nil]
      exact h.source_ne_nil
    rw [if_neg htarget, if_neg hsource, hnil]
    rfl
  · have hfound : (source ++ place.drop target.length) ≠ [] := by simp [h.source_ne_nil]
    rw [node?_of_ne_nil _ hnil, node?_of_ne_nil _ hfound, node?_of_ne_nil _ hnil]
    exact find?_move h.inside fs.nodes (fun _ hmem => h.not_isBelow hmem) place

/-- What is not inside either place stays. -/
theorem Movable.node?_move_of_outside (h : fs.Movable source target)
    (hsource : ¬ source <+: place) (htarget : ¬ target <+: place) :
    (fs.move source target).node? place = fs.node? place := by
  rw [h.node?_move, if_neg htarget, if_neg hsource]

theorem Movable.node?_move_target (h : fs.Movable source target) (names : Place) :
    (fs.move source target).node? (target ++ names) = fs.node? (source ++ names) := by
  rw [h.node?_move, if_pos (List.prefix_append _ _), List.drop_left]

/-- A tree stays one, unless the working directory is moved. -/
theorem Movable.sound (h : fs.Movable source (directory ++ [label])) (hsound : fs.Sound)
    (hparent : fs.node? directory = some .directory) (hhome : ¬ source <+: fs.cwd)
    (hkind : fs.node? (directory ++ [label]) = some .directory → fs.node? source = some .directory) :
    (fs.move source (directory ++ [label])).Sound where
  parents place name node hnode := by
    by_cases htarget : directory ++ [label] <+: place
    · obtain ⟨names, rfl⟩ := htarget
      rw [List.append_assoc, h.node?_move_target, ← List.append_assoc] at hnode
      rw [h.node?_move_target]
      exact hsound.parents _ _ _ hnode
    · by_cases hlast : place ++ [name] = directory ++ [label]
      · obtain ⟨rfl, -⟩ := List.append_inj' hlast rfl
        have hsource : ¬ source <+: place := fun hunder =>
          h.inside (hunder.trans (List.prefix_append _ _))
        rw [h.node?_move_of_outside hsource htarget, hparent]
      · have htarget' : ¬ directory ++ [label] <+: place ++ [name] := by
          rw [List.prefix_concat_iff]
          exact not_or.mpr ⟨Ne.symm hlast, htarget⟩
        rw [h.node?_move, if_neg htarget'] at hnode
        split at hnode
        · cases hnode
        · next hsource =>
          have hsource' : ¬ source <+: place := fun hunder =>
            hsource (hunder.trans (List.prefix_append _ _))
          rw [h.node?_move_of_outside hsource' htarget]
          exact hsound.parents _ _ _ hnode
  home := by
    by_cases htarget : directory ++ [label] <+: fs.cwd
    · obtain ⟨names, hnames⟩ := htarget
      have hcwd := hsound.home
      change (fs.move source (directory ++ [label])).node? fs.cwd = some .directory
      rw [← hnames] at hcwd ⊢
      by_cases hnil : names = []
      · rw [hnil, List.append_nil] at hcwd
        rw [h.node?_move_target, hnil, List.append_nil]
        exact hkind hcwd
      · rw [h.free names hnil] at hcwd
        cases hcwd
    · exact (h.node?_move_of_outside hhome htarget).trans hsound.home
  named := hsound.named

theorem locate_of_renameEnd {closed : Bool}
    (h : fs.renameEnd path = .ok (directory, label, closed)) :
    fs.locate path = .ok (.entry directory label closed) := by
  obtain ⟨target, hlocate, h⟩ := bind_eq_ok.mp h
  cases target with
  | here place => cases h
  | entry directory label closed =>
    cases h
    exact hlocate

theorem Sound.movable (h : fs.Sound) (hne : source ≠ target) (hinside : isBelow source target = false)
    (houtside : isBelow target source = false)
    (hfree : fs.node? target = some .directory →
      (fs.nodes.any fun entry => isBelow target entry.1) = false) : fs.Movable source target where
  inside hunder := by simp [isBelow_iff.mpr ⟨hunder, hne⟩] at hinside
  outside hunder := by simp [isBelow_iff.mpr ⟨hunder, hne.symm⟩] at houtside
  free names hnil := by
    by_contra hsome
    obtain ⟨node, hnode⟩ := Option.ne_none_iff_exists'.mp hsome
    have hempty := hfree (h.node?_of_append_ne_nil hnil hnode)
    rw [List.any_eq_false] at hempty
    refine hempty _ (mem_of_node? (by simp [hnil]) hnode) (isBelow_iff.mpr ?_)
    exact ⟨List.prefix_append _ _, by simpa using hnil⟩

/-- What is renamed stands at its new place already or is moved there, and a directory makes way for
a directory only. -/
theorem Sound.rename_eq_ok (h : fs.Sound) {source target : Path}
    (hrename : fs.rename source target = .ok other) :
    ∃ node directory label closed, fs.node? (fs.placeOf source) = some node ∧
      fs.locate target = .ok (.entry directory label closed) ∧ label.utf8ByteSize ≤ nameLimit ∧
      fs.node? directory = some .directory ∧ fs.placeOf target = directory ++ [label] ∧
      (closed = true → node = .directory) ∧
      (fs.placeOf source = directory ++ [label] ∧ other = fs ∨
        fs.Movable (fs.placeOf source) (directory ++ [label]) ∧
          (fs.node? (directory ++ [label]) = some .directory → node = .directory) ∧
          other = fs.move (fs.placeOf source) (directory ++ [label])) := by
  rw [FileSystem.rename, bind_eq_ok] at hrename
  obtain ⟨⟨fromDirectory, fromLabel, fromClosed⟩, hfrom, hrename⟩ := hrename
  obtain ⟨⟨toDirectory, toLabel, toClosed⟩, hto, hrename⟩ := bind_eq_ok.mp hrename
  obtain ⟨fromPlace, hfromChild, hrename⟩ := bind_eq_ok.mp hrename
  obtain ⟨-, rfl⟩ := childOf_eq_ok_iff.mp hfromChild
  have hlocate := locate_of_renameEnd hto
  obtain ⟨-, hsource⟩ := h.locate (locate_of_renameEnd hfrom)
  obtain ⟨hparent, htarget⟩ := h.locate hlocate
  rw [hsource] at hrename
  cases hnode : fs.node? (fs.placeOf source) with
  | none =>
    rw [hnode] at hrename
    cases hrename
  | some node =>
    rw [hnode] at hrename
    obtain ⟨toPlace, htoChild, hrename⟩ := bind_eq_ok.mp hrename
    obtain ⟨hlabel, rfl⟩ := childOf_eq_ok_iff.mp htoChild
    refine ⟨node, toDirectory, toLabel, toClosed, rfl, hlocate, hlabel, hparent, htarget.symm, ?_⟩
    split at hrename
    · cases hrename
    next hclosed =>
    split at hrename
    · cases hrename
    next hinside =>
    split at hrename
    · cases hrename
    next houtside =>
    -- only a directory may be named with a slash behind it
    refine ⟨fun hslash => ?_, ?_⟩
    · by_contra hfile
      exact hclosed ⟨hfile, .inr hslash⟩
    split at hrename
    · next hsame =>
      cases hrename
      exact .inl ⟨hsame, rfl⟩
    · next hne =>
      rw [Bool.not_eq_true] at hinside houtside
      right
      -- a directory may replace an empty one and a file may replace a file; all else was refused
      cases node with
      | directory =>
        split at hrename
        · cases hrename
        · cases hrename
        · split at hrename
          · cases hrename
          · next hempty =>
            cases hrename
            rw [Bool.not_eq_true] at hempty
            exact ⟨h.movable hne hinside houtside fun _ => hempty, fun _ => rfl, rfl⟩
        · next _ _ hboth =>
          cases hrename
          exact ⟨h.movable hne hinside houtside fun hold => absurd hold (hboth rfl), fun _ => rfl, rfl⟩
      | file content =>
        split at hrename
        · cases hrename
        · next hkind _ => cases hkind
        · next hkind _ => cases hkind
        · next hold _ _ =>
          cases hrename
          have hfree := hold content rfl
          exact ⟨h.movable hne hinside houtside fun hdirectory => absurd hdirectory hfree,
            fun hdirectory => absurd hdirectory hfree, rfl⟩

/-- Nothing stands below a file. -/
theorem Sound.node?_below_file (h : fs.Sound) {content : List UInt8}
    (hfile : fs.node? place = some (.file content)) {names : Place} (hne : names ≠ []) :
    fs.node? (place ++ names) = none := by
  by_contra hsome
  obtain ⟨node, hnode⟩ := Option.ne_none_iff_exists'.mp hsome
  rw [h.node?_of_append_ne_nil hne hnode] at hfile
  cases hfile

theorem Sound.not_prefix_of_directory (h : fs.Sound) {content : List UInt8}
    (hfile : fs.node? source = some (.file content))
    (hdirectory : fs.node? place = some .directory) : ¬ source <+: place := by
  rintro ⟨names, rfl⟩
  rw [h.node?_of_append hdirectory] at hfile
  cases hfile

theorem Sound.not_prefix_of_missing (h : fs.Sound) (hmissing : fs.node? source = none)
    {node : Node} (hnode : fs.node? place = some node) : ¬ source <+: place := by
  rintro ⟨names, rfl⟩
  by_cases hnil : names = []
  · rw [hnil, List.append_nil, hmissing] at hnode
    cases hnode
  · rw [h.node?_of_append_ne_nil hnil hnode] at hmissing
    cases hmissing

/-- A file that is moved leaves all other files and all directories where they are. -/
theorem Movable.edits (h : fs.Movable source (directory ++ [label])) (hsound : fs.Sound)
    (hparent : fs.node? directory = some .directory) {content : List UInt8}
    (hfile : fs.node? source = some (.file content))
    (hfree : fs.node? (directory ++ [label]) ≠ some .directory) :
    Edits fs (fs.move source (directory ++ [label]))
        (fun place => place = source ∨ place = directory ++ [label]) ∧
      (∀ place, fs.node? place = some .directory →
        (fs.move source (directory ++ [label])).node? place = some .directory) := by
  have hhome := hsound.not_prefix_of_directory hfile hsound.home
  refine ⟨⟨h.sound hsound hparent hhome fun hold => absurd hold hfree, rfl, ?_⟩, ?_⟩
  · intro place hplace
    obtain ⟨hsource, htarget⟩ := not_or.mp hplace
    have hnode : (fs.move source (directory ++ [label])).node? place = fs.node? place := by
      by_cases hinto : directory ++ [label] <+: place
      · obtain ⟨names, rfl⟩ := hinto
        have hne : names ≠ [] := by simpa using htarget
        rw [h.node?_move_target, h.free names hne, hsound.node?_below_file hfile hne]
      · by_cases hfrom : source <+: place
        · rw [h.node?_move, if_neg hinto, if_pos hfrom]
          obtain ⟨names, rfl⟩ := hfrom
          exact (hsound.node?_below_file hfile (by simpa using hsource)).symm
        · exact h.node?_move_of_outside hfrom hinto
    rw [fileAt, fileAt, hnode]
  · intro place hdirectory
    have hfrom := hsound.not_prefix_of_directory hfile hdirectory
    have hinto : ¬ directory ++ [label] <+: place := by
      rintro ⟨names, rfl⟩
      exact hfree (hsound.node?_of_append hdirectory)
    rw [h.node?_move_of_outside hfrom hinto, hdirectory]

/-- A file that was renamed is read under its new path, and other files are left alone. -/
theorem Sound.rename (h : fs.Sound) {source target : Path} {content : List UInt8}
    (hfile : fs.fileAt (fs.placeOf source) = some content)
    (hrename : fs.rename source target = .ok other) :
    Edits fs other (fun place => place = fs.placeOf source ∨ place = fs.placeOf target) ∧
      other.read target = .ok content := by
  have hnode := fileAt_eq_some_iff.mp hfile
  obtain ⟨node, directory, label, closed, hfound, hlocate, hlabel, hparent, htarget, hclosed, hcases⟩ :=
    h.rename_eq_ok hrename
  rw [hnode] at hfound
  cases hfound
  obtain rfl : closed = false := by simpa using hclosed
  rw [htarget]
  rcases hcases with ⟨hsame, rfl⟩ | ⟨hmovable, hkind, rfl⟩
  · exact ⟨.refl h, read_eq_ok_iff.mpr ⟨_, _, hlocate, hlabel, hsame ▸ hnode⟩⟩
  · have hfree : fs.node? (directory ++ [label]) ≠ some .directory := fun hold => by
      cases hkind hold
    obtain ⟨hedits, hdirectories⟩ := hmovable.edits h hparent hnode hfree
    refine ⟨hedits, read_eq_ok_iff.mpr ⟨_, _, locate_mono hdirectories rfl hlocate, hlabel, ?_⟩⟩
    have hmoved := hmovable.node?_move_target []
    rwa [List.append_nil, List.append_nil, hnode] at hmoved

/-- Nothing is left at the place that something was moved away from. -/
theorem Sound.node?_rename (h : fs.Sound) {source target : Path}
    (hne : fs.placeOf source ≠ fs.placeOf target)
    (hrename : fs.rename source target = .ok other) : other.node? (fs.placeOf source) = none := by
  obtain ⟨node, directory, label, closed, -, -, -, -, htarget, -, hcases⟩ := h.rename_eq_ok hrename
  rcases hcases with ⟨hsame, -⟩ | ⟨hmovable, -, rfl⟩
  · exact absurd (hsame.trans htarget.symm) hne
  · rw [hmovable.node?_move, if_neg hmovable.outside, if_pos List.prefix_rfl]

end DownloadQueue.FileSystem
