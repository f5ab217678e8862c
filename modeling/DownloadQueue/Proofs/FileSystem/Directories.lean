import DownloadQueue.Proofs.FileSystem.Edits
import Mathlib.Data.Set.List
import Mathlib.Logic.Relation

namespace DownloadQueue

namespace Path

/-- The components of some path: a root or a dot comes first or not at all, and names are names. -/
structure Canonical (components : List Component) : Prop where
  named : ∀ label, .entry label ∈ components → IsName label
  inner : ∀ component ∈ components.tail, component ≠ .root ∧ component ≠ .current

theorem componentOf?_ne {piece : List Char} {component : Component}
    (h : componentOf? piece = some component) : component ≠ .root ∧ component ≠ .current := by
  unfold componentOf? at h
  split at h
  · cases h
  · split at h <;> cases h <;> simp

theorem inner_filterMap (pieces : List (List Char)) :
    ∀ component ∈ pieces.filterMap componentOf?, component ≠ .root ∧ component ≠ .current := by
  intro component hmem
  obtain ⟨piece, -, hpiece⟩ := List.mem_filterMap.mp hmem
  exact componentOf?_ne hpiece

theorem canonical_components (path : Path) : Canonical path.components := by
  refine ⟨fun label hmem => isName_of_mem_components hmem, ?_⟩
  unfold components
  split
  · exact inner_filterMap _
  · exact inner_filterMap _
  · exact fun component hmem => inner_filterMap _ component (List.mem_of_mem_tail hmem)

theorem Canonical.of_initial {components before : List Component} (h : Canonical components)
    (hinitial : before <+: components) : Canonical before where
  named label hmem := h.named label (hinitial.subset hmem)
  inner component hmem := by
    obtain ⟨after, rfl⟩ := hinitial
    cases before with
    | nil => cases hmem
    | cons first rest => exact h.inner component (List.mem_append_left after hmem)

/-- The text of a step is read as that step. -/
theorem filterMap_componentOf?_text {components : List Component}
    (hnamed : ∀ label, .entry label ∈ components → IsName label)
    (hinner : ∀ component ∈ components, component ≠ .root ∧ component ≠ .current) :
    (components.map fun component => component.text.toList).filterMap componentOf? = components := by
  induction components with
  | nil => rfl
  | cons component components ih =>
    have hrest := ih (fun label hmem => hnamed label (List.mem_cons_of_mem _ hmem))
      fun other hmem => hinner other (List.mem_cons_of_mem _ hmem)
    have hfirst : componentOf? component.text.toList = some component := by
      cases component with
      | root => exact absurd rfl (hinner _ List.mem_cons_self).1
      | current => exact absurd rfl (hinner _ List.mem_cons_self).2
      | parent => rfl
      | entry label => exact componentOf?_name (hnamed label List.mem_cons_self)
    rw [List.map_cons, List.filterMap_cons_some hfirst, hrest]

theorem not_mem_text {component : Component} (h : ∀ label, component = .entry label → IsName label) :
    '/' ∉ component.text.toList := by
  cases component with
  | entry label => exact (h label rfl).2.2.2
  | _ => decide

/-- The plainest spelling of the components of a path has these components. -/
theorem Canonical.components_ofComponents {components : List Component}
    (h : Canonical components) : (ofComponents components).components = components := by
  rcases components with - | ⟨first, rest⟩
  · rfl
  by_cases hroot : first :: rest = [.root]
  · rw [hroot]
    rfl
  have htext : ofComponents (first :: rest) =
      ⟨"/".intercalate ((first :: rest).map Component.text)⟩ := by
    unfold ofComponents
    split
    · next heq => cases heq
    · next heq => exact absurd heq hroot
    · rfl
  have hslash (component : Component) (hmem : component ∈ first :: rest) :
      '/' ∉ component.text.toList :=
    not_mem_text fun label heq => h.named label (heq ▸ hmem)
  have hsplit : splitSlash (ofComponents (first :: rest)).text.toList =
      (first :: rest).map fun component => component.text.toList := by
    rw [htext, List.map_cons, splitSlash_intercalate (hslash first List.mem_cons_self)]
    · rw [List.map_cons, List.map_cons, List.map_map]
      rfl
    · intro name hname
      obtain ⟨component, hmem, rfl⟩ := List.mem_map.mp hname
      exact hslash component (List.mem_cons_of_mem _ hmem)
  have hrest := filterMap_componentOf?_text
    (fun label hmem => h.named label (List.mem_cons_of_mem first hmem)) h.inner
  unfold Path.components
  rw [hsplit, List.map_cons]
  -- at the start of a text an empty piece is a root and a dot is kept, and a name is neither
  cases first with
  | root =>
    rcases rest with - | ⟨second, rest⟩
    · exact absurd rfl hroot
    · exact congrArg (Component.root :: ·) hrest
  | current => exact congrArg (Component.current :: ·) hrest
  | parent => exact congrArg (Component.parent :: ·) hrest
  | entry label =>
    obtain ⟨hempty, hdot, -⟩ := h.named label List.mem_cons_self
    have hinner : ∀ component ∈ Component.entry label :: rest,
        component ≠ .root ∧ component ≠ .current := by
      intro component hmem
      rcases List.mem_cons.mp hmem with rfl | hmem
      · simp
      · exact h.inner component hmem
    have hwhole := filterMap_componentOf?_text h.named hinner
    split
    · next heq => exact absurd (List.cons.inj heq).1 hempty
    · next heq => exact absurd (List.cons.inj heq).1 hdot
    · exact hwhole

structure Level (path : Path) : Prop where
  downward : .parent ∉ path.components
  short : ∀ label, .entry label ∈ path.components → label.utf8ByteSize ≤ FileSystem.nameLimit

/-- A piece between slashes that stands for something is a component, wherever it stands. -/
theorem mem_components_of_piece {path : Path} {piece : List Char} {component : Component}
    (hmem : piece ∈ splitSlash path.text.toList) (hpiece : componentOf? piece = some component) :
    component ∈ path.components := by
  unfold components
  split
  · next second rest hsplit =>
    rw [hsplit] at hmem
    rcases List.mem_cons.mp hmem with rfl | hmem
    · cases hpiece
    · exact List.mem_cons_of_mem _ (List.mem_filterMap.mpr ⟨piece, hmem, hpiece⟩)
  · next rest hsplit =>
    rw [hsplit] at hmem
    rcases List.mem_cons.mp hmem with rfl | hmem
    · cases hpiece
    · exact List.mem_cons_of_mem _ (List.mem_filterMap.mpr ⟨piece, hmem, hpiece⟩)
  · exact List.mem_filterMap.mpr ⟨piece, hmem, hpiece⟩

theorem Level.of_mem_piecesOf {path : Path} (h : path.Level) {piece : String}
    (hmem : piece ∈ FileSystem.piecesOf path) :
    piece ≠ ".." ∧ piece.utf8ByteSize ≤ FileSystem.nameLimit := by
  obtain ⟨text, htext, rfl⟩ := List.mem_map.mp hmem
  obtain ⟨htext, hne⟩ := List.mem_filter.mp htext
  have hdots : String.ofList ['.', '.'] = ".." := rfl
  by_cases hdot : text = ['.']
  · rw [hdot]
    exact ⟨by decide, by decide⟩
  by_cases hup : text = ['.', '.']
  · have hparent : componentOf? text = some .parent := by rw [hup]; rfl
    exact absurd (mem_components_of_piece htext hparent) h.downward
  · have hentry : componentOf? text = some (.entry (String.ofList text)) := by
      simpa [componentOf?, hdot, hup] using hne
    refine ⟨fun heq => hup ?_, h.short _ (mem_components_of_piece htext hentry)⟩
    rw [← hdots] at heq
    exact String.ofList_injective heq

end Path

namespace FileSystem

variable {fs other made : FileSystem} {place directory : Place} {label : String} {path : Path}

/-- A directory is made where nothing was, inside of one that was there. -/
theorem makeDirectory_eq_ok (h : fs.Sound) (hmake : fs.makeDirectory path = .ok other) :
    (∃ directory label, fs.node? directory = some .directory ∧ fs.placeOf path = directory ++ [label]) ∧
      fs.node? (fs.placeOf path) = none ∧ other = fs.put (fs.placeOf path) .directory := by
  obtain ⟨target, hlocate, hmake⟩ := bind_eq_ok.mp hmake
  cases target with
  | here place => cases hmake
  | entry directory label closed =>
    obtain ⟨hparent, hplace⟩ := h.locate hlocate
    obtain ⟨child, hchild, hmake⟩ := bind_eq_ok.mp hmake
    obtain ⟨-, rfl⟩ := childOf_eq_ok_iff.mp hchild
    split at hmake
    · cases hmake
    · next hmissing =>
      cases hmake
      rw [← hplace]
      exact ⟨⟨directory, label, hparent, rfl⟩, hmissing, rfl⟩

def Makes (components : List Path.Component) : FileSystem → FileSystem → Prop :=
  Relation.ReflTransGen fun fs other => ∃ above, above <+: components ∧
    fs.makeDirectory (Path.ofComponents above) = .ok other

abbrev MakesWay (path : Path) : FileSystem → FileSystem → Prop :=
  Makes path.components.dropLast

theorem Makes.mono {components longer : List Path.Component} (hinitial : components <+: longer)
    (h : Makes components fs other) : Makes longer fs other := by
  induction h with
  | refl => exact .refl
  | tail _ hstep ih =>
    obtain ⟨above, habove, hmake⟩ := hstep
    exact ih.tail ⟨above, habove.trans hinitial, hmake⟩

theorem makes_makeDirectory {components : List Path.Component}
    (hmake : fs.makeDirectory (Path.ofComponents components) = .ok other) :
    Makes components fs other :=
  Relation.ReflTransGen.single ⟨components, List.prefix_rfl, hmake⟩

/-- Directories above a file are made from the top down. -/
theorem makes_makeParents (components : List Path.Component)
    (hmake : fs.makeParents components = .ok other) : Makes components.reverse fs other := by
  induction components generalizing other with
  | nil =>
    cases hmake
    exact .refl
  | cons last above ih =>
    have hinitial : above.reverse <+: (last :: above).reverse := by
      rw [List.reverse_cons]
      exact List.prefix_append _ _
    rw [makeParents] at hmake
    split at hmake
    · next made hmade =>
      cases hmake
      exact makes_makeDirectory hmade
    · split at hmake
      · obtain ⟨parents, hparents, hmake⟩ := bind_eq_ok.mp hmake
        have habove := (ih hparents).mono hinitial
        split at hmake
        · next made hmade =>
          cases hmake
          exact habove.trans (makes_makeDirectory hmade)
        · split at hmake
          · cases hmake
            exact habove
          · cases hmake
      · split at hmake
        · cases hmake
          exact .refl
        · cases hmake

/-- What a failure leaves is some of these directories, too. -/
theorem makes_parentsLeft (fs : FileSystem) (components : List Path.Component) :
    Makes components.reverse fs (fs.parentsLeft components) := by
  induction components with
  | nil => exact .refl
  | cons last above ih =>
    have hinitial : above.reverse <+: (last :: above).reverse := by
      rw [List.reverse_cons]
      exact List.prefix_append _ _
    rw [parentsLeft]
    split
    · exact .refl
    · split
      · split
        · next made hmade => exact (makes_makeParents above hmade).mono hinitial
        · exact ih.mono hinitial
      · exact .refl

/-- The components of the directory that a file stands in are those of its path but the last. -/
theorem components_of_parent? {parent : Path} (h : path.parent? = some parent) :
    parent.components = path.components.dropLast := by
  have hcanonical := (Path.canonical_components path).of_initial (List.dropLast_prefix _)
  unfold Path.parent? at h
  split at h
  · cases h
  · cases h
  · cases h
    exact hcanonical.components_ofComponents

theorem makesWay_makeRoomFor (hmake : fs.makeRoomFor path = .ok other) : MakesWay path fs other := by
  unfold makeRoomFor at hmake
  split at hmake
  · cases hmake
    exact .refl
  · next parent hparent =>
    split at hmake
    · cases hmake
      exact .refl
    · have hmakes := makes_makeParents _ hmake
      rwa [List.reverse_reverse, components_of_parent? hparent] at hmakes

theorem makesWay_roomLeft (fs : FileSystem) (path : Path) : MakesWay path fs (fs.roomLeft path) := by
  unfold roomLeft
  split
  · exact .refl
  · next parent hparent =>
    split
    · exact .refl
    · have hmakes := makes_parentsLeft fs parent.components.reverse
      rw [List.reverse_reverse] at hmakes
      exact components_of_parent? hparent ▸ hmakes

theorem MakesWay.edits (h : fs.Sound) (hway : MakesWay path fs made) :
    Edits fs made fun _ => False := by
  induction hway with
  | refl => exact .refl h
  | tail _ hstep ih =>
    obtain ⟨above, -, hmake⟩ := hstep
    exact ih.trans (edits_makeDirectory ih.sound hmake)

theorem isAbsolute_iff :
    path.isAbsolute = true ↔ ∃ second rest, Path.splitSlash path.text.toList = [] :: second :: rest := by
  unfold Path.isAbsolute
  cases path.text.toList with
  | nil => simp [Path.splitSlash]
  | cons c cs =>
    rw [Path.splitSlash]
    by_cases hslash : c = '/'
    · obtain ⟨second, rest, hrest⟩ := List.exists_cons_of_ne_nil (splitSlash_ne_nil cs)
      simp [hslash, hrest]
    · simp only [List.head?_cons, Option.some.injEq, hslash, decide_false, if_false, Bool.false_eq_true,
        false_iff]
      rintro ⟨second, rest, heq⟩
      split at heq <;> cases heq

/-- The first of the steps that pieces stand for come from the first of the pieces. -/
theorem exists_pieces_of_filterMap {pieces : List (List Char)} {above : List Path.Component}
    (habove : above <+: (pieces.filterMap Path.componentOf?).dropLast)
    (hne : pieces.filterMap Path.componentOf? ≠ []) (start : Place) :
    ∃ before after, ((pieces.filter fun piece => piece ≠ []).map String.ofList) = before ++ after ∧
      after ≠ [] ∧ Path.fold start above = before.foldl pieceStep start := by
  obtain ⟨between, hbetween⟩ := habove
  have hsplit := List.dropLast_concat_getLast hne
  generalize (pieces.filterMap Path.componentOf?).getLast hne = last at hsplit
  rw [← hbetween, List.append_assoc] at hsplit
  obtain ⟨first, second, rfl, hfirst, hsecond⟩ := List.filterMap_eq_append_iff.mp hsplit.symm
  refine ⟨_, _, by rw [List.filter_append, List.map_append], ?_, ?_⟩
  · intro hnil
    rw [List.map_eq_nil_iff, List.filter_eq_nil_iff] at hnil
    have hlast : last ∈ second.filterMap Path.componentOf? := by simp [hsecond]
    obtain ⟨piece, hmem, hpiece⟩ := List.mem_filterMap.mp hlast
    have hempty : piece = [] := by simpa using hnil piece hmem
    rw [hempty] at hpiece
    cases hpiece
  · rw [← hfirst, fold_filterMap]

/-- The way to a path goes through the steps above it, and more follow. -/
theorem exists_pieces_of_initial {above : List Path.Component} (hne : above ≠ [])
    (habove : above <+: path.components.dropLast) (cwd : Place) :
    ∃ before after, piecesOf path = before ++ after ∧ after ≠ [] ∧
      Path.fold cwd above = before.foldl pieceStep (if path.isAbsolute then [] else cwd) := by
  -- a root or a dot at the front stands for no piece, or for one that leads nowhere
  have hfront {front : Path.Component} {inner : List Path.Component}
      (habove : above <+: (front :: inner).dropLast) :
      inner ≠ [] ∧ ∃ rest, above = front :: rest ∧ rest <+: inner.dropLast := by
    rcases List.eq_nil_or_concat inner with rfl | ⟨init, last, rfl⟩
    · exact absurd (List.prefix_nil.mp habove) hne
    · rw [List.concat_eq_append, ← List.cons_append, List.dropLast_concat] at habove
      rw [List.concat_eq_append, List.dropLast_concat]
      obtain ⟨first, rest, rfl⟩ := List.exists_cons_of_ne_nil hne
      obtain ⟨rfl, hrest⟩ := List.cons_prefix_cons.mp habove
      exact ⟨by simp, rest, rfl, hrest⟩
  unfold piecesOf
  unfold Path.components at habove
  split at habove
  · next second rest hsplit =>
    obtain ⟨hinner, steps, rfl, hsteps⟩ := hfront habove
    rw [hsplit, if_pos (isAbsolute_iff.mpr ⟨_, _, hsplit⟩), List.filter_cons_of_neg (by simp)]
    exact exists_pieces_of_filterMap hsteps hinner []
  · next rest hsplit =>
    obtain ⟨hinner, steps, rfl, hsteps⟩ := hfront habove
    obtain ⟨before, after, hpieces, hafter, hfold⟩ := exists_pieces_of_filterMap hsteps hinner cwd
    have hrelative : path.isAbsolute = false := by
      rw [← Bool.not_eq_true, isAbsolute_iff, hsplit]
      simp
    rw [hsplit, hrelative, List.filter_cons_of_pos (by simp), List.map_cons, hpieces]
    exact ⟨"." :: before, after, rfl, hafter, hfold⟩
  · next hsplit _ =>
    have hrelative : path.isAbsolute = false := by
      rw [← Bool.not_eq_true, isAbsolute_iff]
      rintro ⟨second, rest, heq⟩
      exact hsplit second rest heq
    have hinner : (Path.splitSlash path.text.toList).filterMap Path.componentOf? ≠ [] := by
      intro hnil
      rw [hnil] at habove
      exact hne (List.prefix_nil.mp habove)
    rw [hrelative]
    exact exists_pieces_of_filterMap habove hinner cwd

theorem Sound.directory_of_locateFrom (h : fs.Sound) {before after : List String} {closed : Bool}
    {target : Target} (hdirectory : fs.node? directory = some .directory) (hafter : after ≠ [])
    (hlocate : fs.locateFrom directory closed (before ++ after) = .ok target) :
    fs.node? (before.foldl pieceStep directory) = some .directory := by
  induction before generalizing directory with
  | nil => exact hdirectory
  | cons piece before ih =>
    rw [List.cons_append, locateFrom_cons _ _ _ _ (by simp [hafter])] at hlocate
    obtain ⟨next, hfollow, hlocate⟩ := bind_eq_ok.mp hlocate
    obtain rfl := follow_eq_pieceStep hfollow
    exact ih (h.follow hdirectory hfollow) hlocate

/-- Where a path can be followed, the directories above its end are there. -/
theorem Sound.directory_of_locate (h : fs.Sound) {target : Target}
    (hlocate : fs.locate path = .ok target) {above : List Path.Component}
    (habove : above <+: path.components.dropLast) :
    fs.node? (Path.fold fs.cwd above) = some .directory := by
  by_cases hne : above = []
  · subst hne
    exact h.home
  · obtain ⟨before, after, hpieces, hafter, hfold⟩ := exists_pieces_of_initial hne habove fs.cwd
    have hfrom := locateFrom_of_locate hlocate
    rw [hpieces] at hfrom
    rw [hfold]
    exact h.directory_of_locateFrom (h.node?_start path) hafter hfrom

/-- What is made above a path is the directory that the first of its steps lead to. -/
theorem placeOf_ofComponents {above : List Path.Component}
    (habove : above <+: path.components.dropLast) :
    fs.placeOf (Path.ofComponents above) = Path.fold fs.cwd above := by
  have hcanonical := (Path.canonical_components path).of_initial
    (habove.trans (List.dropLast_prefix _))
  unfold placeOf
  rw [hcanonical.components_ofComponents]

/-- Above a path that can be followed there is no directory to make. -/
theorem MakesWay.eq_of_locate (h : fs.Sound) {target : Target}
    (hlocate : fs.locate path = .ok target) (hway : MakesWay path fs made) : made = fs := by
  induction hway with
  | refl => rfl
  | tail _ hstep ih =>
    subst ih
    obtain ⟨above, habove, hmake⟩ := hstep
    have hmissing := (makeDirectory_eq_ok h hmake).2.1
    rw [placeOf_ofComponents habove, h.directory_of_locate hlocate habove] at hmissing
    cases hmissing

structure Missing (fs : FileSystem) (path : Path) : Prop where
  absent : fs.node? (fs.placeOf path) = none
  way : ∀ place, place <+: fs.placeOf path → fs.fileAt place = none

/-- Without steps up a path leads deeper and deeper. -/
theorem prefix_foldl_pieceStep {pieces : List String} (hlevel : ∀ piece ∈ pieces, piece ≠ "..")
    (directory : Place) : directory <+: pieces.foldl pieceStep directory := by
  induction pieces generalizing directory with
  | nil => exact List.prefix_rfl
  | cons piece pieces ih =>
    have hrest := ih (fun other hmem => hlevel other (List.mem_cons_of_mem piece hmem))
      (pieceStep directory piece)
    refine List.IsPrefix.trans ?_ hrest
    unfold pieceStep
    rw [if_neg (hlevel piece List.mem_cons_self)]
    split
    · exact List.prefix_rfl
    · exact List.prefix_append _ _

/-- A path to where nothing is either ends in a directory that is there or breaks off before; no
file is in its way. -/
theorem locateFrom_of_missing {pieces : List String} (closed : Bool)
    (hlevel : ∀ piece ∈ pieces, piece ≠ ".." ∧ piece.utf8ByteSize ≤ nameLimit)
    (hdirectory : fs.node? directory = some .directory)
    (hmissing : fs.node? (pieces.foldl pieceStep directory) = none)
    (hway : ∀ place, place <+: pieces.foldl pieceStep directory → fs.fileAt place = none) :
    fs.locateFrom directory closed pieces = .error .noEntry ∨
      ∃ directory' label, fs.locateFrom directory closed pieces = .ok (.entry directory' label closed) ∧
        label.utf8ByteSize ≤ nameLimit ∧ fs.node? (directory' ++ [label]) = none := by
  induction pieces generalizing directory with
  | nil =>
    rw [List.foldl_nil, hdirectory] at hmissing
    cases hmissing
  | cons piece pieces ih =>
    obtain ⟨hup, hshort⟩ := hlevel piece List.mem_cons_self
    have hrest : ∀ other ∈ pieces, other ≠ ".." ∧ other.utf8ByteSize ≤ nameLimit :=
      fun other hmem => hlevel other (List.mem_cons_of_mem piece hmem)
    rw [List.foldl_cons] at hmissing hway
    by_cases hdot : piece = "."
    · have hstep : pieceStep directory piece = directory := by rw [pieceStep, if_pos hdot]
      rw [hstep] at hmissing hway
      by_cases hnil : pieces = []
      · subst hnil
        rw [List.foldl_nil, hdirectory] at hmissing
        cases hmissing
      · have hfollow : fs.follow directory piece = .ok directory := by rw [follow, if_pos hdot]
        rw [locateFrom_cons _ _ _ _ hnil, hfollow]
        exact ih hrest hdirectory hmissing hway
    · have hstep : pieceStep directory piece = directory ++ [piece] := by
        rw [pieceStep, if_neg hdot, if_neg hup]
      rw [hstep] at hmissing hway
      by_cases hnil : pieces = []
      · subst hnil
        refine .inr ⟨directory, piece, ?_, hshort, hmissing⟩
        rw [FileSystem.locateFrom, if_neg hdot, if_neg hup]
      · have hfollow : fs.follow directory piece = fs.enter (directory ++ [piece]) := by
          rw [follow, if_neg hdot, if_neg hup, childOf_eq_ok_iff.mpr ⟨hshort, rfl⟩]
          rfl
        have hplace := hway _ (prefix_foldl_pieceStep (fun other hmem => (hrest other hmem).1) _)
        rw [locateFrom_cons _ _ _ _ hnil, hfollow]
        rcases fileAt_eq_none_iff.mp hplace with hnone | hthere
        · left
          rw [enter, hnone]
          rfl
        · rw [enter_eq_ok_iff.mpr ⟨hthere, rfl⟩]
          exact ih hrest hthere hmissing hway

/-- A file that is missing cannot be read, for a reason that lies in its path or for want of it. -/
theorem Sound.read_of_missing (h : fs.Sound) (hlevel : path.Level) (hmissing : fs.Missing path) :
    fs.read path =
      if path.text.toList.contains (Char.ofNat 0) then .error .nulByte
      else if path.isEmpty then .error .noEntry
      else if pathLimit < path.text.utf8ByteSize then .error .nameTooLong
      else .error .noEntry := by
  have hplace := foldl_piecesOf path fs.cwd
  obtain ⟨hend, hway⟩ := hmissing
  unfold placeOf at hend hway
  rw [← hplace] at hend hway
  have hfrom := locateFrom_of_missing (path.text.toList.getLast? = some '/')
    (fun piece hmem => hlevel.of_mem_piecesOf hmem) (h.node?_start path) hend hway
  unfold FileSystem.read FileSystem.lookup FileSystem.locate
  split
  · rfl
  split
  · rfl
  split
  · rfl
  rcases hfrom with herror | ⟨directory, label, hlocate, hlabel, hnone⟩
  · rw [herror]
    rfl
  · rw [hlocate]
    change ((childOf directory label >>= _) >>= _) = _
    rw [childOf_eq_ok_iff.mpr ⟨hlabel, rfl⟩]
    simp only [bind, Except.bind, hnone]

/-- From a directory above it, a path that does not step up leads further down. -/
theorem placeOf_of_level (fs : FileSystem) (hlevel : path.Level) {above : List Path.Component}
    (hne : above ≠ []) (habove : above <+: path.components.dropLast) :
    ∃ names, names ≠ [] ∧ fs.placeOf path = Path.fold fs.cwd above ++ names := by
  obtain ⟨first, init, rfl⟩ := List.exists_cons_of_ne_nil hne
  obtain ⟨between, hbetween⟩ := habove
  have hcomponents : path.components ≠ [] := by
    intro hnil
    rw [hnil] at hbetween
    cases hbetween
  have hsplit := List.dropLast_concat_getLast hcomponents
  rw [← hbetween, List.append_assoc] at hsplit
  generalize path.components.getLast hcomponents = last at hsplit
  have hentries : between ++ [last] ∈ Set.range (List.map Path.Component.entry) := by
    rw [Set.range_list_map]
    intro component hmem
    have htail : component ∈ path.components.tail := by
      rw [← hsplit, List.cons_append, List.tail_cons]
      exact List.mem_append_right init hmem
    obtain ⟨hroot, hcurrent⟩ := (Path.canonical_components path).inner component htail
    cases component with
    | root => exact absurd rfl hroot
    | current => exact absurd rfl hcurrent
    | parent => exact absurd (List.mem_of_mem_tail htail) hlevel.downward
    | entry label => exact ⟨label, rfl⟩
  obtain ⟨names, hnames⟩ := hentries
  refine ⟨names, ?_, ?_⟩
  · rintro rfl
    simp at hnames
  · rw [← hnames] at hsplit
    rw [placeOf, ← hsplit, Path.fold, List.foldl_append, ← Path.fold, ← Path.fold,
      Path.fold_entries]

/-- Above a file that does not step up a directory was made where nothing was: the file was missing
before, and it is after. -/
theorem missing_of_makeDirectory (h : fs.Sound) (hlevel : path.Level)
    {above : List Path.Component} (habove : above <+: path.components.dropLast)
    (hmake : fs.makeDirectory (Path.ofComponents above) = .ok other) :
    fs.Missing path ∧ other.Missing path := by
  obtain ⟨⟨directory, label, hparent, hplace⟩, hnone, rfl⟩ := makeDirectory_eq_ok h hmake
  rw [placeOf_ofComponents habove] at hnone hplace ⊢
  have hne : above ≠ [] := by
    rintro rfl
    rw [show Path.fold fs.cwd [] = fs.cwd from rfl, h.home] at hnone
    cases hnone
  obtain ⟨names, hnames, hbelow⟩ := placeOf_of_level fs hlevel hne habove
  generalize Path.fold fs.cwd above = made at hnone hplace hbelow
  have habsent : fs.node? (made ++ names) = none := by
    cases hnode : fs.node? (made ++ names) with
    | none => rfl
    | some node =>
      rw [h.node?_of_append_ne_nil hnames hnode] at hnone
      cases hnone
  have hway (place : Place) (hinitial : place <+: made ++ names) : fs.fileAt place = none := by
    rw [fileAt_eq_none_iff]
    rcases List.prefix_or_prefix_of_prefix hinitial (List.prefix_append made names) with
      ⟨rest, hrest⟩ | ⟨rest, hrest⟩
    · by_cases hnil : rest = []
      · rw [hnil, List.append_nil] at hrest
        exact .inl (hrest ▸ hnone)
      · -- what lies above the directory that holds the new one is a directory
        obtain ⟨init, last, rfl⟩ := (List.eq_nil_or_concat rest).resolve_left hnil
        rw [List.concat_eq_append, ← List.append_assoc, hplace] at hrest
        have hinit := (List.append_inj' hrest rfl).1
        rw [← hinit] at hparent
        exact .inr (h.node?_of_append hparent)
    · left
      cases hnode : fs.node? place with
      | none => rfl
      | some node =>
        by_cases hnil : rest = []
        · rw [hnil, List.append_nil] at hrest
          rw [← hrest, hnone] at hnode
          cases hnode
        · rw [← hrest] at hnode
          rw [h.node?_of_append_ne_nil hnil hnode] at hnone
          cases hnone
  have hlonger : made ++ names ≠ made := by simpa using hnames
  have hcwd : (fs.put made .directory).placeOf path = fs.placeOf path := rfl
  refine ⟨⟨hbelow ▸ habsent, hbelow ▸ hway⟩, ?_, ?_⟩
  · rw [hcwd, hbelow, node?_put_of_ne fs hlonger, habsent]
  · intro place hinitial
    rw [hcwd, hbelow] at hinitial
    by_cases heq : place = made
    · rw [heq, fileAt_eq_none_iff, hplace]
      exact .inr (node?_put_self fs (by simp) _)
    · rw [hplace] at heq ⊢
      rw [fileAt_put_of_ne heq]
      exact hway place hinitial

/-- The directories made above a file that does not step up change nothing for its readers. -/
theorem MakesWay.read_of_level (h : fs.Sound) (hlevel : path.Level) (hway : MakesWay path fs made) :
    made.read path = fs.read path := by
  induction hway with
  | refl => rfl
  | tail hbefore hstep ih =>
    obtain ⟨above, habove, hmake⟩ := hstep
    have hsound := (MakesWay.edits h hbefore).sound
    obtain ⟨hmissing, hstill⟩ := missing_of_makeDirectory hsound hlevel habove hmake
    rw [← ih, hsound.read_of_missing hlevel hmissing,
      (edits_makeDirectory hsound hmake).sound.read_of_missing hlevel hstill]

end FileSystem

end DownloadQueue
