import DownloadQueue.Enclosure
import DownloadQueue.Proofs.Path
import Mathlib.Data.List.Induction

/-!
# Resolved destinations

A destination starts in the download directory, and that in the working directory, unless one of them
is absolute. Its components are gone through with a stack of names, and what is left on the stack is
spelled with one slash before each name. So every place has one spelling, which resolves to itself,
and two destinations are spelled alike exactly if the same names are left of them.

A file name that was taken from an address is one name: what is resolved for it stands in the download
directory itself, whatever the address was and however its path was taken apart and decoded.
-/

namespace DownloadQueue

open FileSystem (piecesOf pieceStep foldl_piecesOf splitSlash_ne_nil)

namespace Path

/-- The names on the stack after the components, from left to right. -/
inductive Reduces : List Component → List String → Prop
  | start : Reduces [] []
  | root {components : List Component} {names : List String} (h : Reduces components names) :
      Reduces (components ++ [.root]) []
  | current {components : List Component} {names : List String} (h : Reduces components names) :
      Reduces (components ++ [.current]) names
  | parent {components : List Component} {names : List String} {last : String}
      (h : Reduces components (names ++ [last])) : Reduces (components ++ [.parent]) names
  | top {components : List Component} (h : Reduces components []) :
      Reduces (components ++ [.parent]) []
  | entry {components : List Component} {names : List String} (label : String)
      (h : Reduces components names) : Reduces (components ++ [.entry label]) (names ++ [label])

theorem fold_append (start : List String) (before after : List Component) :
    fold start (before ++ after) = fold (fold start before) after :=
  List.foldl_append

theorem fold_singleton (start : List String) (component : Component) :
    fold start [component] = foldStep start component :=
  rfl

/-- The reduction that the program computes is one that the rules allow. -/
theorem reduces_fold (components : List Component) : Reduces components (fold [] components) := by
  induction components using List.reverseRecOn with
  | nil => exact .start
  | append_singleton components component ih =>
    rw [fold_append, fold_singleton]
    cases component with
    | root => exact .root ih
    | current => exact .current ih
    | entry label => exact .entry label ih
    | parent =>
      rw [foldStep]
      rcases List.eq_nil_or_concat (fold [] components) with hempty | ⟨names, last, hlast⟩
      · rw [hempty] at ih ⊢
        exact .top ih
      · rw [hlast, List.concat_eq_append] at ih ⊢
        rw [List.dropLast_concat]
        exact .parent ih

theorem Reduces.fold_eq {components : List Component} {names : List String}
    (h : Reduces components names) : fold [] components = names := by
  induction h with
  | start => rfl
  | root h ih => rw [fold_append, fold_singleton, foldStep]
  | current h ih => rw [fold_append, fold_singleton, foldStep, ih]
  | parent h ih => rw [fold_append, fold_singleton, foldStep, ih, List.dropLast_concat]
  | top h ih => rw [fold_append, fold_singleton, foldStep, ih, List.dropLast_nil]
  | entry label h ih => rw [fold_append, fold_singleton, foldStep, ih]

/-- Components leave one stack of names. -/
theorem reduces_iff {components : List Component} {names : List String} :
    Reduces components names ↔ fold [] components = names :=
  ⟨Reduces.fold_eq, fun h => h ▸ reduces_fold components⟩

theorem splitSlash_append_slash (before after : List Char) :
    splitSlash (before ++ '/' :: after) = splitSlash before ++ splitSlash after := by
  induction before with
  | nil => exact if_pos rfl
  | cons c before ih =>
    rw [List.cons_append, splitSlash, splitSlash, ih]
    by_cases hslash : c = '/'
    · rw [if_pos hslash, if_pos hslash, List.cons_append]
    · obtain ⟨piece, pieces, hsplit⟩ := List.exists_cons_of_ne_nil (splitSlash_ne_nil before)
      rw [if_neg hslash, if_neg hslash, hsplit]
      rfl

theorem join_of_isAbsolute (a : Path) {b : Path} (h : b.isAbsolute = true) : a.join b = b :=
  if_pos h

/-- The three ways in which a relative path is put behind another one. -/
theorem join_cases (a : Path) {b : Path} (h : b.isAbsolute = false) :
    (a.text.toList = [] ∧ (a.join b).text.toList = b.text.toList) ∨
      (∃ before, a.text.toList = before ++ ['/'] ∧
        (a.join b).text.toList = before ++ '/' :: b.text.toList) ∨
      a.text.toList ≠ [] ∧ (a.join b).text.toList = a.text.toList ++ '/' :: b.text.toList := by
  rw [join, if_neg (by simp [h])]
  by_cases hempty : a.text.toList = []
  · left
    have htext : a.text = "" := String.toList_eq_nil_iff.mp hempty
    simp [htext]
  by_cases hclosed : a.text.toList.getLast? = some '/'
  · obtain ⟨before, hbefore⟩ := List.getLast?_eq_some_iff.mp hclosed
    right
    left
    refine ⟨before, hbefore, ?_⟩
    rw [if_pos (.inr hclosed)]
    simp [hbefore]
  · right
    right
    refine ⟨hempty, ?_⟩
    have hopen : ¬(a.text.isEmpty = true ∨ a.text.toList.getLast? = some '/') := by
      rw [not_or]
      refine ⟨fun htext => hempty ?_, hclosed⟩
      rw [String.isEmpty_iff.mp htext]
      rfl
    rw [if_neg hopen]
    simp

theorem piecesOf_join (a : Path) {b : Path} (h : b.isAbsolute = false) :
    piecesOf (a.join b) = piecesOf a ++ piecesOf b := by
  unfold FileSystem.piecesOf
  rcases join_cases a h with ⟨hempty, htext⟩ | ⟨before, hclosed, htext⟩ | ⟨-, htext⟩
  · rw [htext, hempty]
    rfl
  · rw [htext, hclosed, splitSlash_append_slash, splitSlash_append_slash]
    simp [splitSlash]
  · rw [htext, splitSlash_append_slash, List.filter_append, List.map_append]

theorem isAbsolute_join (a : Path) {b : Path} (h : b.isAbsolute = false) :
    (a.join b).isAbsolute = a.isAbsolute := by
  rcases join_cases a h with ⟨hempty, htext⟩ | ⟨before, hclosed, htext⟩ | ⟨hsome, htext⟩
  · rw [isAbsolute, htext, ← isAbsolute, h, isAbsolute, hempty]
    rfl
  · rw [isAbsolute, isAbsolute, htext, hclosed]
    cases before <;> rfl
  · obtain ⟨c, cs, hcons⟩ := List.exists_cons_of_ne_nil hsome
    rw [isAbsolute, isAbsolute, htext, hcons]
    rfl

/-- An absolute path leads to the same place from everywhere. -/
theorem fold_of_isAbsolute {path : Path} (h : path.isAbsolute = true) (start other : List String) :
    fold start path.components = fold other path.components := by
  rw [← foldl_piecesOf, ← foldl_piecesOf, if_pos h, if_pos h]

/-- A joined path leads where the second one leads from the place of the first one. -/
theorem fold_join (start : List String) (a b : Path) :
    fold start (a.join b).components = fold (fold start a.components) b.components := by
  cases h : b.isAbsolute with
  | true =>
    rw [join_of_isAbsolute a h]
    exact fold_of_isAbsolute h _ _
  | false =>
    rw [← foldl_piecesOf, ← foldl_piecesOf, ← foldl_piecesOf, piecesOf_join a h,
      isAbsolute_join a h, List.foldl_append, h]
    rfl

theorem isEmpty_eq (path : Path) : path.isEmpty = path.text.toList.isEmpty := by
  rw [isEmpty, Bool.eq_iff_iff, String.isEmpty_iff, List.isEmpty_iff, String.toList_eq_nil_iff]

theorem isEmpty_eq_false {path : Path} (h : path.text.toList ≠ []) : path.isEmpty = false := by
  rw [isEmpty_eq, List.isEmpty_eq_false_iff]
  exact h

theorem isEmpty_of_isAbsolute {path : Path} (h : path.isAbsolute = true) : path.isEmpty = false := by
  apply isEmpty_eq_false
  intro hempty
  rw [isAbsolute, hempty] at h
  cases h

theorem isEmpty_join (a b : Path) : (a.join b).isEmpty = (a.isEmpty && b.isEmpty) := by
  cases h : b.isAbsolute with
  | true => rw [join_of_isAbsolute a h, isEmpty_of_isAbsolute h, Bool.and_false]
  | false =>
    rw [isEmpty_eq, isEmpty_eq, isEmpty_eq]
    rcases join_cases a h with ⟨hempty, htext⟩ | ⟨before, hclosed, htext⟩ | ⟨hsome, htext⟩
    · rw [htext, hempty]
      rfl
    · rw [htext, hclosed]
      cases before <;> rfl
    · obtain ⟨c, cs, hcons⟩ := List.exists_cons_of_ne_nil hsome
      rw [htext, hcons]
      rfl

structure Spells (path : Path) (names : List String) : Prop where
  isName : ∀ name ∈ names, IsName name
  text : path.text.toList = if names = [] then ['/'] else names.flatMap fun name => '/' :: name.toList
  components : path.components = .root :: names.map .entry

theorem toList_intercalate_slash (first : String) (names : List String) :
    '/' :: ("/".intercalate (first :: names)).toList =
      (first :: names).flatMap fun name => '/' :: name.toList := by
  induction names generalizing first with
  | nil => simp
  | cons second names ih =>
    rw [List.flatMap_cons, ← ih second]
    simp [String.toList_intercalate, List.intercalate]

theorem spells_ofNames {names : List String} (h : ∀ name ∈ names, IsName name) :
    (ofNames names).Spells names where
  isName := h
  text := by
    rw [toList_ofNames]
    cases names with
    | nil => rfl
    | cons first names =>
      rw [if_neg (List.cons_ne_nil _ _)]
      exact toList_intercalate_slash first names
  components := components_ofNames h

/-- Different names are spelled differently, also for those who compare components. -/
theorem same_ofNames_iff {names others : List String} (h : ∀ name ∈ names, IsName name)
    (h' : ∀ name ∈ others, IsName name) :
    (ofNames names).same (ofNames others) = true ↔ names = others := by
  rw [same, components_ofNames h, components_ofNames h', decide_eq_true_eq]
  refine ⟨fun heq => ?_, fun heq => heq ▸ rfl⟩
  exact (List.map_inj_right fun _ _ => Component.entry.inj).mp (List.cons.inj heq).2

theorem text_ofNames_iff {names others : List String} (h : ∀ name ∈ names, IsName name)
    (h' : ∀ name ∈ others, IsName name) :
    (ofNames names).text = (ofNames others).text ↔ names = others := by
  refine ⟨fun htext => ?_, fun heq => heq ▸ rfl⟩
  have hpath : ofNames names = ofNames others := congrArg Path.mk htext
  rw [← same_ofNames_iff h h', hpath, same, decide_eq_true_eq]

def place (path : Path) : Place :=
  fold [] path.components

def componentsFrom (before : List Component) (path : Path) : List Component :=
  if path.isAbsolute then path.components else before ++ path.components

theorem fold_componentsFrom (before : List Component) (path : Path) :
    fold [] (componentsFrom before path) = fold (fold [] before) path.components := by
  rw [componentsFrom]
  split
  · next h => exact fold_of_isAbsolute h _ _
  · exact fold_append _ _ _

def wayTo (cwd downloadDir given : Path) : List Component :=
  componentsFrom (componentsFrom cwd.components downloadDir) given

theorem fold_wayTo (cwd downloadDir given : Path) :
    fold [] (wayTo cwd downloadDir given) =
      fold (fold cwd.place downloadDir.components) given.components := by
  rw [wayTo, fold_componentsFrom, fold_componentsFrom, place]

theorem isName_of_mem_place {path : Path} : ∀ name ∈ path.place, IsName name :=
  isName_of_mem_fold (fun _ h => absurd h List.not_mem_nil) fun _ => isName_of_mem_components

end Path

open DownloadQueue.Path

variable {cwd downloadDir given path : Path} {names : List String}

/-- Only a path that is empty as a whole cannot be resolved. -/
theorem resolveDestination_eq (start : Place) (downloadDir given : Path) :
    resolveDestination start downloadDir given =
      if (downloadDir.join given).isEmpty then .error .emptyPath
      else .ok (ofNames (fold (fold start downloadDir.components) given.components)) := by
  simp only [resolveDestination, fold_join]

theorem resolveDestination_of_some (start : Place) (h : (downloadDir.join given).isEmpty = false) :
    resolveDestination start downloadDir given =
      .ok (ofNames (fold (fold start downloadDir.components) given.components)) := by
  rw [resolveDestination_eq, h]
  rfl

theorem resolveDestination_eq_error_iff (start : Place) :
    resolveDestination start downloadDir given = .error .emptyPath ↔
      (downloadDir.join given).isEmpty = true := by
  rw [resolveDestination_eq]
  split
  · next hempty => simp [hempty]
  · next hsome => simp [hsome]

theorem isEmpty_ofNames (names : List String) : (ofNames names).isEmpty = false := by
  apply isEmpty_eq_false
  rw [toList_ofNames]
  exact List.cons_ne_nil _ _

/-- A path that is spelled plainly is resolved already, wherever it is looked up from. -/
theorem resolveDestination_ofNames (h : ∀ name ∈ names, IsName name) (start : Place)
    (directory : Path) : resolveDestination start directory (ofNames names) = .ok (ofNames names) := by
  have hsome : (directory.join (ofNames names)).isEmpty = false := by
    rw [isEmpty_join, isEmpty_ofNames, Bool.and_false]
  rw [resolveDestination_of_some start hsome, fold_ofNames _ h]

/-- The download directory may be given by the one spelling of its place. -/
theorem resolveDestination_of_directory {start : Place} (hstart : ∀ name ∈ start, IsName name)
    {directory : Path} (hdirectory : resolveDestination start ⟨""⟩ downloadDir = .ok directory)
    (given : Path) :
    resolveDestination start directory given = resolveDestination start downloadDir given := by
  have hnames : ∀ name ∈ fold start downloadDir.components, IsName name :=
    isName_of_mem_fold hstart fun _ => isName_of_mem_components
  have hstay : fold start (⟨""⟩ : Path).components = start := rfl
  rw [resolveDestination_eq, hstay] at hdirectory
  split at hdirectory
  · cases hdirectory
  · next hsome =>
    cases hdirectory
    rw [isEmpty_join, Bool.and_eq_true, not_and, Bool.not_eq_true] at hsome
    have hplace : ((ofNames (fold start downloadDir.components)).join given).isEmpty = false := by
      rw [isEmpty_join, isEmpty_ofNames, Bool.false_and]
    have hgiven : (downloadDir.join given).isEmpty = false := by
      rw [isEmpty_join, hsome rfl, Bool.false_and]
    rw [resolveDestination_of_some start hplace, resolveDestination_of_some start hgiven,
      fold_ofNames start hnames]

theorem isName_of_mem_resolved (cwd downloadDir given : Path) :
    ∀ name ∈ fold (fold cwd.place downloadDir.components) given.components, IsName name :=
  isName_of_mem_fold
    (isName_of_mem_fold isName_of_mem_place fun _ => isName_of_mem_components)
    fun _ => isName_of_mem_components

/-- **Resolved destinations are in normal form.** A destination is resolved unless the download
directory and it are both empty. The result is spelled with one slash before each of the names that
the components of working directory, download directory and destination leave on the stack. It
resolves to itself from everywhere, the download directory may be resolved before, and what another
destination resolves to is the same path, or the same text, exactly if it leaves the same names. -/
theorem resolveDestination_normal_form (cwd downloadDir given : Path) :
    (resolveDestination cwd.place downloadDir given = .error .emptyPath ↔
      (downloadDir.join given).isEmpty = true) ∧
    ((downloadDir.join given).isEmpty = false → ∃ path names,
      resolveDestination cwd.place downloadDir given = .ok path ∧
      Reduces (wayTo cwd downloadDir given) names ∧ path.Spells names ∧
      (∀ start directory, resolveDestination start directory path = .ok path) ∧
      (∀ directory, resolveDestination cwd.place ⟨""⟩ downloadDir = .ok directory →
        resolveDestination cwd.place directory given = .ok path) ∧
      ∀ otherDir other otherPath otherNames,
        resolveDestination cwd.place otherDir other = .ok otherPath →
        Reduces (wayTo cwd otherDir other) otherNames →
          (path.same otherPath = true ↔ names = otherNames) ∧
          (path.text = otherPath.text ↔ names = otherNames)) := by
  constructor
  · exact resolveDestination_eq_error_iff cwd.place
  · intro hsome
    have hnames := isName_of_mem_resolved cwd downloadDir given
    have hresolved := resolveDestination_of_some cwd.place hsome
    refine ⟨_, _, hresolved, ?_, spells_ofNames hnames,
      resolveDestination_ofNames hnames, ?_, ?_⟩
    · exact reduces_iff.mpr (fold_wayTo cwd downloadDir given)
    · intro directory hdirectory
      rw [resolveDestination_of_directory isName_of_mem_place hdirectory, hresolved]
    · intro otherDir other otherPath otherNames hother hreduces
      have hothers := isName_of_mem_resolved cwd otherDir other
      rw [reduces_iff, fold_wayTo] at hreduces
      rw [hreduces] at hothers
      rw [resolveDestination_eq, hreduces] at hother
      split at hother
      · cases hother
      · cases hother
        exact ⟨same_ofNames_iff hnames hothers, text_ofNames_iff hnames hothers⟩

/-- The working directory is `/w`; the first destination steps up beyond the root, the second is in an
absolute download directory. -/
theorem resolveDestination_normal_form_twins :
    ∃ path, (Path.join ⟨"a/./b"⟩ ⟨"../../../../c//d/"⟩).isEmpty = false ∧
      resolveDestination (place ⟨"/w//."⟩) ⟨"a/./b"⟩ ⟨"../../../../c//d/"⟩ = .ok path ∧
      resolveDestination (place ⟨"/w//."⟩) ⟨"//x/.."⟩ ⟨"c/./d"⟩ = .ok ⟨"/c/d"⟩ ∧
      path.text = "/c/d" ∧ path.Spells ["c", "d"] ∧
      resolveDestination ["w"] ⟨"e"⟩ path = .ok path ∧
      resolveDestination (place ⟨"/w//."⟩) ⟨""⟩ ⟨"a/./b"⟩ = .ok ⟨"/w/a/b"⟩ ∧
      resolveDestination (place ⟨"/w//."⟩) ⟨"/w/a/b"⟩ ⟨"../../../../c//d/"⟩ = .ok path := by
  have hsome : (Path.join ⟨"a/./b"⟩ ⟨"../../../../c//d/"⟩).isEmpty = false := by decide
  have htwin : resolveDestination (place ⟨"/w//."⟩) ⟨"//x/.."⟩ ⟨"c/./d"⟩ = .ok ⟨"/c/d"⟩ := by
    decide +kernel
  have hdirectory : resolveDestination (place ⟨"/w//."⟩) ⟨""⟩ ⟨"a/./b"⟩ = .ok ⟨"/w/a/b"⟩ := by
    decide +kernel
  have hnames : Reduces (wayTo ⟨"/w//."⟩ ⟨"a/./b"⟩ ⟨"../../../../c//d/"⟩) ["c", "d"] :=
    reduces_iff.mpr (by decide +kernel)
  have htwinNames : Reduces (wayTo ⟨"/w//."⟩ ⟨"//x/.."⟩ ⟨"c/./d"⟩) ["c", "d"] :=
    reduces_iff.mpr (by decide +kernel)
  obtain ⟨path, names, hresolved, hreduces, hspells, hstays, hplace, hothers⟩ :=
    (resolveDestination_normal_form ⟨"/w//."⟩ ⟨"a/./b"⟩ ⟨"../../../../c//d/"⟩).2 hsome
  have hsame : names = ["c", "d"] := hreduces.fold_eq.symm.trans hnames.fold_eq
  have htext := (hothers _ _ _ _ htwin htwinNames).2.mpr hsame
  exact ⟨path, hsome, hresolved, htwin, htext, hsame ▸ hspells, hstays _ _, hdirectory,
    hplace _ hdirectory⟩

def plainName? (text : String) : Option String :=
  let name := Text.trim text.toList
  if isPlainName name then some (String.ofList name) else none

def suggestedName? (segments? : String → Option (List (List Char)))
    (decode? : List Char → Option String) (url : String) : Option String :=
  (segments? url).bind fun segments => segments.getLast?.bind fun segment =>
    (decode? segment).bind plainName?

theorem fileNameOfUrl?_eq (url : String) :
    fileNameOfUrl? url =
      suggestedName? (fun url => (Url.parse url.toList).toOption.bind Url.segments)
        Url.percentText? url := by
  have hsegment : segmentName? = fun segment => (Url.percentText? segment).bind plainName? := by
    funext segment
    rw [segmentName?]
    cases Url.percentText? segment <;> rfl
  rw [fileNameOfUrl?, suggestedName?, hsegment]
  cases Url.parse url.toList <;> rfl

/-- What is left of a suggested name is a name. -/
theorem isName_of_plainName? {text name : String} (h : plainName? text = some name) :
    IsName name := by
  simp only [plainName?] at h
  split at h
  · next hplain =>
    cases h
    simp only [isPlainName, Bool.and_eq_true, decide_eq_true_eq, Bool.not_eq_true',
      List.contains_eq_mem, decide_eq_false_iff_not] at hplain
    obtain ⟨⟨⟨⟨hempty, hdot⟩, hdots⟩, hslash⟩, -⟩ := hplain
    rw [IsName, String.toList_ofList]
    exact ⟨hempty, hdot, hdots, hslash⟩
  · cases h

theorem isName_of_suggestedName? {segments? : String → Option (List (List Char))}
    {decode? : List Char → Option String} {url name : String}
    (h : suggestedName? segments? decode? url = some name) : IsName name := by
  obtain ⟨segments, -, h⟩ := Option.bind_eq_some_iff.mp h
  obtain ⟨segment, -, h⟩ := Option.bind_eq_some_iff.mp h
  obtain ⟨text, -, h⟩ := Option.bind_eq_some_iff.mp h
  exact isName_of_plainName? h

/-- A name is one component. -/
theorem components_name {name : String} (h : IsName name) :
    (⟨name⟩ : Path).components = [.entry name] := by
  have hsplit := splitSlash_of_not_mem h.2.2.2
  rw [components, hsplit]
  split
  · next heq => exact absurd (List.cons.inj heq).1 h.1
  · next heq => exact absurd (List.cons.inj heq).1 h.2.1
  · rw [List.filterMap_cons_some (componentOf?_name h)]
    rfl

/-- A path of names under the root is spelled with one slash before each of them. -/
theorem ofComponents_names (names : List String) :
    ofComponents (.root :: names.map .entry) = ofNames names := by
  cases names with
  | nil => rfl
  | cons first names =>
    have hlabels : (names.map Component.entry).map Component.text = names := by
      rw [List.map_map]
      exact List.map_id' names
    rw [List.map_cons, ofComponents]
    · rw [List.map_cons, List.map_cons, hlabels, ofNames]
      congr 1
      apply String.toList_inj.mp
      simp [String.toList_intercalate, List.intercalate, Component.text]
    · exact List.cons_ne_nil _ _
    · exact fun heq => List.cons_ne_nil _ _ (List.cons.inj heq).2

theorem parent?_ofNames {names : List String} {name : String}
    (h : ∀ other ∈ names ++ [name], IsName other) :
    (ofNames (names ++ [name])).parent? = some (ofNames names) := by
  have hcomponents := components_ofNames h
  rw [parent?, hcomponents]
  split
  · next heq => cases heq
  · next heq => simp at heq
  · rw [← ofComponents_names, List.map_append, ← List.cons_append, List.map_singleton,
      List.dropLast_concat]

/-- The file of this name stands in the download directory itself: the normal form of the directory,
seen from the working directory, is extended by the name and nothing else. -/
def StandsIn (cwd downloadDir : Path) (name : String) : Prop :=
  ∃ directory path,
    resolveDestination cwd.place cwd downloadDir = .ok directory ∧
    (downloadDir.isEmpty = false →
      resolveDestination cwd.place ⟨""⟩ downloadDir = .ok directory) ∧
    resolveDestination cwd.place downloadDir ⟨name⟩ = .ok path ∧
    path.components = directory.components ++ [.entry name] ∧ path.parent? = some directory

/-- A single name cannot lead out of the download directory. -/
theorem standsIn_of_isName (hcwd : cwd.isAbsolute = true) (downloadDir : Path) {name : String}
    (h : IsName name) : StandsIn cwd downloadDir name := by
  have hnameSome : (⟨name⟩ : Path).isEmpty = false := isEmpty_eq_false h.1
  have hcwdPlace : fold cwd.place cwd.components = cwd.place := fold_of_isAbsolute hcwd _ _
  have hnames : ∀ other ∈ fold cwd.place downloadDir.components ++ [name], IsName other := by
    intro other hmem
    rcases List.mem_append.mp hmem with hmem | hmem
    · exact isName_of_mem_fold isName_of_mem_place (fun _ => isName_of_mem_components) other hmem
    · exact List.mem_singleton.mp hmem ▸ h
  have hdirectory := fun other hmem => hnames other (List.mem_append_left [name] hmem)
  refine ⟨ofNames (fold cwd.place downloadDir.components),
    ofNames (fold cwd.place downloadDir.components ++ [name]), ?_, ?_, ?_, ?_,
    parent?_ofNames hnames⟩
  · have hjoined : (cwd.join downloadDir).isEmpty = false := by
      rw [isEmpty_join, isEmpty_of_isAbsolute hcwd, Bool.false_and]
    rw [resolveDestination_of_some _ hjoined, hcwdPlace]
  · intro hsome
    have hjoined : (Path.join ⟨""⟩ downloadDir).isEmpty = false := by
      rw [isEmpty_join, hsome, Bool.and_false]
    exact resolveDestination_of_some _ hjoined
  · have hjoined : (downloadDir.join ⟨name⟩).isEmpty = false := by
      rw [isEmpty_join, hnameSome, Bool.and_false]
    rw [resolveDestination_of_some _ hjoined, components_name h]
    rfl
  · rw [components_ofNames hnames, components_ofNames hdirectory, List.map_append]
    rfl

/-- **A file named by its address stands in the download directory.** Whatever an address is, if it
suggests a file name, then the file of that name stands in the download directory itself, neither
outside nor below. This takes for granted nothing of how the path of the address is taken apart and
how its last segment is decoded. -/
theorem standsIn_of_fileName (hcwd : cwd.isAbsolute = true) (downloadDir : Path) :
    (∀ url name, fileNameOfUrl? url = some name → StandsIn cwd downloadDir name) ∧
    ∀ (segments? : String → Option (List (List Char))) (decode? : List Char → Option String)
      (url name : String), suggestedName? segments? decode? url = some name →
      StandsIn cwd downloadDir name := by
  have hsuggested (segments? : String → Option (List (List Char)))
      (decode? : List Char → Option String) (url name : String)
      (h : suggestedName? segments? decode? url = some name) : StandsIn cwd downloadDir name :=
    standsIn_of_isName hcwd downloadDir (isName_of_suggestedName? h)
  refine ⟨fun url name h => ?_, hsuggested⟩
  rw [fileNameOfUrl?_eq] at h
  exact hsuggested _ _ url name h

/-- A name with encoded blanks at its ends, dots and a control character in it; and one that another
decoder makes of any segment. -/
theorem standsIn_of_fileName_dotted :
    (Path.mk "/w").isAbsolute = true ∧
    fileNameOfUrl? "http://h/a/../b/%20..%07%2e%0A" = some "..\x07." ∧
    StandsIn ⟨"/w"⟩ ⟨"x/../.."⟩ "..\x07." ∧
    suggestedName? (fun _ => some [[], ['%']]) (fun _ => some "\t... ") "nowhere" = some "..." ∧
    StandsIn ⟨"/w"⟩ ⟨"x/../.."⟩ "..." := by
  have hcwd : (Path.mk "/w").isAbsolute = true := by decide
  have hname : fileNameOfUrl? "http://h/a/../b/%20..%07%2e%0A" = some "..\x07." := by
    decide +kernel
  have hother : suggestedName? (fun _ => some [[], ['%']]) (fun _ => some "\t... ") "nowhere" =
      some "..." := by
    decide +kernel
  obtain ⟨hnamed, hsuggested⟩ := standsIn_of_fileName hcwd ⟨"x/../.."⟩
  exact ⟨hcwd, hname, hnamed _ _ hname, hother, hsuggested _ _ _ _ hother⟩

end DownloadQueue
