import DownloadQueue.FileSystem.Basic

namespace DownloadQueue

namespace Path

def IsName (name : String) : Prop :=
  name.toList ≠ [] ∧ name.toList ≠ ['.'] ∧ name.toList ≠ ['.', '.'] ∧ '/' ∉ name.toList

theorem splitSlash_of_not_mem {piece : List Char} (h : '/' ∉ piece) : splitSlash piece = [piece] := by
  induction piece with
  | nil => rfl
  | cons c cs ih =>
    rw [List.mem_cons, not_or] at h
    rw [splitSlash, if_neg (Ne.symm h.1), ih h.2]

theorem splitSlash_append {piece : List Char} (h : '/' ∉ piece) (rest : List Char) :
    splitSlash (piece ++ '/' :: rest) = piece :: splitSlash rest := by
  induction piece with
  | nil => rw [List.nil_append, splitSlash, if_pos rfl]
  | cons c cs ih =>
    rw [List.mem_cons, not_or] at h
    rw [List.cons_append, splitSlash, if_neg (Ne.symm h.1), ih h.2]

/-- What is appended to a text comes after its last piece. -/
theorem splitSlash_append_of_not_mem (text : List Char) :
    ∃ init last, splitSlash text = init ++ [last] ∧
      ∀ more, '/' ∉ more → splitSlash (text ++ more) = init ++ [last ++ more] := by
  induction text with
  | nil => exact ⟨[], [], rfl, fun more h => splitSlash_of_not_mem h⟩
  | cons c cs ih =>
    obtain ⟨init, last, hsplit, hmore⟩ := ih
    rw [splitSlash, hsplit]
    by_cases hslash : c = '/'
    · refine ⟨[] :: init, last, if_pos hslash, fun more h => ?_⟩
      rw [List.cons_append, splitSlash, hmore more h]
      exact if_pos hslash
    · rw [if_neg hslash]
      cases init with
      | nil =>
        refine ⟨[], c :: last, rfl, fun more h => ?_⟩
        rw [List.cons_append, splitSlash, hmore more h]
        exact if_neg hslash
      | cons piece init =>
        refine ⟨(c :: piece) :: init, last, rfl, fun more h => ?_⟩
        rw [List.cons_append, splitSlash, hmore more h]
        exact if_neg hslash

theorem not_mem_of_mem_splitSlash {text piece : List Char} (h : piece ∈ splitSlash text) :
    '/' ∉ piece := by
  induction text generalizing piece with
  | nil =>
    rw [splitSlash, List.mem_singleton] at h
    simp [h]
  | cons c cs ih =>
    rw [splitSlash] at h
    split at h
    · rcases List.mem_cons.mp h with rfl | h
      · simp
      · exact ih h
    · next hc =>
      split at h
      · next first rest hsplit =>
        rcases List.mem_cons.mp h with rfl | h
        · rw [List.mem_cons, not_or]
          exact ⟨Ne.symm hc, ih (hsplit ▸ List.mem_cons_self)⟩
        · exact ih (hsplit ▸ List.mem_cons_of_mem first h)
      · rw [List.mem_singleton] at h
        simp [h, Ne.symm hc]

theorem splitSlash_intercalate {first : String} {names : List String} (hfirst : '/' ∉ first.toList)
    (hnames : ∀ name ∈ names, '/' ∉ name.toList) :
    splitSlash ("/".intercalate (first :: names)).toList = (first :: names).map String.toList := by
  induction names generalizing first with
  | nil => simpa using splitSlash_of_not_mem hfirst
  | cons second names ih =>
    have hrest := ih (hnames second List.mem_cons_self) fun name hmem =>
      hnames name (List.mem_cons_of_mem second hmem)
    have htext : ("/".intercalate (first :: second :: names)).toList =
        first.toList ++ '/' :: ("/".intercalate (second :: names)).toList := by
      simp [String.toList_intercalate, List.intercalate]
    rw [htext, splitSlash_append hfirst, hrest]
    rfl

theorem toList_ofNames (names : List String) :
    (ofNames names).text.toList = '/' :: ("/".intercalate names).toList := by
  simp [ofNames]

theorem splitSlash_ofNames {names : List String} (hne : names ≠ [])
    (hnames : ∀ name ∈ names, IsName name) :
    splitSlash (ofNames names).text.toList = [] :: names.map String.toList := by
  cases names with
  | nil => exact absurd rfl hne
  | cons first names =>
    rw [toList_ofNames, splitSlash, if_pos rfl, splitSlash_intercalate]
    · exact (hnames first List.mem_cons_self).2.2.2
    · exact fun name hmem => (hnames name (List.mem_cons_of_mem first hmem)).2.2.2

theorem componentOf?_name {name : String} (h : IsName name) :
    componentOf? name.toList = some (.entry name) := by
  obtain ⟨hempty, hdot, hdots, -⟩ := h
  simp [componentOf?, hempty, hdot, hdots]

theorem filterMap_componentOf? {names : List String} (hnames : ∀ name ∈ names, IsName name) :
    (names.map String.toList).filterMap componentOf? = names.map .entry := by
  induction names with
  | nil => rfl
  | cons name names ih =>
    rw [List.map_cons, List.filterMap_cons_some (componentOf?_name (hnames name List.mem_cons_self)),
      ih fun other hmem => hnames other (List.mem_cons_of_mem name hmem), List.map_cons]

theorem components_ofNames {names : List String} (hnames : ∀ name ∈ names, IsName name) :
    (ofNames names).components = .root :: names.map .entry := by
  cases names with
  | nil => rfl
  | cons first names =>
    have hsplit := splitSlash_ofNames (List.cons_ne_nil first names) hnames
    rw [List.map_cons] at hsplit
    rw [components, hsplit]
    dsimp only
    rw [← List.map_cons, filterMap_componentOf? hnames]

theorem fold_entries (start names : List String) :
    fold start (names.map .entry) = start ++ names := by
  induction names generalizing start with
  | nil => simp [fold]
  | cons name names ih =>
    rw [List.map_cons, fold, List.foldl_cons, ← fold, foldStep, ih, List.append_assoc]
    rfl

/-- A path made of names leads to the place with these names, wherever it starts. -/
theorem fold_ofNames (start : List String) {names : List String}
    (hnames : ∀ name ∈ names, IsName name) : fold start (ofNames names).components = names := by
  rw [components_ofNames hnames, fold, List.foldl_cons, foldStep, ← fold, fold_entries,
    List.nil_append]

theorem isName_of_componentOf? {piece : List Char} (hslash : '/' ∉ piece) {label : String}
    (h : componentOf? piece = some (.entry label)) : IsName label := by
  unfold componentOf? at h
  split at h
  · cases h
  · next hplain =>
    split at h
    · cases h
    · next hdots =>
      cases h
      rw [not_or] at hplain
      simpa [IsName, hplain, hdots] using hslash

/-- A name in a path is one of the pieces between its slashes. -/
theorem mem_components {path : Path} {label : String} (h : .entry label ∈ path.components) :
    ∃ piece ∈ splitSlash path.text.toList, componentOf? piece = some (.entry label) := by
  unfold components at h
  split at h
  · next second rest hsplit =>
    rcases List.mem_cons.mp h with h | h
    · cases h
    · obtain ⟨piece, hmem, hpiece⟩ := List.mem_filterMap.mp h
      exact ⟨piece, hsplit ▸ List.mem_cons_of_mem _ hmem, hpiece⟩
  · next rest hsplit =>
    rcases List.mem_cons.mp h with h | h
    · cases h
    · obtain ⟨piece, hmem, hpiece⟩ := List.mem_filterMap.mp h
      exact ⟨piece, hsplit ▸ List.mem_cons_of_mem _ hmem, hpiece⟩
  · exact List.mem_filterMap.mp h

theorem isName_of_mem_components {path : Path} {label : String}
    (h : .entry label ∈ path.components) : IsName label := by
  obtain ⟨piece, hmem, hpiece⟩ := mem_components h
  exact isName_of_componentOf? (not_mem_of_mem_splitSlash hmem) hpiece

/-- The stack of names holds nothing but names, whatever steps up were taken. -/
theorem isName_of_mem_fold {start : List String} {components : List Component}
    (hstart : ∀ name ∈ start, IsName name)
    (hcomponents : ∀ label, .entry label ∈ components → IsName label) :
    ∀ name ∈ fold start components, IsName name := by
  induction components generalizing start with
  | nil => exact hstart
  | cons component components ih =>
    rw [fold, List.foldl_cons, ← fold]
    apply ih
    · intro name hmem
      cases component with
      | root => cases hmem
      | current => exact hstart name hmem
      | parent => exact hstart name ((List.dropLast_sublist start).mem hmem)
      | entry label =>
        rcases List.mem_append.mp hmem with hmem | hmem
        · exact hstart name hmem
        · rw [List.mem_singleton] at hmem
          exact hmem ▸ hcomponents label List.mem_cons_self
    · exact fun label hmem => hcomponents label (List.mem_cons_of_mem component hmem)

/-- The path is the one spelling of its place. -/
def Resolved (path : Path) : Prop :=
  ∃ names, (∀ name ∈ names, IsName name) ∧ path = ofNames names

theorem resolved_of_resolveDestination {cwd : List String} {downloadDir given path : Path}
    (hcwd : ∀ name ∈ cwd, IsName name)
    (h : resolveDestination cwd downloadDir given = .ok path) : path.Resolved := by
  unfold resolveDestination at h
  dsimp only at h
  split at h
  · cases h
  · cases h
    exact ⟨_, isName_of_mem_fold hcwd fun label hmem => isName_of_mem_components hmem, rfl⟩

/-- Resolved paths of one place are spelled alike. -/
theorem Resolved.eq_of_fold {a b : Path} (ha : a.Resolved) (hb : b.Resolved) {start : List String}
    (h : fold start a.components = fold start b.components) : a = b := by
  obtain ⟨names, hnames, rfl⟩ := ha
  obtain ⟨others, hothers, rfl⟩ := hb
  rw [fold_ofNames start hnames, fold_ofNames start hothers] at h
  rw [h]

end Path

namespace FileSystem

def pieceStep (directory : Place) (piece : String) : Place :=
  if piece = "." then directory
  else if piece = ".." then directory.dropLast
  else directory ++ [piece]

/-- To walk along the components is to follow the pieces one by one; empty pieces and single dots
lead nowhere. -/
theorem fold_filterMap (pieces : List (List Char)) (directory : Place) :
    Path.fold directory (pieces.filterMap Path.componentOf?) =
      ((pieces.filter fun piece => piece ≠ []).map String.ofList).foldl pieceStep directory := by
  induction pieces generalizing directory with
  | nil => rfl
  | cons piece pieces ih =>
    have hdot : String.ofList ['.'] = "." := rfl
    have hdots : String.ofList ['.', '.'] = ".." := rfl
    by_cases hempty : piece = []
    · simpa [hempty, Path.componentOf?] using ih directory
    by_cases hone : piece = ['.']
    · simpa [hone, Path.componentOf?, pieceStep, hdot] using ih directory
    by_cases htwo : piece = ['.', '.']
    · simpa [htwo, Path.componentOf?, pieceStep, hdots, Path.fold, Path.foldStep] using
        ih directory.dropLast
    · have hone' : String.ofList piece ≠ "." := fun h => hone (by simpa using congrArg String.toList h)
      have htwo' : String.ofList piece ≠ ".." := fun h =>
        htwo (by simpa using congrArg String.toList h)
      simpa [hempty, hone, htwo, Path.componentOf?, pieceStep, hone', htwo', Path.fold,
        Path.foldStep] using ih (directory ++ [String.ofList piece])

theorem splitSlash_ne_nil (text : List Char) : Path.splitSlash text ≠ [] := by
  cases text with
  | nil => simp [Path.splitSlash]
  | cons c cs =>
    rw [Path.splitSlash]
    split
    · simp
    · split <;> simp

/-- The pieces of a path lead to the place that is left after its dots were folded away. -/
theorem foldl_piecesOf (path : Path) (cwd : Place) :
    (piecesOf path).foldl pieceStep (if path.isAbsolute then [] else cwd) =
      Path.fold cwd path.components := by
  unfold piecesOf Path.isAbsolute Path.components
  generalize path.text.toList = text
  cases text with
  | nil => rfl
  | cons c cs =>
    by_cases hslash : c = '/'
    · subst hslash
      cases hrest : Path.splitSlash cs with
      | nil => exact absurd hrest (splitSlash_ne_nil cs)
      | cons piece pieces =>
        have hpieces := fold_filterMap (piece :: pieces) []
        simpa [Path.splitSlash, hrest, Path.fold, Path.foldStep] using hpieces.symm
    · have hhead : (c :: cs).head? ≠ some '/' := by simpa using hslash
      obtain ⟨piece, pieces, hsplit⟩ : ∃ piece pieces,
          Path.splitSlash (c :: cs) = (c :: piece) :: pieces := by
        rw [Path.splitSlash, if_neg hslash]
        split <;> simp
      have hpieces := fold_filterMap ((c :: piece) :: pieces) cwd
      rw [hsplit]
      simp only [hhead, decide_false, Bool.false_eq_true, if_false]
      rw [← hpieces]
      split
      · next heq => cases heq
      · next heq =>
        cases heq
        simp [Path.componentOf?, Path.fold, Path.foldStep]
      · rfl

end FileSystem

end DownloadQueue
