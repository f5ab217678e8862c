import DownloadQueue.Proofs.FileSystem.Directories

namespace DownloadQueue.FileSystem

variable {fs : FileSystem} {place directory : Place} {label : String} {path first second : Path}

def without (fs : FileSystem) (path : Path) : FileSystem :=
  (fs.removePartial path).toOption.getD fs

/-- A file is removed if it can be read, and nothing is removed otherwise. -/
theorem without_eq (fs : FileSystem) (path : Path) :
    fs.without path =
      if (fs.content? path).isSome then fs.erase (fs.placeOf path) else fs := by
  unfold without removePartial
  split
  · next other hremove =>
    obtain ⟨⟨content, hcontent⟩, rfl⟩ := removeFile_eq_ok_iff.mp hremove
    rw [hcontent]
    rfl
  · next error hremove =>
    have hnone : fs.content? path = none := by
      rw [Option.eq_none_iff_forall_ne_some]
      intro content hcontent
      rw [removeFile_eq_ok_iff.mpr ⟨⟨content, hcontent⟩, rfl⟩] at hremove
      cases hremove
    rw [hnone]
    split <;> rfl

theorem cwd_without (fs : FileSystem) (path : Path) : (fs.without path).cwd = fs.cwd := by
  rw [without_eq]
  split <;> rfl

theorem placeOf_without (fs : FileSystem) (path other : Path) :
    (fs.without path).placeOf other = fs.placeOf other := by
  rw [placeOf, cwd_without, placeOf]

/-- Where a file is gone, no directory has come or gone. -/
theorem directory_erase_iff {content : List UInt8} (hfile : fs.node? place = some (.file content))
    (other : Place) :
    (fs.erase place).node? other = some .directory ↔ fs.node? other = some .directory := by
  by_cases heq : other = place
  · subst heq
    have hne : other ≠ [] := by
      rintro rfl
      cases hfile
    rw [node?_erase_self fs hne, hfile]
    simp
  · rw [node?_erase_of_ne fs heq]

theorem locate_erase_iff {content : List UInt8} (hfile : fs.node? place = some (.file content))
    {target : Target} :
    (fs.erase place).locate path = .ok target ↔ fs.locate path = .ok target :=
  ⟨locate_mono (fun other => (directory_erase_iff hfile other).mp) rfl,
    locate_mono (fun other => (directory_erase_iff hfile other).mpr) rfl⟩

theorem content?_without (hne : fs.placeOf first ≠ fs.placeOf second) :
    (fs.without first).content? second = fs.content? second := by
  rw [without_eq]
  split
  · next hread =>
    obtain ⟨content, hcontent⟩ := Option.isSome_iff_exists.mp hread
    have hfile := (node?_of_content? hcontent).1
    have hplace : (fs.erase (fs.placeOf first)).placeOf second = fs.placeOf second := rfl
    ext found
    rw [content?_eq_some_iff, content?_eq_some_iff, hplace, node?_erase_of_ne fs hne.symm]
    simp only [locate_erase_iff hfile]
  · rfl

theorem erase_comm (fs : FileSystem) (place other : Place) :
    (fs.erase place).erase other = (fs.erase other).erase place := by
  unfold erase
  simp only [List.filter_filter, Bool.and_comm]

/-- Files at different places are removed in either order. -/
theorem without_comm (hne : fs.placeOf first ≠ fs.placeOf second) :
    (fs.without first).without second = (fs.without second).without first := by
  rw [without_eq (fs.without first), content?_without hne, placeOf_without,
    without_eq (fs.without second), content?_without hne.symm, placeOf_without,
    without_eq fs first, without_eq fs second]
  split
  · split
    · exact erase_comm fs _ _
    · rfl
  · split <;> rfl

end DownloadQueue.FileSystem
