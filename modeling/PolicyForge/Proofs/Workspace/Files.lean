import PolicyForge.Proofs.FileTree.Directories
import PolicyForge.Workspace.Modules

namespace PolicyForge.Workspace

open FileTree (KeepsDirectories Name Node Path checkName)

variable {tree after : FileTree} {directory path : Path} {name other : Name}
  {text otherText : String} {file : String × String} {files : List (String × String)}

/-- A file is current when its path leads to a file of just these bytes. -/
theorem isCurrent_iff : isCurrent tree path text = true ↔
    ∃ location, tree.locate path = .ok location ∧
      tree.node? location = some (.file text.toUTF8) := by
  rw [← FileTree.readText_eq_ok_iff, isCurrent]
  cases tree.readText path <;> simp [Except.toOption]

/-- An entry of a directory is current when the directory can be reached and the entry has these
bytes. -/
theorem isCurrent_join_iff (hname : name.isEntry = true) :
    isCurrent tree (directory.join name) text = true ↔ (directory.join name).check = .ok () ∧
      tree.leadsToDirectory (tree.start directory) directory.names = true ∧
      checkName name = .ok () ∧
      tree.node? (tree.entryLocation directory name) = some (.file text.toUTF8) := by
  simp only [isCurrent_iff, FileTree.locate_join_eq_ok_iff hname]
  constructor
  · rintro ⟨location, ⟨hcheck, hleads, hshort, rfl⟩, hfile⟩
    exact ⟨hcheck, hleads, hshort, hfile⟩
  · rintro ⟨hcheck, hleads, hshort, hfile⟩
    exact ⟨_, ⟨hcheck, hleads, hshort, rfl⟩, hfile⟩

/-- An entry of a directory is written when the directory can be reached and no directory is in its
place. -/
theorem writeText_join_eq_ok_iff (hname : name.isEntry = true) :
    tree.writeText (directory.join name) text = .ok after ↔
      (directory.join name).check = .ok () ∧
      tree.leadsToDirectory (tree.start directory) directory.names = true ∧
      checkName name = .ok () ∧ ∃ hfits : tree.Fits (tree.entryLocation directory name),
        tree.put (tree.entryLocation directory name) (.file text.toUTF8) hfits = after := by
  simp only [FileTree.writeText_eq_ok_iff, FileTree.locate_join_eq_ok_iff hname]
  constructor
  · rintro ⟨location, ⟨hcheck, hleads, hshort, rfl⟩, hput⟩
    exact ⟨hcheck, hleads, hshort, hput⟩
  · rintro ⟨hcheck, hleads, hshort, hput⟩
    exact ⟨_, ⟨hcheck, hleads, hshort, rfl⟩, hput⟩

/-- Where a file was out of date, checking it says so. -/
theorem checkFile_eq_ok {found : Option StaleFile} (hok : checkFile tree path text = .ok found) :
    found.map (·.path) = if isCurrent tree path text then none else some path := by
  unfold checkFile at hok
  unfold isCurrent
  split at hok
  · rename_i existing hread
    obtain rfl := Except.ok.inj hok
    by_cases hsame : existing = text <;> simp [hread, hsame, Except.toOption]
  · rename_i hread
    obtain rfl := Except.ok.inj hok
    simp [hread, Except.toOption]
  · cases hok

/-- A current file is never reported. -/
theorem checkFile_of_isCurrent (hcurrent : isCurrent tree path text = true) :
    checkFile tree path text = .ok none := by
  have hread : tree.readText path = .ok text :=
    FileTree.readText_eq_ok_iff.mpr (isCurrent_iff.mp hcurrent)
  simp [checkFile, hread]

/-- Entries of the directory under the given names, with their texts, are all that is different in
another tree. No directory is replaced. -/
structure Rewrites (directory : Path) (files : List (String × String)) (tree after : FileTree) :
    Prop where
  current : after.current = tree.current
  node? : ∀ location, after.node? location = tree.node? location ∨
    tree.node? location ≠ some .directory ∧ ∃ file ∈ files,
      location = tree.entryLocation directory file.1 ∧
      after.node? location = some (.file file.2.toUTF8)

namespace Rewrites

theorem refl (directory : Path) (files : List (String × String)) (tree : FileTree) :
    Rewrites directory files tree tree :=
  ⟨rfl, fun _ => .inl rfl⟩

theorem keepsDirectories (hrewrites : Rewrites directory files tree after) :
    KeepsDirectories tree after := by
  refine ⟨hrewrites.current, fun location hdirectory => ?_⟩
  obtain hsame | ⟨hfree, -⟩ := hrewrites.node? location
  · rw [hsame, hdirectory]
  · exact absurd hdirectory hfree

theorem trans {middle : FileTree} (hfirst : Rewrites directory files tree middle)
    (hsecond : Rewrites directory files middle after) : Rewrites directory files tree after := by
  refine ⟨hsecond.current.trans hfirst.current, fun location => ?_⟩
  obtain hsame | ⟨hfree, file, hmem, hentry, hfile⟩ := hsecond.node? location
  · rw [hsame]
    exact hfirst.node? location
  · rw [hfirst.keepsDirectories.entryLocation] at hentry
    exact .inr ⟨mt (hfirst.keepsDirectories.directory location) hfree, file, hmem, hentry, hfile⟩

end Rewrites

/-- Writing a file of the directory rewrites this file. -/
theorem rewrites_of_writeText (hmem : file ∈ files) (hname : (Name.ofText file.1).isEntry = true)
    (hok : tree.writeText (directory.join file.1) file.2 = .ok after) :
    Rewrites directory files tree after := by
  obtain ⟨-, -, -, hfits, rfl⟩ := (writeText_join_eq_ok_iff hname).mp hok
  refine ⟨rfl, fun location => ?_⟩
  by_cases heq : location = tree.entryLocation directory file.1
  · subst heq
    exact .inr ⟨hfits.2, file, hmem, rfl, FileTree.node?_put_self hfits _⟩
  · exact .inl (FileTree.node?_put_of_ne hfits heq _)

/-- Writing a file keeps the directories. -/
theorem keepsDirectories_of_writeText (hname : name.isEntry = true)
    (hok : tree.writeText (directory.join name) text = .ok after) : KeepsDirectories tree after := by
  obtain ⟨-, -, -, hfits, rfl⟩ := (writeText_join_eq_ok_iff hname).mp hok
  refine ⟨rfl, fun location hdirectory => ?_⟩
  have hne : location ≠ tree.entryLocation directory name := fun heq =>
    hfits.2 (heq ▸ hdirectory)
  rw [FileTree.node?_put_of_ne hfits hne, hdirectory]

/-- What was just written is current. -/
theorem isCurrent_of_writeText (hname : name.isEntry = true)
    (hok : tree.writeText (directory.join name) text = .ok after) :
    isCurrent after (directory.join name) text = true := by
  have hkeeps := keepsDirectories_of_writeText hname hok
  obtain ⟨hcheck, hleads, hshort, hfits, rfl⟩ := (writeText_join_eq_ok_iff hname).mp hok
  rw [isCurrent_join_iff hname, hkeeps.start, hkeeps.entryLocation]
  exact ⟨hcheck, hkeeps.leadsToDirectory hleads, hshort, FileTree.node?_put_self hfits _⟩

/-- Writing another file of the directory does not matter to a file. -/
theorem isCurrent_of_writeText_other (hname : name.isEntry = true) (hother : other.isEntry = true)
    (hne : name ≠ other) (hok : tree.writeText (directory.join other) otherText = .ok after) :
    isCurrent after (directory.join name) text = isCurrent tree (directory.join name) text := by
  have hkeeps := keepsDirectories_of_writeText hother hok
  obtain ⟨-, hleads, -, hfits, rfl⟩ := (writeText_join_eq_ok_iff hother).mp hok
  have hentry : tree.entryLocation directory name ≠ tree.entryLocation directory other :=
    mt FileTree.entryLocation_inj.mp hne
  rw [Bool.eq_iff_iff, isCurrent_join_iff hname, isCurrent_join_iff hname, hkeeps.start,
    hkeeps.entryLocation, FileTree.node?_put_of_ne hfits hentry]
  simp only [hleads, hkeeps.leadsToDirectory hleads]

theorem during_eq_ok_iff {α : Type} {operation : Operation} {result : Except FileTree.Fault α}
    {a : α} : during operation path result = .ok a ↔ result = .ok a := by
  cases result <;> simp [during, Except.mapError]

/-- What writing one of the files keeps, writing them all keeps, whatever becomes of it. -/
theorem writeFiles_keeps {P : FileTree → Prop}
    (hstep : ∀ tree after file, file ∈ files →
      tree.writeText (directory.join file.1) file.2 = .ok after → P tree → P after)
    (htree : P tree) : P (writeFiles tree directory files).1 := by
  fun_induction writeFiles tree directory files with
  | case1 tree => exact htree
  | case2 tree name text files path hcurrent ih =>
    exact ih (fun tree after file hmem => hstep tree after file (.tail _ hmem)) htree
  | case3 tree name text files path hcurrent fault hfault => exact htree
  | case4 tree name text files path hcurrent middle hok after written heq ih =>
    rw [heq] at ih
    have hmiddle := hstep tree middle (name, text) List.mem_cons_self (during_eq_ok_iff.mp hok) htree
    exact ih (fun tree after file hmem => hstep tree after file (.tail _ hmem)) hmiddle

section

variable (hentries : ∀ file ∈ files, (Name.ofText file.1).isEntry = true)

include hentries

/-- Writing files rewrites these files and touches nothing else, even when a write fails in between.
-/
theorem writeFiles_rewrites :
    Rewrites directory files tree (writeFiles tree directory files).1 := by
  apply writeFiles_keeps _ (Rewrites.refl directory files tree)
  intro own after file hmem hok hrewrites
  exact hrewrites.trans (rewrites_of_writeText hmem (hentries file hmem) hok)

/-- Writing other files of the directory does not matter to a file. -/
theorem isCurrent_writeFiles {name : String} (hname : (Name.ofText name).isEntry = true)
    (hfresh : name ∉ files.map (·.1)) :
    isCurrent (writeFiles tree directory files).1 (directory.join name) text =
      isCurrent tree (directory.join name) text := by
  apply writeFiles_keeps (P := fun own => isCurrent own (directory.join name) text =
    isCurrent tree (directory.join name) text) _ rfl
  intro own after file hmem hok hsame
  have hne : Name.ofText name ≠ file.1 := fun heq =>
    hfresh (Name.ofText_injective heq ▸ List.mem_map_of_mem hmem)
  rw [isCurrent_of_writeText_other hname (hentries file hmem) hne hok, hsame]

end

/-- The paths of the files that do not have their texts, in the order of the files. -/
def outOfDate (tree : FileTree) (directory : Path) (files : List (String × String)) : List Path :=
  (files.filter fun file => !isCurrent tree (directory.join file.1) file.2).map fun file =>
    directory.join file.1

theorem outOfDate_cons_of_current {name : String} (files : List (String × String))
    (hcurrent : isCurrent tree (directory.join name) text = true) :
    outOfDate tree directory ((name, text) :: files) = outOfDate tree directory files := by
  simp [outOfDate, hcurrent]

/-- Any other file is listed, in front of those out of date behind it. -/
theorem outOfDate_cons_of_not_current {name : String} (files : List (String × String))
    (hcurrent : ¬ isCurrent tree (directory.join name) text = true) :
    outOfDate tree directory ((name, text) :: files) =
      directory.join name :: outOfDate tree directory files := by
  simp [outOfDate, hcurrent]

/-- Which files are out of date depends on nothing but whether they are current. -/
theorem outOfDate_congr
    (hsame : ∀ file ∈ files, isCurrent after (directory.join file.1) file.2 =
      isCurrent tree (directory.join file.1) file.2) :
    outOfDate after directory files = outOfDate tree directory files := by
  rw [outOfDate, outOfDate, List.filter_congr fun file hmem => by rw [hsame file hmem]]

/-- When all files were written, the first was current already, or it was written first. -/
theorem writeFiles_cons_eq_ok {name : String} {written : List Path}
    (hok : writeFiles tree directory ((name, text) :: files) = (after, .ok written)) :
    isCurrent tree (directory.join name) text = true ∧
        writeFiles tree directory files = (after, .ok written) ∨
      ∃ middle later, ¬ isCurrent tree (directory.join name) text = true ∧
        tree.writeText (directory.join name) text = .ok middle ∧
        writeFiles middle directory files = (after, .ok later) ∧
        written = directory.join name :: later := by
  rw [writeFiles] at hok
  dsimp only at hok
  split at hok
  · rename_i hcurrent
    exact .inl ⟨hcurrent, hok⟩
  · rename_i hcurrent
    split at hok
    · cases hok
    · rename_i middle hmiddle
      obtain ⟨rfl, hresult⟩ := Prod.mk.inj hok
      cases hrun : writeFiles middle directory files with
      | mk last result =>
        rw [hrun] at hresult
        cases result with
        | error fault => cases hresult
        | ok later =>
          obtain rfl := Except.ok.inj hresult
          exact .inr ⟨middle, later, hcurrent, during_eq_ok_iff.mp hmiddle, hrun ▸ rfl, rfl⟩

/-- Just those files are written that were out of date at the start, and in the end none is. -/
theorem writeFiles_eq_ok {written : List Path}
    (hentries : ∀ file ∈ files, (Name.ofText file.1).isEntry = true)
    (hnodup : (files.map (·.1)).Nodup) (hok : writeFiles tree directory files = (after, .ok written)) :
    written = outOfDate tree directory files ∧
      ∀ file ∈ files, isCurrent after (directory.join file.1) file.2 = true := by
  induction files generalizing tree written with
  | nil =>
    obtain ⟨-, hwritten⟩ := Prod.mk.inj hok
    obtain rfl := Except.ok.inj hwritten
    exact ⟨rfl, by simp⟩
  | cons file files ih =>
    obtain ⟨name, text⟩ := file
    obtain ⟨hname, hentries⟩ := List.forall_mem_cons.mp hentries
    obtain ⟨hfresh, hnodup⟩ := List.nodup_cons.mp hnodup
    have hkept : ∀ own, isCurrent (writeFiles own directory files).1 (directory.join name) text =
        isCurrent own (directory.join name) text :=
      fun own => isCurrent_writeFiles hentries hname hfresh
    rw [List.forall_mem_cons]
    obtain ⟨hcurrent, hrun⟩ | ⟨middle, later, hcurrent, hwrite, hrun, rfl⟩ :=
      writeFiles_cons_eq_ok hok
    · obtain ⟨rfl, hrest⟩ := ih hentries hnodup hrun
      have hfirst := hkept tree
      rw [hrun, hcurrent] at hfirst
      exact ⟨(outOfDate_cons_of_current files hcurrent).symm, hfirst, hrest⟩
    · obtain ⟨rfl, hrest⟩ := ih hentries hnodup hrun
      have hfirst := hkept middle
      rw [hrun, isCurrent_of_writeText hname hwrite] at hfirst
      have hsame : outOfDate middle directory files = outOfDate tree directory files := by
        apply outOfDate_congr
        intro file hmem
        have hne : Name.ofText file.1 ≠ name := fun heq =>
          hfresh (List.mem_map.mpr ⟨file, hmem, Name.ofText_injective heq⟩)
        exact isCurrent_of_writeText_other (hentries file hmem) hname hne hwrite
      rw [outOfDate_cons_of_not_current files hcurrent, ← hsame]
      exact ⟨rfl, hfirst, hrest⟩

theorem writeFiles_of_current
    (hcurrent : ∀ file ∈ files, isCurrent tree (directory.join file.1) file.2 = true) :
    writeFiles tree directory files = (tree, .ok []) := by
  induction files with
  | nil => rfl
  | cons file files ih =>
    obtain ⟨hfile, hrest⟩ := List.forall_mem_cons.mp hcurrent
    rw [writeFiles]
    dsimp only
    rw [if_pos hfile, ih hrest]

theorem paths_of_checked {checked : List (Option StaleFile)}
    (hchecked : List.Forall₂
      (fun file found => checkFile tree (directory.join file.1) file.2 = .ok found) files checked) :
    (checked.filterMap id).map (·.path) = outOfDate tree directory files := by
  induction hchecked with
  | nil => rfl
  | @cons file found files checked hfile _ ih =>
    obtain ⟨name, text⟩ := file
    have hpath := checkFile_eq_ok hfile
    split at hpath
    · rename_i hcurrent
      obtain rfl := Option.map_eq_none_iff.mp hpath
      rw [outOfDate_cons_of_current files hcurrent, ← ih]
      rfl
    · rename_i hcurrent
      obtain ⟨stale, rfl, hstale⟩ := Option.map_eq_some_iff.mp hpath
      rw [outOfDate_cons_of_not_current files hcurrent, ← ih, ← hstale]
      rfl

/-- A check that goes through lists just the files that are out of date. -/
theorem checkModules_eq_ok {report : Batch.Report} {withIndex : Bool} {stale : List StaleFile}
    (hok : checkModules tree directory report withIndex = .ok stale) :
    stale.map (·.path) = outOfDate tree directory (plannedFiles report withIndex) := by
  obtain ⟨checked, hchecked, hstale⟩ := Failing.bind_eq_ok.mp hok
  obtain rfl := Except.ok.inj hstale
  exact paths_of_checked (Failing.mapM_eq_ok_iff.mp hchecked)

/-- Nothing is stale when all files are current. -/
theorem checkModules_of_current {report : Batch.Report} {withIndex : Bool}
    (hcurrent : ∀ file ∈ plannedFiles report withIndex,
      isCurrent tree (directory.join file.1) file.2 = true) :
    checkModules tree directory report withIndex = .ok [] := by
  have hnone : ∀ file ∈ plannedFiles report withIndex,
      checkFile tree (directory.join file.1) file.2 = pure none :=
    fun file hmem => checkFile_of_isCurrent (hcurrent file hmem)
  unfold checkModules
  refine Failing.bind_eq_ok.mpr ⟨_, Failing.mapM_eq_pure_map hnone, ?_⟩
  rw [List.filterMap_map, List.filterMap_eq_nil_iff.mpr]
  · rfl
  · intro _ _
    rfl

end PolicyForge.Workspace
