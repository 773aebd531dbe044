import PolicyForge.Proofs.FileTree.Listing
import PolicyForge.Proofs.Workspace.Catalogs

namespace PolicyForge.Workspace

open FileTree (Alike Name Path Relisted hasExtension stem)

variable {tree after : FileTree} {directory : Path} {inputs : List Batch.Input} {names : List Name}
  {name : Name}

/-- The names of the files of a directory with the extension `json`, in strictly increasing order.
-/
structure CatalogsInOrder (tree : FileTree) (directory : Path) (names : List Name) : Prop where
  increasing : names.Pairwise (· < ·)
  mem_iff : ∃ entries, tree.entries directory = .ok entries ∧ ∀ name, name ∈ names ↔
    name ∈ entries ∧ hasExtension "json" name = true ∧ tree.isFile (directory.join name) = true

theorem catalogNames_pairwise_lt {entries : List Name} (hnodup : entries.Nodup) :
    (catalogNames tree directory entries).Pairwise (· < ·) :=
  Lists.mergeSort_pairwise (hnodup.filter _)

/-- The catalogs in order are those that are loaded: sorting leaves one order for what the directory
holds. -/
theorem catalogsInOrder_iff : CatalogsInOrder tree directory names ↔
    ∃ entries, tree.entries directory = .ok entries ∧
      names = catalogNames tree directory entries := by
  constructor
  · rintro ⟨hincreasing, entries, hentries, hmem⟩
    have hsorted : (catalogNames tree directory entries).Pairwise (· < ·) :=
      catalogNames_pairwise_lt (FileTree.nodup_of_entries hentries)
    refine ⟨entries, hentries, Lists.eq_of_perm_of_pairwise ?_ hincreasing hsorted⟩
    have hne : ∀ {a b : Name}, a < b → a ≠ b := by
      rintro a b hlt rfl
      exact Std.Asymm.asymm a a hlt hlt
    rw [List.perm_ext_iff_of_nodup (hincreasing.imp hne) (hsorted.imp hne)]
    exact fun name => (hmem name).trans mem_catalogNames.symm
  · rintro ⟨entries, hentries, rfl⟩
    exact ⟨catalogNames_pairwise_lt (FileTree.nodup_of_entries hentries), entries, hentries,
      fun name => mem_catalogNames⟩

/-- The catalogs that are loaded, file by file in the order of the names. -/
theorem loadCatalogs_ok_iff_inOrder :
    loadCatalogs tree directory = .ok inputs ↔
      ∃ names, CatalogsInOrder tree directory names ∧ List.Forall₂ (fun name input =>
        input.label = (stem name).text ∧ tree.readText (directory.join name) = .ok input.text)
        names inputs := by
  have hload : ∀ name input, loadCatalog tree directory name = .ok input ↔
      input.label = (stem name).text ∧ tree.readText (directory.join name) = .ok input.text := by
    rintro name ⟨label, text⟩
    rw [loadCatalog_eq_ok_iff]
    constructor
    · rintro ⟨own, hread, heq⟩
      obtain ⟨rfl, rfl⟩ := Batch.Input.mk.inj heq
      exact ⟨rfl, hread⟩
    · rintro ⟨rfl, hread⟩
      exact ⟨text, hread, rfl⟩
  simp only [loadCatalogs_eq_ok_iff, hload, catalogsInOrder_iff]
  constructor
  · rintro ⟨entries, hentries, hall⟩
    exact ⟨_, ⟨entries, hentries, rfl⟩, hall⟩
  · rintro ⟨_, ⟨entries, hentries, rfl⟩, hall⟩
    exact ⟨entries, hentries, hall⟩

theorem during_eq_error_iff {α : Type} {operation : Operation} {path : Path}
    {result : Except FileTree.Fault α} {fault : Fault} :
    during operation path result = .error fault ↔
      ∃ cause, result = .error cause ∧ fault = ⟨operation, path, cause⟩ := by
  cases result with
  | ok a => simp [during, Except.mapError]
  | error cause => simp [during, Except.mapError, eq_comm]

theorem loadCatalog_eq_error_iff {fault : Fault} : loadCatalog tree directory name = .error fault ↔
    ∃ cause, tree.readText (directory.join name) = .error cause ∧
      fault = ⟨.read, directory.join name, cause⟩ := by
  simp [loadCatalog, Failing.bind_eq_error, during_eq_error_iff, pure, Except.pure]

/-- Loading fails where the directory cannot be listed, or at the first catalog in the order of the
names that cannot be read. -/
theorem loadCatalogs_error_iff_inOrder {fault : Fault} :
    loadCatalogs tree directory = .error fault ↔
      (∃ cause, tree.entries directory = .error cause ∧ fault = ⟨.read, directory, cause⟩) ∨
        ∃ before name behind cause,
          CatalogsInOrder tree directory (before ++ name :: behind) ∧
          (∀ other ∈ before, ∃ text, tree.readText (directory.join other) = .ok text) ∧
          tree.readText (directory.join name) = .error cause ∧
          fault = ⟨.read, directory.join name, cause⟩ := by
  have hpasses : ∀ other, (∃ input, loadCatalog tree directory other = .ok input) ↔
      ∃ text, tree.readText (directory.join other) = .ok text := by
    intro other
    simp only [loadCatalog_eq_ok_iff]
    exact ⟨fun ⟨_, text, hread, _⟩ => ⟨text, hread⟩, fun ⟨text, hread⟩ => ⟨_, text, hread, rfl⟩⟩
  simp only [loadCatalogs, Failing.bind_eq_error, during_eq_error_iff, during_eq_ok_iff,
    Failing.mapM_eq_error_iff, loadCatalog_eq_error_iff, hpasses, catalogsInOrder_iff]
  refine or_congr_right ?_
  constructor
  · rintro ⟨entries, hentries, before, name, behind, heq, hbefore, cause, hread, rfl⟩
    exact ⟨before, name, behind, cause, ⟨entries, hentries, heq.symm⟩, hbefore, hread, rfl⟩
  · rintro ⟨before, name, behind, cause, ⟨entries, hentries, heq⟩, hbefore, hread, rfl⟩
    exact ⟨entries, hentries, before, name, behind, heq.symm, hbefore, cause, hread, rfl⟩

section

variable (hrelisted : Relisted tree after)

include hrelisted

/-- Sorting undoes the order in which entries are listed. -/
theorem catalogNames_relisted {entries others : List Name} (hperm : others.Perm entries)
    (hnodup : entries.Nodup) :
    catalogNames after directory others = catalogNames tree directory entries := by
  refine Lists.eq_of_perm_of_pairwise ?_
    (catalogNames_pairwise_lt (hperm.nodup_iff.mpr hnodup)) (catalogNames_pairwise_lt hnodup)
  simp only [catalogNames, hrelisted.isFile]
  exact (List.mergeSort_perm _ _).trans ((hperm.filter _).trans (List.mergeSort_perm _ _).symm)

/-- Catalogs are loaded alike from both trees. -/
theorem loadCatalogs_relisted (directory : Path) :
    loadCatalogs after directory = loadCatalogs tree directory := by
  have hload : loadCatalog after directory = loadCatalog tree directory := by
    funext name
    rw [loadCatalog, loadCatalog, hrelisted.readText]
  have hentries := hrelisted.entries directory
  rw [loadCatalogs, loadCatalogs, hload]
  generalize htree : tree.entries directory = listed at hentries
  generalize after.entries directory = others at hentries
  cases hentries with
  | error fault => rfl
  | ok hperm =>
    have hnodup := FileTree.nodup_of_entries htree
    simp [during, Except.mapError, bind, Except.bind, catalogNames_relisted hrelisted hperm hnodup]

theorem isCurrent_relisted (path : Path) (text : String) :
    isCurrent after path text = isCurrent tree path text := by
  rw [isCurrent, isCurrent, hrelisted.readText]

theorem checkModules_relisted (directory : Path) (report : Batch.Report) (withIndex : Bool) :
    checkModules after directory report withIndex =
      checkModules tree directory report withIndex := by
  simp only [checkModules, checkFile, hrelisted.readText]

theorem writeFiles_relisted (directory : Path) (files : List (String × String)) :
    Alike (writeFiles tree directory files) (writeFiles after directory files) := by
  induction files generalizing tree after with
  | nil => exact .intro hrelisted _
  | cons file files ih =>
    obtain ⟨name, text⟩ := file
    have hwrite := hrelisted.writeText (directory.join name) text
    rw [writeFiles, writeFiles]
    dsimp only
    rw [isCurrent_relisted hrelisted]
    split
    · exact ih hrelisted
    · generalize tree.writeText (directory.join name) text = written at hwrite
      generalize after.writeText (directory.join name) text = written' at hwrite
      cases hwrite with
      | error fault => exact .intro hrelisted _
      | @ok middle middle' hwritten =>
        have hrest := ih hwritten
        dsimp only [during, Except.mapError]
        generalize writeFiles middle directory files = run at hrest
        generalize writeFiles middle' directory files = run' at hrest
        obtain ⟨hend, paths⟩ := hrest
        exact .intro hend _

/-- Modules are written alike to both trees, directories included. -/
theorem writeModules_relisted (directory : Path) (report : Batch.Report) (withIndex : Bool) :
    Alike (writeModules tree directory report withIndex)
      (writeModules after directory report withIndex) := by
  have hcreated := hrelisted.createDirectories directory
  rw [writeModules, writeModules]
  generalize tree.createDirectories directory = run at hcreated
  generalize after.createDirectories directory = run' at hcreated
  obtain ⟨hthere, _ | _⟩ := hcreated
  · exact .intro hthere _
  · exact writeFiles_relisted hthere directory _

end

end PolicyForge.Workspace
