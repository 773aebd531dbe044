import PolicyForge.Proofs.FileTree.Entries
import PolicyForge.Proofs.Workspace.Modules

namespace PolicyForge.Workspace

open FileTree (Grows KeepsDirectories Name Path hasExtension)

variable {tree after : FileTree} {directory : Path} {inputs : List Batch.Input} {names : List Name}
  {name : Name}

/-- The catalogs of a directory are its entries that are files with the extension. -/
theorem mem_catalogNames : name ∈ catalogNames tree directory names ↔
    name ∈ names ∧ hasExtension "json" name = true ∧ tree.isFile (directory.join name) = true := by
  rw [catalogNames, List.mem_mergeSort, List.mem_filter, Bool.and_eq_true]

/-- A catalog is loaded with the text of its file, under the label of its name. -/
theorem loadCatalog_eq_ok_iff {input : Batch.Input} : loadCatalog tree directory name = .ok input ↔
    ∃ text, tree.readText (directory.join name) = .ok text ∧ input = ⟨catalogLabel name, text⟩ := by
  simp only [loadCatalog, Failing.bind_eq_ok, during_eq_ok_iff]
  refine exists_congr fun text => and_congr_right fun _ => ?_
  exact ⟨fun heq => (Except.ok.inj heq).symm, fun heq => congrArg Except.ok heq.symm⟩

/-- All catalogs are loaded when each is, in the order of their names. -/
theorem loadCatalogs_eq_ok_iff : loadCatalogs tree directory = .ok inputs ↔
    ∃ entries, tree.entries directory = .ok entries ∧ List.Forall₂
      (fun name input => loadCatalog tree directory name = .ok input)
      (catalogNames tree directory entries) inputs := by
  simp only [loadCatalogs, Failing.bind_eq_ok, during_eq_ok_iff, Failing.mapM_eq_ok_iff]

/-- Every catalog of a directory has a name that is a text. -/
def CatalogsAreTexts (tree : FileTree) (directory : Path) : Prop :=
  ∀ entries, tree.entries directory = .ok entries →
    ∀ name ∈ catalogNames tree directory entries, ∃ text, name = Name.ofText text

/-- A catalog is shown as its label with the extension behind it. -/
theorem text_eq_catalogLabel (hjson : hasExtension "json" name = true) :
    name.text = catalogLabel name ++ ".json" := by
  rw [FileTree.text_of_hasExtension hjson, FileTree.Name.text_ofText, String.append_assoc,
    catalogLabel]
  rfl

/-- Where the names are texts, every catalog has a label of its own. -/
theorem eq_of_label_eq (htexts : CatalogsAreTexts tree directory)
    (hok : loadCatalogs tree directory = .ok inputs) {input other : Batch.Input}
    (hinput : input ∈ inputs) (hother : other ∈ inputs) (hlabel : input.label = other.label) :
    input = other := by
  obtain ⟨entries, hentries, hloaded⟩ := loadCatalogs_eq_ok_iff.mp hok
  obtain ⟨name, hname, hinput⟩ := Lists.exists_of_mem_forall₂ hloaded hinput
  obtain ⟨own, hown, hother⟩ := Lists.exists_of_mem_forall₂ hloaded hother
  obtain ⟨text, hread, rfl⟩ := loadCatalog_eq_ok_iff.mp hinput
  obtain ⟨text', hread', rfl⟩ := loadCatalog_eq_ok_iff.mp hother
  obtain ⟨label, rfl⟩ := htexts entries hentries name hname
  obtain ⟨label', rfl⟩ := htexts entries hentries own hown
  have htext := text_eq_catalogLabel (mem_catalogNames.mp hname).2.1
  have htext' := text_eq_catalogLabel (mem_catalogNames.mp hown).2.1
  have hsame : catalogLabel (Name.ofText label) = catalogLabel (Name.ofText label') := hlabel
  rw [FileTree.Name.text_ofText] at htext htext'
  obtain rfl : label = label' := by rw [htext, htext', hsame]
  rw [Except.ok.inj (hread.symm.trans hread')]

/-- In another tree nothing is gone, and no file with the extension of catalogs is new or different.
-/
structure KeepsCatalogs (tree after : FileTree) : Prop where
  keepsDirectories : KeepsDirectories tree after
  grows : Grows tree after
  file : ∀ parent name contents, hasExtension "json" name = true →
    (after.node? (parent ++ [name]) = some (.file contents) ↔
      tree.node? (parent ++ [name]) = some (.file contents))

namespace KeepsCatalogs

theorem file_entryLocation (hkeeps : KeepsCatalogs tree after)
    (hjson : hasExtension "json" name = true) (contents : ByteArray) :
    after.node? (after.entryLocation directory name) = some (.file contents) ↔
      tree.node? (tree.entryLocation directory name) = some (.file contents) := by
  rw [hkeeps.keepsDirectories.entryLocation]
  exact hkeeps.file _ name contents hjson

section

variable (hkeeps : KeepsCatalogs tree after) (hentries : tree.entries directory = .ok names)

include hkeeps hentries

/-- An entry with the extension is a file in both trees or in neither. -/
theorem isFile_join (hmem : name ∈ names) (hjson : hasExtension "json" name = true) :
    after.isFile (directory.join name) = tree.isFile (directory.join name) := by
  have hname := FileTree.isEntry_of_mem_entries hentries hmem
  have hleads := (FileTree.entries_eq_ok_iff.mp hentries).1.2
  rw [Bool.eq_iff_iff, FileTree.isFile_join_iff hname, FileTree.isFile_join_iff hname]
  simp only [hkeeps.file_entryLocation hjson, hkeeps.keepsDirectories.start, hleads,
    hkeeps.keepsDirectories.leadsToDirectory hleads]

/-- The other tree may list more, but the catalogs among it are the same. -/
theorem catalogNames : ∃ entries, after.entries directory = .ok entries ∧
    Workspace.catalogNames after directory entries = Workspace.catalogNames tree directory names := by
  obtain ⟨more, hafter, hmore⟩ :=
    FileTree.entries_of_grows hkeeps.keepsDirectories hkeeps.grows hentries
  refine ⟨names ++ more, hafter, ?_⟩
  have hnone : more.filter (fun name => hasExtension "json" name &&
      after.isFile (directory.join name)) = [] := by
    rw [List.filter_eq_nil_iff]
    intro name hmem hcatalog
    have hname := FileTree.isEntry_of_mem_entries hafter (List.mem_append_right names hmem)
    obtain ⟨hjson, hfile⟩ := Bool.and_eq_true_iff.mp hcatalog
    obtain ⟨-, -, -, contents, hthere⟩ := (FileTree.isFile_join_iff hname).mp hfile
    rw [hkeeps.file_entryLocation hjson, hmore name hmem] at hthere
    cases hthere
  unfold Workspace.catalogNames
  rw [List.filter_append, hnone, List.append_nil]
  congr 1
  apply List.filter_congr
  intro name hmem
  cases hjson : hasExtension "json" name with
  | false => rfl
  | true => rw [hkeeps.isFile_join hentries hmem hjson]

end

/-- Catalogs that are kept are loaded as before. -/
theorem loadCatalogs (hkeeps : KeepsCatalogs tree after)
    (hok : loadCatalogs tree directory = .ok inputs) :
    Workspace.loadCatalogs after directory = .ok inputs := by
  obtain ⟨names, hentries, hloaded⟩ := loadCatalogs_eq_ok_iff.mp hok
  obtain ⟨entries, hafter, hnames⟩ := hkeeps.catalogNames hentries
  refine loadCatalogs_eq_ok_iff.mpr ⟨entries, hafter, ?_⟩
  rw [hnames]
  have hcatalogs := (List.forall₂_and_left _ _).mpr
    ⟨fun name hmem => mem_catalogNames.mp hmem, hloaded⟩
  refine hcatalogs.imp ?_
  rintro name input ⟨⟨hmem, hjson, -⟩, hload⟩
  have hname := FileTree.isEntry_of_mem_entries hentries hmem
  obtain ⟨text, hread, rfl⟩ := loadCatalog_eq_ok_iff.mp hload
  obtain ⟨location, hlocate, hfile⟩ := FileTree.readText_eq_ok_iff.mp hread
  obtain ⟨-, -, -, rfl⟩ := (FileTree.locate_join_eq_ok_iff hname).mp hlocate
  have hthere : after.node? (tree.entryLocation directory name) = some (.file text.toUTF8) :=
    (hkeeps.file _ name _ hjson).mpr hfile
  refine loadCatalog_eq_ok_iff.mpr ⟨text, FileTree.readText_eq_ok_iff.mpr ?_, rfl⟩
  exact ⟨_, hkeeps.keepsDirectories.locate hlocate, hthere⟩

end KeepsCatalogs

/-- A generated file is no catalog. -/
theorem not_hasExtension_json {name : String} (hname : IsSourceName name) :
    ¬ hasExtension "json" (Name.ofText name) = true := by
  intro hjson
  obtain ⟨stem, -, -, rfl⟩ := hname
  have hbytes : Text.utf8 (stem ++ ".rs") = _ := FileTree.bytes_of_hasExtension hjson
  rw [Text.utf8_append] at hbytes
  have hending : Text.utf8 ".rs" = [0x2E, 0x72] ++ [0x73] := by decide +kernel
  have hending' : (Name.ofText "json").bytes = [0x6A, 0x73, 0x6F] ++ [0x6E] := by decide +kernel
  have hlast := congrArg List.getLast? hbytes
  rw [hending, hending'] at hlast
  simp at hlast

/-- Writing modules lists its files and directories behind what was there. -/
theorem writeModules_grows (tree : FileTree) (output : Path) (inputs : List Batch.Input)
    (withIndex : Bool) : Grows tree (writeModules tree output (Batch.report inputs) withIndex).1 := by
  have hcreated := FileTree.createDirectories_grows tree output
  unfold writeModules
  split
  · rename_i heq
    rwa [heq] at hcreated
  · rename_i created heq
    rw [heq] at hcreated
    apply writeFiles_keeps _ hcreated
    intro own after file hmem hok hgrows
    have hname := isEntry_of_mem_plannedFiles file hmem
    obtain ⟨-, -, -, hfits, rfl⟩ := (writeText_join_eq_ok_iff hname).mp hok
    exact hgrows.trans (FileTree.grows_put hfits _)

/-- Writing generated files keeps all catalogs, whatever becomes of it. -/
theorem writeModules_keepsCatalogs (tree : FileTree) (output : Path) (inputs : List Batch.Input)
    (withIndex : Bool) :
    KeepsCatalogs tree (writeModules tree output (Batch.report inputs) withIndex).1 := by
  have hframe := writeModules_frame tree output inputs withIndex
  refine ⟨⟨current_writeModules .., fun location hdirectory => ?_⟩, writeModules_grows ..,
    fun parent name contents hjson => ?_⟩
  · obtain hsame | ⟨hnone, -⟩ | ⟨hfree, -⟩ := hframe location
    · rw [hsame, hdirectory]
    · cases hnone.symm.trans hdirectory
    · exact absurd hdirectory hfree
  · obtain hsame | ⟨hnone, hdirectory, -⟩ | ⟨-, file, hmem, heq, -⟩ := hframe (parent ++ [name])
    · rw [hsame]
    · simp [hnone, hdirectory]
    · obtain ⟨-, rfl⟩ := List.append_singleton_inj.mp heq
      exact absurd hjson (not_hasExtension_json (isSourceName_of_mem_plannedFiles file hmem))

end PolicyForge.Workspace
