import Mathlib.Data.List.Nodup
import PolicyForge.Command.Generate
import PolicyForge.Proofs.Batch.Index
import PolicyForge.Proofs.Workspace.Files

namespace PolicyForge.Workspace

open FileTree (Adds Name OnWay Path)

/-- A name of small letters, digits and underscores with the extension of generated files. -/
def IsSourceName (name : String) : Prop :=
  ∃ stem, stem ≠ "" ∧ Identifier.IsSnake stem ∧ name = stem ++ ".rs"

/-- The name of a source file is that of an entry, neither a dot nor several names. -/
theorem IsSourceName.isEntry {name : String} (hname : IsSourceName name) :
    (Name.ofText name).isEntry = true := by
  obtain ⟨stem, hne, hsnake, rfl⟩ := hname
  have hlength : ∀ short : String, short.length ≤ 3 → stem ++ ".rs" ≠ short := by
    intro short hshort heq
    have hpositive : 0 < stem.length := by
      rw [← String.length_toList]
      exact List.length_pos_iff.mpr (by simpa using hne)
    rw [← heq, String.length_append] at hshort
    have hending : ".rs".length = 3 := rfl
    omega
  have hother : ∀ short : String, short.length ≤ 3 → Name.ofText (stem ++ ".rs") ≠ short :=
    fun short hshort heq => hlength short hshort (FileTree.Name.ofText_injective heq)
  refine FileTree.Name.isEntry_iff.mpr
    ⟨fun hnil => ?_, fun hmem => ?_, hother "." (by decide), hother ".." (by decide)⟩
  · exact hother "" (by decide) (congrArg Name.mk hnil)
  · have hslash := Text.ofNat_mem_of_mem_utf8 (by decide) hmem
    rw [String.toList_append] at hslash
    obtain hstem | hending := List.mem_append.mp hslash
    · exact absurd (Identifier.isSnake_iff.mp hsnake _ hstem) (by decide)
    · exact absurd hending (by decide)

/-- The names of the files of a report, without the extension. -/
def stems (report : Batch.Report) (withIndex : Bool) : List String :=
  report.generated.map (·.moduleName) ++ if withIndex then ["mod"] else []

theorem names_plannedFiles (report : Batch.Report) (withIndex : Bool) :
    (plannedFiles report withIndex).map (·.1) = (stems report withIndex).map (· ++ ".rs") := by
  rw [plannedFiles, stems, List.map_append, List.map_append, List.map_map, List.map_map]
  cases withIndex <;> rfl

/-- Stems are made of small letters, digits and underscores, and none is empty. -/
theorem isSnake_of_mem_stems {inputs : List Batch.Input} {withIndex : Bool} :
    ∀ stem ∈ stems (Batch.report inputs) withIndex, stem ≠ "" ∧ Identifier.IsSnake stem := by
  rw [stems, List.forall_mem_append]
  constructor
  · intro stem hstem
    obtain ⟨generated, hgenerated, rfl⟩ := List.mem_map.mp hstem
    rw [(Batch.wellNamed_of_mem_report hgenerated).1]
    exact ⟨Identifier.moduleName_ne_empty _, Identifier.isSnake_moduleName _⟩
  · split <;> decide

theorem isSourceName_of_mem_plannedFiles {inputs : List Batch.Input} {withIndex : Bool} :
    ∀ file ∈ plannedFiles (Batch.report inputs) withIndex, IsSourceName file.1 := by
  intro file hmem
  have hname : file.1 ∈ (stems (Batch.report inputs) withIndex).map (· ++ ".rs") := by
    rw [← names_plannedFiles]
    exact List.mem_map_of_mem hmem
  obtain ⟨stem, hstem, heq⟩ := List.mem_map.mp hname
  obtain ⟨hne, hsnake⟩ := isSnake_of_mem_stems stem hstem
  exact ⟨stem, hne, hsnake, heq.symm⟩

/-- No two files have one name. The index has a name that is left to it, as no module is called by a
word of the language. -/
theorem nodup_plannedFiles (inputs : List Batch.Input) (withIndex : Bool) :
    ((plannedFiles (Batch.report inputs) withIndex).map (·.1)).Nodup := by
  have hmodules := (Batch.names_of_refuseRepeated [] (inputs.map Batch.Outcome.ofInput)).2
  have hindex : "mod" ∉ (Batch.report inputs).generated.map (·.moduleName) := by
    intro hmem
    obtain ⟨generated, hgenerated, hname⟩ := List.mem_map.mp hmem
    have hfree := Identifier.not_isKeyword_moduleName generated.servicePrefix
    rw [← (Batch.wellNamed_of_mem_report hgenerated).1, hname] at hfree
    exact absurd hfree (by decide)
  have hstems : (stems (Batch.report inputs) withIndex).Nodup := by
    rw [stems]
    split
    · refine List.nodup_append.mpr ⟨hmodules, List.nodup_singleton "mod", ?_⟩
      rintro name hname other hother rfl
      obtain rfl := List.mem_singleton.mp hother
      exact hindex hname
    · rwa [List.append_nil]
  rw [names_plannedFiles]
  apply List.Nodup.map _ hstems
  intro a b heq
  simpa using heq

section

variable {tree after : FileTree} {directory : Path} {inputs : List Batch.Input} {withIndex : Bool}
  {written : List Path} {files : List (String × String)} {name : Name} {text : String}

theorem isEntry_of_mem_plannedFiles :
    ∀ file ∈ plannedFiles (Batch.report inputs) withIndex, (Name.ofText file.1).isEntry = true :=
  fun file hmem => (isSourceName_of_mem_plannedFiles file hmem).isEntry

/-- Writing the planned files rewrites these and nothing else. -/
theorem rewrites_plannedFiles (tree : FileTree) (directory : Path) (inputs : List Batch.Input)
    (withIndex : Bool) : Rewrites directory (plannedFiles (Batch.report inputs) withIndex) tree
      (writeFiles tree directory (plannedFiles (Batch.report inputs) withIndex)).1 :=
  writeFiles_rewrites isEntry_of_mem_plannedFiles

/-- Files are written when the directory was created, and then just those that are not current in
it. -/
theorem writeModules_eq_ok
    (hok : writeModules tree directory (Batch.report inputs) withIndex = (after, .ok written)) :
    ∃ created, tree.createDirectories directory = (created, .ok ()) ∧
      FileTree.KeepsDirectories created after ∧
      written = outOfDate created directory (plannedFiles (Batch.report inputs) withIndex) ∧
      ∀ file ∈ plannedFiles (Batch.report inputs) withIndex,
        isCurrent after (directory.join file.1) file.2 = true := by
  unfold writeModules at hok
  split at hok
  · cases hok
  · rename_i created hcreated
    obtain ⟨hwritten, hcurrent⟩ := writeFiles_eq_ok isEntry_of_mem_plannedFiles
      (nodup_plannedFiles inputs withIndex) hok
    have hrewrites := rewrites_plannedFiles created directory inputs withIndex
    rw [hok] at hrewrites
    exact ⟨created, hcreated, hrewrites.keepsDirectories, hwritten, hcurrent⟩

/-- A file that is current stays so when directories are added. -/
theorem isCurrent_of_adds {place : List Name → Prop} (hadds : Adds place tree after) {path : Path}
    (hcurrent : isCurrent tree path text = true) : isCurrent after path text = true := by
  rw [isCurrent_iff] at hcurrent ⊢
  obtain ⟨location, hlocate, hfile⟩ := hcurrent
  exact ⟨location, hadds.keepsDirectories.locate hlocate, hadds.kept hfile⟩

/-- Directories that are new bring no file out of date, and what was current stays so. -/
theorem outOfDate_sublist_of_adds {place : List Name → Prop} (hadds : Adds place tree after)
    (files : List (String × String)) :
    (outOfDate after directory files).Sublist (outOfDate tree directory files) := by
  apply List.Sublist.map
  apply List.monotone_filter_right
  intro file hstale
  rw [Bool.not_eq_true'] at hstale ⊢
  exact Bool.eq_false_iff.mpr fun hcurrent =>
    Bool.eq_false_iff.mp hstale (isCurrent_of_adds hadds hcurrent)

/-- Creating the directory brings no file up to date, unless its path leads up again from
directories that are new. -/
theorem isCurrent_createDirectories (hname : name.isEntry = true)
    (hstraight : (".." : Name) ∉ directory.names ∨ tree.isDirectory directory = true) :
    isCurrent (tree.createDirectories directory).1 (directory.join name) text =
      isCurrent tree (directory.join name) text := by
  have hadds := FileTree.createDirectories_adds tree directory
  rw [Bool.eq_iff_iff]
  refine ⟨fun hcurrent => ?_, isCurrent_of_adds hadds⟩
  obtain hdots | hdirectory := hstraight
  · have hkeeps := hadds.keepsDirectories
    rw [isCurrent_join_iff hname, hkeeps.start, hkeeps.entryLocation] at hcurrent
    obtain ⟨hcheck, hleads, hshort, hfile⟩ := hcurrent
    rw [isCurrent_join_iff hname]
    have hnode := hadds.file_of_file hfile
    have hnames := FileTree.checkName_of_follow (FileTree.leadsToDirectory_iff.mp hleads).1
    exact ⟨hcheck, FileTree.leadsToDirectory_of_node? hdots hnames hnode, hshort, hnode⟩
  · obtain ⟨hcheck, hleads⟩ := FileTree.leadsToDirectory_of_isDirectory hdirectory
    rwa [FileTree.createDirectories_of_leads hcheck hleads] at hcurrent

/-- Only locations on the way of the directory and those of the files are touched, whatever becomes
of the writing. On the way nothing is replaced, and at a file no directory is. -/
theorem writeModules_frame (tree : FileTree) (directory : Path) (inputs : List Batch.Input)
    (withIndex : Bool) (location : List Name) :
    let after := (writeModules tree directory (Batch.report inputs) withIndex).1
    after.node? location = tree.node? location ∨
      tree.node? location = none ∧ after.node? location = some .directory ∧
        OnWay tree directory location ∨
      tree.node? location ≠ some .directory ∧
        ∃ file ∈ plannedFiles (Batch.report inputs) withIndex,
          location = tree.entryLocation directory file.1 ∧
          after.node? location = some (.file file.2.toUTF8) := by
  have hadds := FileTree.createDirectories_adds tree directory
  dsimp only
  unfold writeModules
  split
  · rename_i created cause hcreated
    rw [hcreated] at hadds
    exact (hadds.node? location).imp_right .inl
  · rename_i created hcreated
    rw [hcreated] at hadds
    have hrewrites := rewrites_plannedFiles created directory inputs withIndex
    obtain hsame | ⟨hfree, file, hmem, hentry, hfile⟩ := hrewrites.node? location
    · rw [hsame]
      exact (hadds.node? location).imp_right .inl
    · rw [hadds.keepsDirectories.entryLocation] at hentry
      exact .inr (.inr ⟨mt (hadds.keepsDirectories.directory location) hfree, file, hmem, hentry,
        hfile⟩)

theorem current_writeModules (tree : FileTree) (directory : Path) (inputs : List Batch.Input)
    (withIndex : Bool) :
    (writeModules tree directory (Batch.report inputs) withIndex).1.current = tree.current := by
  have hadds := FileTree.createDirectories_adds tree directory
  unfold writeModules
  split
  · rename_i hcreated
    rw [hcreated] at hadds
    exact hadds.current
  · rename_i created hcreated
    rw [hcreated] at hadds
    exact (rewrites_plannedFiles created directory inputs withIndex).current.trans hadds.current

/-- A run that checks writes nothing. -/
theorem generate_of_check {request : Command.GenerateRequest} (hcheck : request.check = true) :
    (Command.generate tree request).1 = tree := by
  unfold Command.generate
  split
  · rfl
  · dsimp only
    split
    · rfl
    · rw [if_pos hcheck]

end

/-- Checking and writing agree on the files of a report. These have different names, of small
letters, digits and underscores. Checking changes nothing. What is written has been reported stale,
and stands in the order of the report; it is all that is stale, unless a path that leads up again
from directories that are not there yet comes to files that are current once these are. When all is
written, nothing is stale and nothing more is written. Nothing else is different then but
directories on the way that were not there. -/
theorem check_agrees_with_write (inputs : List Batch.Input) (withIndex : Bool) (tree : FileTree)
    (directory : Path) :
    let report := Batch.report inputs
    let files := plannedFiles report withIndex
    (files.map (·.1)).Nodup ∧
      (∀ file ∈ files, IsSourceName file.1) ∧
      (∀ request : Command.GenerateRequest, request.check = true →
        (Command.generate tree request).1 = tree) ∧
      (∀ stale after written, checkModules tree directory report withIndex = .ok stale →
        writeModules tree directory report withIndex = (after, .ok written) →
        stale.map (·.path) = outOfDate tree directory files ∧
          written = outOfDate (tree.createDirectories directory).1 directory files ∧
          written.Sublist (stale.map (·.path)) ∧
          ((".." : Name) ∉ directory.names ∨ tree.isDirectory directory = true →
            written = stale.map (·.path))) ∧
      (∀ after written, writeModules tree directory report withIndex = (after, .ok written) →
        checkModules after directory report withIndex = .ok [] ∧
          writeModules after directory report withIndex = (after, .ok [])) ∧
      (writeModules tree directory report withIndex).1.current = tree.current ∧
      ∀ location, let after := (writeModules tree directory report withIndex).1
        after.node? location = tree.node? location ∨
          tree.node? location = none ∧ after.node? location = some .directory ∧
            OnWay tree directory location ∨
          tree.node? location ≠ some .directory ∧
            ∃ file ∈ files, location = tree.entryLocation directory file.1 ∧
              after.node? location = some (.file file.2.toUTF8) := by
  intro report files
  refine ⟨nodup_plannedFiles inputs withIndex, isSourceName_of_mem_plannedFiles,
    fun request hcheck => generate_of_check hcheck, ?_, ?_, current_writeModules ..,
    writeModules_frame tree directory inputs withIndex⟩
  · intro stale after written hchecked hwrote
    obtain ⟨created, hcreated, -, hwritten, -⟩ := writeModules_eq_ok hwrote
    have hadds := FileTree.createDirectories_adds tree directory
    have hstale := checkModules_eq_ok hchecked
    rw [hcreated] at hadds ⊢
    refine ⟨hstale, hwritten, ?_, fun hstraight => ?_⟩
    · rw [hstale, hwritten]
      exact outOfDate_sublist_of_adds hadds files
    · rw [hstale, hwritten]
      apply outOfDate_congr
      intro file hmem
      rw [← isCurrent_createDirectories (isEntry_of_mem_plannedFiles file hmem) hstraight,
        hcreated]
  · intro after written hwrote
    obtain ⟨created, hcreated, hkeeps, -, hcurrent⟩ := writeModules_eq_ok hwrote
    refine ⟨checkModules_of_current hcurrent, ?_⟩
    rw [writeModules, FileTree.createDirectories_again hcreated hkeeps]
    exact writeFiles_of_current hcurrent

/-- A tree with an index of no modules that is up to date. -/
def indexOnly : FileTree :=
  (writeModules .top "out" (Batch.report []) true).1

/-- A path to the directory of this index that leads up again from a directory that is not there. -/
def roundabout : Path := "out/new/.."

theorem not_written_roundabout :
    ¬ ∀ stale after written, checkModules indexOnly roundabout (Batch.report []) true = .ok stale →
      writeModules indexOnly roundabout (Batch.report []) true = (after, .ok written) →
      written = stale.map (·.path) := by
  intro hagree
  have hstale : checkModules indexOnly roundabout (Batch.report []) true =
      .ok [⟨"out/new/../mod.rs", .missing⟩] := by
    decide +kernel
  have hwritten : (writeModules indexOnly roundabout (Batch.report []) true).2 = .ok [] := by
    decide +kernel
  cases hagree _ _ [] hstale (Prod.ext rfl hwritten)

/-- A catalog that has no files yet. -/
def unwritten : List Batch.Input :=
  [⟨"s3", Batch.bare "s3"⟩]

theorem check_agrees_with_write_unwritten :
    let stale : List StaleFile := [⟨"out/s3.rs", .missing⟩, ⟨"out/mod.rs", .missing⟩]
    let after := (writeModules .top "out" (Batch.report unwritten) true).1
    (Command.generate .top { input := "in", output := "out", check := true }).1 = .top ∧
      checkModules .top "out" (Batch.report unwritten) true = .ok stale ∧
      writeModules .top "out" (Batch.report unwritten) true = (after, .ok (stale.map (·.path))) ∧
      checkModules after "out" (Batch.report unwritten) true = .ok [] := by
  intro stale after
  have hstale : checkModules .top "out" (Batch.report unwritten) true = .ok stale := by
    decide +kernel
  have hwritten : (writeModules .top "out" (Batch.report unwritten) true).2 =
      .ok ["out/s3.rs", "out/mod.rs"] := by
    decide +kernel
  have hwrote : writeModules .top "out" (Batch.report unwritten) true =
      (after, .ok ["out/s3.rs", "out/mod.rs"]) := by
    rw [← hwritten]
  obtain ⟨-, -, hcheck, hagree, hagain, -⟩ := check_agrees_with_write unwritten true .top "out"
  have hall := (hagree _ _ _ hstale hwrote).2.2.2 (.inl (by decide))
  rw [hall] at hwrote
  exact ⟨hcheck _ rfl, hstale, hwrote, (hagain _ _ hwrote).1⟩

end PolicyForge.Workspace
