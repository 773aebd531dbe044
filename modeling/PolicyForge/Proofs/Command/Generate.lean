import PolicyForge.Proofs.Batch.Selection
import PolicyForge.Proofs.Command.Arguments
import PolicyForge.Proofs.Workspace.Listing

namespace PolicyForge.Command

open FileTree (Name OnWay Path)
open Workspace (CatalogsAreTexts catalogLabel catalogNames indexFile isCurrent loadCatalogs
  plannedFiles writeModules)

variable {tree after : FileTree} {request : GenerateRequest} {outcome : Outcome}
  {inputs : List Batch.Input} {generated : Batch.Generated} {service : String}

/-- The request for one of the catalogs only. -/
def GenerateRequest.only (request : GenerateRequest) (service : String) : GenerateRequest :=
  { request with service := some service }

/-- A catalog with a label has a module by itself. -/
def IsModuleOf (tree : FileTree) (directory : Path) (label : String)
    (generated : Batch.Generated) : Prop :=
  ∃ inputs, loadCatalogs tree directory = .ok inputs ∧
    ∃ input ∈ inputs, input.label = label ∧ Batch.generate input = .ok generated

/-- A run that does not check fails with an error at its end, or all files of the report on the
catalogs it is about are up to date after it. -/
theorem generate_cases (hwrite : request.check = false)
    (hrun : generate tree request = (after, outcome)) :
    (∃ own reason, outcome = Outcome.fail own reason) ∨
      ∃ inputs written, loadCatalogs tree request.input = .ok inputs ∧
        writeModules tree request.output (Batch.report (request.select inputs)) request.withIndex =
          (after, .ok written) ∧
        outcome = ((reportOutcome (Batch.report (request.select inputs))).printing
          [toString written.length ++ " file(s) written to " ++ request.output.text,
            (Batch.report (request.select inputs)).summary]).ending
          (reportCode (Batch.report (request.select inputs))) := by
  unfold generate at hrun
  split at hrun
  · exact .inl ⟨_, _, (Prod.mk.inj hrun).2.symm⟩
  · rename_i inputs hloaded
    dsimp only at hrun
    split at hrun
    · exact .inl ⟨_, _, (Prod.mk.inj hrun).2.symm⟩
    · rw [hwrite, if_neg Bool.false_ne_true, writeReport] at hrun
      dsimp only at hrun
      split at hrun
      · exact .inl ⟨_, _, (Prod.mk.inj hrun).2.symm⟩
      · rename_i written hwrote
        obtain ⟨rfl, rfl⟩ := Prod.mk.inj hrun
        exact .inr ⟨inputs, written, hloaded, hwrote, rfl⟩

/-- A run leaves the tree as it is, or it leaves what writing its report leaves. -/
theorem tree_generate (tree : FileTree) (request : GenerateRequest) :
    (generate tree request).1 = tree ∨
      ∃ inputs, loadCatalogs tree request.input = .ok inputs ∧ (generate tree request).1 =
        (writeModules tree request.output (Batch.report (request.select inputs))
          request.withIndex).1 := by
  unfold generate
  split
  · exact .inl rfl
  · rename_i inputs hloaded
    dsimp only
    split
    · exact .inl rfl
    · split
      · exact .inl rfl
      · refine .inr ⟨inputs, hloaded, ?_⟩
        rw [writeReport]
        dsimp only
        split <;> rename_i hwrote <;> rw [hwrote]

/-- A run that does not check and finds its catalogs writes the report on them. -/
theorem generate_eq_writeReport (hfound : request.select inputs ≠ [])
    (hloaded : loadCatalogs tree request.input = .ok inputs) (hwrite : request.check = false) :
    generate tree request = writeReport tree request (Batch.report (request.select inputs)) := by
  unfold generate
  rw [hloaded]
  dsimp only
  split
  · exact absurd ‹_› hfound
  · rw [hwrite, if_neg Bool.false_ne_true]

/-- A run that finds its catalogs and has nothing to write. -/
theorem generate_of_current (hfound : request.select inputs ≠ [])
    (hloaded : loadCatalogs tree request.input = .ok inputs) (hwrite : request.check = false)
    (hcurrent : writeModules tree request.output (Batch.report (request.select inputs))
      request.withIndex = (tree, .ok [])) :
    ∃ later, generate tree request = (tree, later) ∧
      later.code = reportCode (Batch.report (request.select inputs)) ∧
      "0 file(s) written to " ++ request.output.text ∈ later.output := by
  refine ⟨_, by rw [generate_eq_writeReport hfound hloaded hwrite, writeReport, hcurrent], rfl, ?_⟩
  exact List.mem_append_right _ List.mem_cons_self

/-- A full run selects every catalog. -/
theorem select_of_full (hfull : request.service = none) (inputs : List Batch.Input) :
    request.select inputs = inputs := by
  rw [GenerateRequest.select, hfull]

/-- A run for one service selects the catalogs with that label, of which there may be several. -/
theorem mem_select_only {input : Batch.Input} :
    input ∈ (request.only service).select inputs ↔ input ∈ inputs ∧ input.label = service := by
  simp [GenerateRequest.select, GenerateRequest.only, List.mem_filter]

/-- A request for one catalog generates nothing but modules of catalogs with its label. -/
theorem isModuleOf_of_mem_generated (hloaded : loadCatalogs tree request.input = .ok inputs)
    (hmem : generated ∈ (Batch.report ((request.only service).select inputs)).generated) :
    IsModuleOf tree request.input service generated := by
  obtain ⟨label, houtcome⟩ := Batch.mem_generated_iff.mp hmem
  obtain ⟨input, hinput, -, hok⟩ := Batch.exists_of_mem_outcomes houtcome
  obtain ⟨hmember, hlabel⟩ := mem_select_only.mp hinput
  exact ⟨inputs, hloaded, input, hmember, hlabel, hok⟩

/-- Where the names of the catalogs are texts, a label stands for one module at most. -/
theorem IsModuleOf.unique (htexts : CatalogsAreTexts tree request.input)
    (hmodule : IsModuleOf tree request.input service generated) {other : Batch.Generated}
    (hother : IsModuleOf tree request.input service other) : generated = other := by
  obtain ⟨inputs, hloaded, input, hinput, hlabel, hok⟩ := hmodule
  obtain ⟨inputs', hloaded', input', hinput', hlabel', hok'⟩ := hother
  obtain rfl := Except.ok.inj (hloaded.symm.trans hloaded')
  obtain rfl := Workspace.eq_of_label_eq htexts hloaded hinput hinput' (hlabel.trans hlabel'.symm)
  exact Except.ok.inj (hok.symm.trans hok')

/-- No module has the file of the index. -/
theorem IsModuleOf.fileName_ne_indexFile {directory : Path}
    (hmodule : IsModuleOf tree directory service generated) : generated.fileName ≠ indexFile := by
  obtain ⟨-, -, input, -, -, hok⟩ := hmodule
  have halone : (Batch.report [input]).generated = [generated] := by
    simp [Batch.report, Batch.refuseRepeated, Batch.Outcome.ofInput, hok, Batch.Report.generated,
      Except.toOption]
  have hnodup := Workspace.nodup_plannedFiles [input] true
  rw [plannedFiles, halone, if_pos rfl, List.map_append] at hnodup
  exact (List.nodup_append.mp hnodup).2.2 _ List.mem_cons_self _ List.mem_cons_self

/-- Files that a run brought up to date have their texts. -/
theorem readText_of_writeModules {output : Path} {withIndex : Bool} {written : List Path}
    (hok : writeModules tree output (Batch.report inputs) withIndex = (after, .ok written))
    (hmem : generated ∈ (Batch.report inputs).generated) :
    after.readText (output.join generated.fileName) = .ok generated.source := by
  obtain ⟨-, -, -, -, hcurrent⟩ := Workspace.writeModules_eq_ok hok
  have hfile : (generated.fileName, generated.source) ∈
      plannedFiles (Batch.report inputs) withIndex := by
    rw [plannedFiles]
    exact List.mem_append_left _ (List.mem_map.mpr ⟨generated, hmem, rfl⟩)
  have hfresh : isCurrent after (output.join generated.fileName) generated.source = true :=
    hcurrent (generated.fileName, generated.source) hfile
  exact FileTree.readText_eq_ok_iff.mpr (Workspace.isCurrent_iff.mp hfresh)

/-- What is up to date for all catalogs is so for some of them. -/
theorem writeModules_of_sublist {output : Path} {selected : List Batch.Input} {withIndex : Bool}
    {written : List Path}
    (hok : writeModules tree output (Batch.report inputs) withIndex = (after, .ok written))
    (hfewer : (Batch.report selected).generated.Sublist (Batch.report inputs).generated) :
    writeModules after output (Batch.report selected) false = (after, .ok []) := by
  obtain ⟨created, hcreated, hkeeps, -, hcurrent⟩ := Workspace.writeModules_eq_ok hok
  rw [writeModules, FileTree.createDirectories_again hcreated hkeeps]
  apply Workspace.writeFiles_of_current
  intro file hmem
  rw [plannedFiles, if_neg Bool.false_ne_true, List.append_nil] at hmem
  exact hcurrent file (List.mem_append_left _ ((hfewer.map _).subset hmem))

/-- A request for one catalog touches nothing but files of modules with its label, and directories
on the way to them that were not there. -/
theorem frame_generate_only (tree : FileTree) (request : GenerateRequest) (service : String) :
    let after := (generate tree (request.only service)).1
    after.current = tree.current ∧ ∀ location, after.node? location = tree.node? location ∨
      tree.node? location = none ∧ after.node? location = some .directory ∧
        OnWay tree request.output location ∨
      tree.node? location ≠ some .directory ∧
        ∃ generated, IsModuleOf tree request.input service generated ∧
          location = tree.entryLocation request.output generated.fileName ∧
          after.node? location = some (.file generated.source.toUTF8) := by
  intro after
  obtain hsame | ⟨inputs, hloaded, hwrote⟩ := tree_generate tree (request.only service)
  · rw [show after = tree from hsame]
    exact ⟨rfl, fun _ => .inl rfl⟩
  · let selected := (request.only service).select inputs
    have hafter : after = (writeModules tree request.output (Batch.report selected) false).1 :=
      hwrote
    rw [hafter]
    refine ⟨Workspace.current_writeModules .., fun location => ?_⟩
    refine (Workspace.writeModules_frame tree request.output selected false location).imp_right ?_
    refine Or.imp_right ?_
    rintro ⟨hfree, file, hmem, hentry, hfile⟩
    rw [plannedFiles, if_neg Bool.false_ne_true, List.append_nil] at hmem
    obtain ⟨generated, hgenerated, rfl⟩ := List.mem_map.mp hmem
    exact ⟨hfree, generated, isModuleOf_of_mem_generated hloaded hgenerated, hentry, hfile⟩

/-- After a run for all catalogs without a failure, the run for any one of them goes through and
writes nothing. -/
theorem generate_only_of_success (hfull : request.service = none)
    (hwrite : request.check = false) (hrun : generate tree request = (after, outcome))
    (hsuccess : outcome.code = .success) {entries : List Name} {name : Name}
    (hentries : after.entries request.input = .ok entries)
    (hname : name ∈ catalogNames after request.input entries) :
    ∃ later, generate after (request.only (catalogLabel name)) = (after, later) ∧
      later.code = .success ∧ "0 file(s) written to " ++ request.output.text ∈ later.output := by
  obtain ⟨own, reason, rfl⟩ | ⟨inputs, written, hloaded, hwrote, rfl⟩ := generate_cases hwrite hrun
  · cases hsuccess
  · rw [select_of_full hfull] at hwrote hsuccess
    have hnone : (Batch.report inputs).hasFailures = false := by
      cases hfails : (Batch.report inputs).hasFailures with
      | false => rfl
      | true => simp [Outcome.ending, reportCode, hfails] at hsuccess
    have hkeeps :=
      Workspace.writeModules_keepsCatalogs tree request.output inputs request.withIndex
    rw [hwrote] at hkeeps
    have hagain := hkeeps.loadCatalogs hloaded
    obtain ⟨own, hown, hall⟩ := Workspace.loadCatalogs_eq_ok_iff.mp hagain
    obtain rfl := Except.ok.inj (hown.symm.trans hentries)
    obtain ⟨input, hinput, hload⟩ := Lists.exists_of_mem_forall₂ hall.flip hname
    obtain ⟨text, -, rfl⟩ := Workspace.loadCatalog_eq_ok_iff.mp hload
    have hfewer : ((request.only (catalogLabel name)).select inputs).Sublist inputs :=
      List.filter_sublist
    obtain ⟨hpasses, hgenerated⟩ := Batch.report_of_sublist hfewer hnone
    have hfound : (request.only (catalogLabel name)).select inputs ≠ [] :=
      List.ne_nil_of_mem (mem_select_only.mpr ⟨hinput, rfl⟩)
    obtain ⟨later, hlater, hcode, hzero⟩ :=
      generate_of_current hfound hagain hwrite (writeModules_of_sublist hwrote hgenerated)
    refine ⟨later, hlater, ?_, hzero⟩
    rw [hcode]
    exact if_neg (ne_true_of_eq_false hpasses)

/-- A run for one catalog leaves the files of the output directory as they are that have another
name than its module. -/
theorem file_generate_only (tree : FileTree) (request : GenerateRequest) (service : String)
    (name : Name) (contents : ByteArray)
    (hother : ∀ generated, IsModuleOf tree request.input service generated →
      name ≠ generated.fileName) :
    (generate tree (request.only service)).1.node? (tree.entryLocation request.output name) =
        some (.file contents) ↔
      tree.node? (tree.entryLocation request.output name) = some (.file contents) := by
  obtain hsame | ⟨hnone, hdirectory, -⟩ | ⟨-, generated, hmodule, heq, -⟩ :=
    (frame_generate_only tree request service).2 (tree.entryLocation request.output name)
  · rw [hsame]
  · simp [hnone, hdirectory]
  · exact absurd (FileTree.entryLocation_inj.mp heq) (hother generated hmodule)

/-- A run that does not end with an error leaves every module it generates in its file. -/
theorem readText_of_generate
    (hmem : generated ∈ (Batch.report (request.select inputs)).generated)
    (hloaded : loadCatalogs tree request.input = .ok inputs) (hwrite : request.check = false)
    (hrun : generate tree request = (after, outcome))
    (hcompletes : ∀ reason, "Error: " ++ reason ∉ outcome.messages) :
    after.readText (request.output.join generated.fileName) = .ok generated.source := by
  obtain ⟨own, reason, rfl⟩ | ⟨others, written, hothers, hwrote, -⟩ := generate_cases hwrite hrun
  · exact absurd (List.mem_append_right _ List.mem_cons_self) (hcompletes reason)
  · obtain rfl := Except.ok.inj (hloaded.symm.trans hothers)
    exact readText_of_writeModules hwrote hmem

/-- Generating one catalog agrees with generating them all. After all were generated without a
failure, generating any one of them goes through and writes nothing, even where the modules went to
the directory of the catalogs. From any tree, and whatever becomes of it, generating one touches no
file but those of modules with its label, none of which is the index, and there is one at most where
the names of the catalogs are texts. When all are generated and it is reported with a module, it has
the same by itself, and the file of the module has the same text after either run, unless that run
ends with an error. The label may be any text where it stands behind an equals sign. -/
theorem single_service_consistent (tree : FileTree) (request : GenerateRequest)
    (hfull : request.service = none) :
    (∀ after outcome, request.check = false →
      generate tree request = (after, outcome) → outcome.code = .success →
      ∀ entries name, after.entries request.input = .ok entries →
        name ∈ catalogNames after request.input entries →
        ∃ later, generate after (request.only (FileTree.stem name).text) = (after, later) ∧
          later.code = .success ∧
          "0 file(s) written to " ++ request.output.text ∈ later.output) ∧
      (∀ service,
        let after := (generate tree (request.only service)).1
        after.current = tree.current ∧
          (∀ location, after.node? location = tree.node? location ∨
            tree.node? location = none ∧ after.node? location = some .directory ∧
              OnWay tree request.output location ∨
            tree.node? location ≠ some .directory ∧
              ∃ generated, IsModuleOf tree request.input service generated ∧
                location = tree.entryLocation request.output generated.fileName ∧
                after.node? location = some (.file generated.source.toUTF8)) ∧
          (∀ generated, IsModuleOf tree request.input service generated →
            generated.fileName ≠ indexFile) ∧
          (∀ (name : Name) contents, (∀ generated, IsModuleOf tree request.input service generated →
              name ≠ generated.fileName) →
            (after.node? (tree.entryLocation request.output name) = some (.file contents) ↔
              tree.node? (tree.entryLocation request.output name) = some (.file contents))) ∧
          (CatalogsAreTexts tree request.input → ∀ generated other,
            IsModuleOf tree request.input service generated →
            IsModuleOf tree request.input service other → generated = other)) ∧
      (∀ inputs service generated, request.check = false →
        loadCatalogs tree request.input = .ok inputs →
        ⟨service, .ok generated⟩ ∈ (Batch.report inputs).outcomes →
        IsModuleOf tree request.input service generated ∧
          ∀ run ∈ [request, request.only service], ∀ after outcome,
            generate tree run = (after, outcome) →
            (∀ reason, "Error: " ++ reason ∉ outcome.messages) →
            after.readText (request.output.join generated.fileName) = .ok generated.source) ∧
      ∀ input output service : String, input ≠ "" → output ≠ "" → ∀ environment,
        Invocation.ofArguments? environment
            ["generate", "--input=" ++ input, "--output=" ++ output, "--service=" ++ service] =
          some (.generate (GenerateRequest.only { input := input, output := output } service)) := by
  refine ⟨?_, ?_, ?_, ?_⟩
  · intro after outcome hwrite hrun hsuccess entries name hentries hname
    exact generate_only_of_success hfull hwrite hrun hsuccess hentries hname
  · intro service after
    obtain ⟨hcurrent, hframe⟩ := frame_generate_only tree request service
    exact ⟨hcurrent, hframe, fun generated hmodule => hmodule.fileName_ne_indexFile,
      file_generate_only tree request service,
      fun htexts generated other hmodule hother => hmodule.unique htexts hother⟩
  · intro inputs service generated hwrite hloaded hmem
    obtain ⟨input, hinput, hlabel, hok⟩ := Batch.exists_of_mem_outcomes hmem
    have hall : generated ∈ (Batch.report (request.select inputs)).generated := by
      rw [select_of_full hfull]
      exact Batch.mem_generated_iff.mpr ⟨service, hmem⟩
    have halone : generated ∈ (Batch.report ((request.only service).select inputs)).generated :=
      Batch.mem_generated_iff.mpr ⟨service, Batch.mem_outcomes_of_label hmem⟩
    refine ⟨⟨inputs, hloaded, input, hinput, hlabel, hok⟩, ?_⟩
    rw [List.forall_mem_cons, List.forall_mem_singleton]
    exact ⟨fun _ _ => readText_of_generate hall hloaded hwrite,
      fun _ _ => readText_of_generate halone hloaded hwrite⟩
  · intro input output service hinput houtput environment
    exact ofArguments?_written hinput houtput environment (some service)

/-- A catalog, and an index from somewhere else in place of the generated one. -/
def foreignIndex : FileTree where
  nodes := [(["in"], .directory), (["in", "s3.json"], .file (Batch.bare "s3").toUTF8),
    (["out"], .directory), (["out", "mod.rs"], .file "mod other;".toUTF8)]

theorem single_service_consistent_foreignIndex :
    let request : GenerateRequest := { input := "in", output := "out" }
    let after := (generate foreignIndex request).1
    let alone := (generate foreignIndex (request.only "s3")).1
    (generate foreignIndex request).2.code = .success ∧
      (∃ later, generate after (request.only "s3") = (after, later) ∧ later.code = .success) ∧
      alone.node? ["out", "mod.rs"] = some (.file "mod other;".toUTF8) ∧
      CatalogsAreTexts foreignIndex request.input ∧
      ∃ generated, IsModuleOf foreignIndex request.input "s3" generated ∧
        (∀ other, IsModuleOf foreignIndex request.input "s3" other → other = generated) ∧
        alone.readText (request.output.join generated.fileName) = .ok generated.source := by
  intro request after alone
  obtain ⟨hagain, hframe, hsame, -⟩ := single_service_consistent foreignIndex request rfl
  have hsuccess : (generate foreignIndex request).2.code = .success := by decide +kernel
  have hentries : after.entries request.input = .ok ["s3.json"] := by decide +kernel
  have hcatalog : Name.ofText "s3.json" ∈ catalogNames after request.input ["s3.json"] := by
    decide +kernel
  obtain ⟨later, hlater, hcode, -⟩ := hagain after _ rfl rfl hsuccess _ "s3.json" hentries hcatalog
  rw [show (FileTree.stem "s3.json").text = "s3" by decide +kernel] at hlater
  have hentry : foreignIndex.entryLocation request.output "mod.rs" = ["out", "mod.rs"] := by
    decide +kernel
  obtain ⟨-, -, hindex, hothers, hunique⟩ := hframe "s3"
  have hkept := (hothers "mod.rs" "mod other;".toUTF8 fun generated hmodule heq =>
    hindex generated hmodule (FileTree.Name.ofText_injective heq).symm).mpr (by rw [hentry]; rfl)
  rw [hentry] at hkept
  have htexts : CatalogsAreTexts foreignIndex request.input := by
    intro entries hlisted name hname
    have hown : foreignIndex.entries request.input = .ok ["s3.json"] := by decide +kernel
    obtain rfl := Except.ok.inj (hown.symm.trans hlisted)
    exact ⟨"s3.json", List.mem_singleton.mp (Workspace.mem_catalogNames.mp hname).1⟩
  have hloaded : loadCatalogs foreignIndex request.input = .ok [⟨"s3", Batch.bare "s3"⟩] := by
    decide +kernel
  obtain ⟨generated, hgenerated⟩ : ∃ generated,
      Batch.generate ⟨"s3", Batch.bare "s3"⟩ = .ok generated :=
    Failing.exists_eq_ok_of_isSome (by decide +kernel)
  have hreported : ⟨"s3", .ok generated⟩ ∈
      (Batch.report [⟨"s3", Batch.bare "s3"⟩]).outcomes := by
    simp [Batch.report, Batch.refuseRepeated, Batch.Outcome.ofInput, hgenerated]
  obtain ⟨hmodule, hfiles⟩ := hsame _ "s3" generated rfl hloaded hreported
  have hquiet : (generate foreignIndex (request.only "s3")).2.messages = [] := by decide +kernel
  have hread := hfiles (request.only "s3") (by simp) alone
    (generate foreignIndex (request.only "s3")).2 rfl (by simp [hquiet])
  exact ⟨hsuccess, ⟨later, hlater, hcode⟩, hkept, htexts, generated, hmodule,
    fun other hother => hunique htexts other generated hother hmodule, hread⟩

/-- Two catalogs with one label, as the name of the first is no text. -/
def lookalikes : FileTree where
  nodes := [(["in"], .directory),
    (["in", ⟨[0xFF, 0x2E, 0x6A, 0x73, 0x6F, 0x6E]⟩], .file (Batch.bare "a").toUTF8),
    (["in", "\uFFFD.json"], .file (Batch.bare "b").toUTF8)]

/-- A catalog with a name that begins as an option does. -/
def dashed : FileTree where
  nodes := [(["in"], .directory), (["in", "-x.json"], .file (Batch.bare "x").toUTF8)]

theorem loadCatalogs_lookalikes : loadCatalogs lookalikes "in" =
    .ok [⟨"\uFFFD", Batch.bare "b"⟩, ⟨"\uFFFD", Batch.bare "a"⟩] := by
  have hentries : lookalikes.entries "in" =
      .ok [⟨[0xFF, 0x2E, 0x6A, 0x73, 0x6F, 0x6E]⟩, "\uFFFD.json"] := by
    decide +kernel
  have hnames : Workspace.CatalogsInOrder lookalikes "in"
      ["\uFFFD.json", ⟨[0xFF, 0x2E, 0x6A, 0x73, 0x6F, 0x6E]⟩] := by
    have hfiles : ∀ name ∈ ([⟨[0xFF, 0x2E, 0x6A, 0x73, 0x6F, 0x6E]⟩, "\uFFFD.json"] : List Name),
        FileTree.hasExtension "json" name = true ∧
          lookalikes.isFile (Path.join "in" name) = true := by
      decide +kernel
    refine ⟨by decide +kernel, _, hentries, fun name => ?_⟩
    rw [(List.Perm.swap ..).mem_iff]
    exact ⟨fun hmem => ⟨hmem, hfiles name hmem⟩, fun hfile => hfile.1⟩
  exact Workspace.loadCatalogs_ok_iff_inOrder.mpr
    ⟨_, hnames, .cons (by decide +kernel) (.cons (by decide +kernel) .nil)⟩

/-- Generating one catalog may write two modules, where two catalogs have one label, and a label
that looks like an option is none where it is an argument of its own, though generating all went
through. -/
theorem single_service_not_consistent :
    let request : GenerateRequest := { input := "in", output := "out" }
    (lookalikes.node? ["out", "a.rs"] = none ∧ lookalikes.node? ["out", "b.rs"] = none ∧
      ((generate lookalikes (request.only "\uFFFD")).1.node? ["out", "a.rs"]).isSome ∧
      ((generate lookalikes (request.only "\uFFFD")).1.node? ["out", "b.rs"]).isSome) ∧
    Invocation.ofArguments? none ["generate", "--input", "in", "--output", "out"] =
        some (.generate request) ∧
      (generate dashed request).2.code = .success ∧
      (FileTree.stem "-x.json").text = "-x" ∧
      catalogNames (generate dashed request).1 request.input [Name.ofText "-x.json"] =
        [Name.ofText "-x.json"] ∧
      Invocation.ofArguments? none
        ["generate", "--input", "in", "--output", "out", "--service", "-x"] = none := by
  intro request
  have hfound : (request.only "\uFFFD").select
      [⟨"\uFFFD", Batch.bare "b"⟩, ⟨"\uFFFD", Batch.bare "a"⟩] ≠ [] :=
    List.ne_nil_of_mem (mem_select_only.mpr ⟨List.mem_cons_self, rfl⟩)
  rw [generate_eq_writeReport hfound loadCatalogs_lookalikes rfl]
  decide +kernel

end PolicyForge.Command
