import PolicyForge.Command.Generate
import PolicyForge.Proofs.Workspace.Listing

namespace PolicyForge.Command

open FileTree (Alike Name Relisted hasExtension stem)
open Workspace (CatalogsInOrder loadCatalogs)

variable {tree after : FileTree}

/-- A check only looks nodes up, so the order of the listing does not reach its report. -/
theorem checkReport_relisted (hrelisted : Relisted tree after) (request : GenerateRequest)
    (report : Batch.Report) : checkReport after request report = checkReport tree request report := by
  rw [checkReport, checkReport, Workspace.checkModules_relisted hrelisted]

/-- Writing on a relisted tree leaves a relisted tree and the same messages. -/
theorem writeReport_relisted (hrelisted : Relisted tree after) (request : GenerateRequest)
    (report : Batch.Report) :
    Alike (writeReport tree request report) (writeReport after request report) := by
  have hwritten :=
    Workspace.writeModules_relisted hrelisted request.output report request.withIndex
  rw [writeReport, writeReport]
  dsimp only
  generalize Workspace.writeModules tree request.output report request.withIndex = run at hwritten
  generalize Workspace.writeModules after request.output report request.withIndex = run'
    at hwritten
  obtain ⟨hend, _ | _⟩ := hwritten
  · exact .intro hend _
  · exact .intro hend _

/-- Loading sorts what the directory lists, and everything behind it depends on the nodes alone. -/
theorem generate_relisted (hrelisted : Relisted tree after) (request : GenerateRequest) :
    Alike (generate tree request) (generate after request) := by
  rw [generate, generate, Workspace.loadCatalogs_relisted hrelisted]
  split
  · exact .intro hrelisted _
  · dsimp only
    split
    · exact .intro hrelisted _
    · split
      · rw [checkReport_relisted hrelisted]
        exact .intro hrelisted _
      · exact writeReport_relisted hrelisted request _

/-- The report a request is about, if its catalogs can be loaded. -/
def reportOf (tree : FileTree) (request : GenerateRequest) :
    Except Workspace.Fault Batch.Report :=
  (loadCatalogs tree request.input).map fun inputs => Batch.report (request.select inputs)

/-- Directories may list their entries in any order, and nothing depends on it. The catalogs are one
for each file with the extension `json`, in strictly increasing order of the names and labelled with
their stems, unless the directory cannot be listed or a catalog cannot be read, of which the first
in this order is reported. The report, with the catalog that has a contested name, what is printed,
the exit code and the files left behind are the same for every order. -/
theorem listing_order_irrelevant (tree : FileTree) (request : GenerateRequest) :
    (∀ names listed, tree.entries request.input = .ok names → listed.Perm names →
      ∃ after, Relisted tree after ∧ after.entries request.input = .ok listed) ∧
    (∀ inputs, loadCatalogs tree request.input = .ok inputs ↔
      ∃ names, CatalogsInOrder tree request.input names ∧ List.Forall₂ (fun name input =>
        input.label = (stem name).text ∧ tree.readText (request.input.join name) = .ok input.text)
        names inputs) ∧
    (∀ fault, loadCatalogs tree request.input = .error fault ↔
      (∃ cause, tree.entries request.input = .error cause ∧
        fault = ⟨.read, request.input, cause⟩) ∨
      ∃ before name behind cause,
        CatalogsInOrder tree request.input (before ++ name :: behind) ∧
        (∀ other ∈ before, ∃ text, tree.readText (request.input.join other) = .ok text) ∧
        tree.readText (request.input.join name) = .error cause ∧
        fault = ⟨.read, request.input.join name, cause⟩) ∧
    ∀ after, Relisted tree after →
      loadCatalogs after request.input = loadCatalogs tree request.input ∧
      reportOf after request = reportOf tree request ∧
      (generate after request).2 = (generate tree request).2 ∧
      Relisted (generate tree request).1 (generate after request).1 := by
  refine ⟨fun names listed hentries hperm => FileTree.exists_relisted hentries hperm,
    fun inputs => Workspace.loadCatalogs_ok_iff_inOrder,
    fun fault => Workspace.loadCatalogs_error_iff_inOrder, ?_⟩
  intro after hrelisted
  have hloaded := Workspace.loadCatalogs_relisted hrelisted request.input
  have hruns := generate_relisted hrelisted request
  exact ⟨hloaded, by rw [reportOf, reportOf, hloaded], hruns.result_eq, hruns.relisted⟩

/-- Two catalogs with one module name, of which the one that is listed first comes second by its
file name. -/
def contested : FileTree where
  nodes := [(["in"], .directory), (["in", "a.json"], .file (Batch.bare "foo-bar").toUTF8),
    (["in", "a-b.json"], .file (Batch.bare "foo_bar").toUTF8)]

theorem listing_order_irrelevant_contested :
    let request : GenerateRequest := { input := "in", output := "out" }
    contested.entries request.input = .ok ["a.json", "a-b.json"] ∧
      ∃ after, Relisted contested after ∧
        after.entries request.input = .ok ["a-b.json", "a.json"] ∧
        loadCatalogs after request.input =
          .ok [⟨"a-b", Batch.bare "foo_bar"⟩, ⟨"a", Batch.bare "foo-bar"⟩] ∧
        (∃ report, reportOf after request = .ok report ∧ report.outcomes[1]?.map (·.result) =
          some (.error (.duplicateModule "foo_bar" "foo_bar" "foo-bar"))) ∧
        (generate after request).2 = (generate contested request).2 := by
  intro request
  have hentries : contested.entries request.input = .ok ["a.json", "a-b.json"] := by decide +kernel
  have hperm : (["a-b.json", "a.json"] : List Name).Perm ["a.json", "a-b.json"] := .swap _ _ _
  have hnames : CatalogsInOrder contested request.input ["a-b.json", "a.json"] := by
    have hfiles : ∀ name ∈ (["a.json", "a-b.json"] : List Name), hasExtension "json" name = true ∧
        contested.isFile (request.input.join name) = true := by
      decide +kernel
    exact ⟨by decide +kernel, _, hentries, fun name =>
      ⟨fun hmem => ⟨hperm.mem_iff.mp hmem, hfiles name (hperm.mem_iff.mp hmem)⟩,
        fun hfile => hperm.mem_iff.mpr hfile.1⟩⟩
  obtain ⟨horders, hloads, -, hsame⟩ := listing_order_irrelevant contested request
  have hloaded : loadCatalogs contested request.input =
      .ok [⟨"a-b", Batch.bare "foo_bar"⟩, ⟨"a", Batch.bare "foo-bar"⟩] :=
    (hloads _).mpr ⟨_, hnames, .cons (by decide +kernel) (.cons (by decide +kernel) .nil)⟩
  obtain ⟨after, hrelisted, hlisted⟩ := horders _ _ hentries hperm
  obtain ⟨hcatalogs, hreport, houtcome, -⟩ := hsame after hrelisted
  rw [hloaded] at hcatalogs
  refine ⟨hentries, after, hrelisted, hlisted, hcatalogs, ?_, houtcome⟩
  rw [hreport, reportOf, hloaded]
  exact ⟨_, rfl, by decide +kernel⟩

end PolicyForge.Command
