import PolicyForge.Command.Invocation
import PolicyForge.Command.Outcome
import PolicyForge.Workspace.Catalogs
import PolicyForge.Workspace.Modules

namespace PolicyForge.Command

open Workspace (checkModules loadCatalogs writeModules)

/-- The catalogs a request is about. -/
def GenerateRequest.select (request : GenerateRequest) (inputs : List Batch.Input) :
    List Batch.Input :=
  match request.service with
  | none => inputs
  | some service => inputs.filter (·.label == service)

/-- Whether the index belongs to what a request generates. -/
def GenerateRequest.withIndex (request : GenerateRequest) : Bool :=
  request.service.isNone

/-- The lines about a report, before any file is looked at. -/
def reportOutcome (report : Batch.Report) : Outcome :=
  { output := report.statusLines
    messages := report.collisions.map fun collision => "warning: " ++ collision.message }

/-- The code with which generating ends. -/
def reportCode (report : Batch.Report) : ExitCode :=
  if report.hasFailures then .failure else .success

/-- The line about a file that is not up to date. -/
def staleLine (file : Workspace.StaleFile) : String :=
  "stale " ++ file.path.text ++ " (" ++ file.staleness.word ++ ")"

/-- Compare a report with the files that are there. A catalog that failed counts for more than a
file that is not up to date. -/
def checkReport (tree : FileTree) (request : GenerateRequest) (report : Batch.Report) : Outcome :=
  let outcome := reportOutcome report
  match checkModules tree request.output report request.withIndex with
  | .error fault =>
    outcome.fail (causes ["failed to check " ++ request.output.text, fault.message,
      fault.cause.message])
  | .ok stale =>
    let code := match reportCode report with
      | .success => if stale.isEmpty then .success else .stale
      | code => code
    (outcome.printing (stale.map staleLine ++ [report.summary])).ending code

/-- Bring the files of a report up to date. -/
def writeReport (tree : FileTree) (request : GenerateRequest) (report : Batch.Report) :
    FileTree × Outcome :=
  let outcome := reportOutcome report
  match writeModules tree request.output report request.withIndex with
  | (tree, .error fault) =>
    (tree, outcome.fail (causes ["failed to write to " ++ request.output.text, fault.message,
      fault.cause.message]))
  | (tree, .ok written) =>
    let count := toString written.length ++ " file(s) written to " ++ request.output.text
    (tree, (outcome.printing [count, report.summary]).ending (reportCode report))

/-- Generate what a request asks for. -/
def generate (tree : FileTree) (request : GenerateRequest) : FileTree × Outcome :=
  match loadCatalogs tree request.input with
  | .error fault =>
    (tree, Outcome.failed (causes ["failed to load catalogs from " ++ request.input.text,
      fault.message, fault.cause.message]))
  | .ok inputs =>
    let selected := request.select inputs
    match request.service, selected with
    | some service, [] =>
      (tree, Outcome.failed ("no catalog named `" ++ service ++ ".json` in " ++ request.input.text))
    | _, _ =>
      let report := Batch.report selected
      if request.check then (tree, checkReport tree request report)
      else writeReport tree request report

end PolicyForge.Command
