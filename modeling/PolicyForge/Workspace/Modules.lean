import PolicyForge.Batch.Index
import PolicyForge.Workspace.Fault

namespace PolicyForge.Workspace

open FileTree (Path)

/-- The name of the index beside the generated modules. -/
def indexFile : String := "mod.rs"

/-- The files that belong to a report, by name, with their texts. -/
def plannedFiles (report : Batch.Report) (withIndex : Bool) : List (String × String) :=
  report.generated.map (fun generated => (generated.fileName, generated.source)) ++
    if withIndex then [(indexFile, report.index .beside)] else []

/-- Whether a file has the given text already. -/
def isCurrent (tree : FileTree) (path : Path) (text : String) : Bool :=
  (tree.readText path).toOption == some text

/-- Write the files that do not have their texts yet. The paths written are returned. -/
def writeFiles (tree : FileTree) (directory : Path) :
    List (String × String) → FileTree × Except Fault (List Path)
  | [] => (tree, .ok [])
  | (name, text) :: files =>
    let path := directory.join name
    if isCurrent tree path text then writeFiles tree directory files
    else match during .write path (tree.writeText path text) with
      | .error fault => (tree, .error fault)
      | .ok tree =>
        let (tree, written) := writeFiles tree directory files
        (tree, written.map (path :: ·))

/-- Bring the files of a report up to date, in a directory that is created when it is missing. -/
def writeModules (tree : FileTree) (directory : Path) (report : Batch.Report) (withIndex : Bool) :
    FileTree × Except Fault (List Path) :=
  match tree.createDirectories directory with
  | (tree, .error cause) => (tree, .error { operation := .create, path := directory, cause })
  | (tree, .ok ()) => writeFiles tree directory (plannedFiles report withIndex)

/-- Why a file is not up to date. -/
inductive Staleness where
  | missing
  | outdated
  deriving Repr, DecidableEq

/-- The word for why a file is not up to date. -/
def Staleness.word : Staleness → String
  | .missing => "missing"
  | .outdated => "outdated"

/-- A file that is not up to date. -/
structure StaleFile where
  path : Path
  staleness : Staleness
  deriving Repr, DecidableEq

/-- Whether a file that should have the given text is out of date. A file that is there but cannot
be read as text is a failure. -/
def checkFile (tree : FileTree) (path : Path) (text : String) :
    Except Fault (Option StaleFile) :=
  match tree.readText path with
  | .ok existing => .ok (if existing == text then none else some ⟨path, .outdated⟩)
  | .error .missing => .ok (some ⟨path, .missing⟩)
  | .error cause => .error { operation := .read, path, cause }

/-- The files of a report that are not up to date in a directory. -/
def checkModules (tree : FileTree) (directory : Path) (report : Batch.Report) (withIndex : Bool) :
    Except Fault (List StaleFile) := do
  let checked ← (plannedFiles report withIndex).mapM fun (name, text) =>
    checkFile tree (directory.join name) text
  return checked.filterMap id

end PolicyForge.Workspace
