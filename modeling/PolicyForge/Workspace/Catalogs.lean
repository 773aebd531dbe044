import PolicyForge.Batch.Generation
import PolicyForge.Workspace.Fault

namespace PolicyForge.Workspace

open FileTree (Name Path)

/-- The names of the catalogs among the entries of a directory: its files with the extension `json`,
in order. -/
def catalogNames (tree : FileTree) (directory : Path) (entries : List Name) : List Name :=
  (entries.filter fun name =>
    FileTree.hasExtension "json" name && tree.isFile (directory.join name)).mergeSort
      fun name other => !decide (other < name)

/-- The label of a catalog: the stem of its name as it is shown, so that names that are no texts may
have one label. -/
def catalogLabel (name : Name) : String :=
  (FileTree.stem name).text

/-- The catalog in a file. -/
def loadCatalog (tree : FileTree) (directory : Path) (name : Name) :
    Except Fault Batch.Input := do
  let path := directory.join name
  return { label := catalogLabel name, text := ← during .read path (tree.readText path) }

/-- The catalogs of a directory, or the first failure. -/
def loadCatalogs (tree : FileTree) (directory : Path) : Except Fault (List Batch.Input) := do
  let entries ← during .read directory (tree.entries directory)
  (catalogNames tree directory entries).mapM (loadCatalog tree directory)

end PolicyForge.Workspace
