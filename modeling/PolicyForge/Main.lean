import PolicyForge.Command.Run

namespace PolicyForge.Main

open Command (Invocation Outcome)
open FileTree (Name Path)

/-- The names that lead from the top to the place a path is about. -/
def place (current : List Name) (path : Path) : List Name :=
  ((if path.isAbsolute then [] else current) ++ path.names).foldl FileTree.move []

/-- The text of a location. -/
def locationText (location : List Name) : String :=
  "/" ++ String.intercalate "/" (location.map (·.text))

/-- The tree with a node at a location, if the node can be put there. -/
def copied (tree : FileTree) (location : List Name) (node : FileTree.Node) : FileTree :=
  if hfits : tree.Fits location then tree.put location node hfits else tree

/-- Copy what is at a location, unless nothing is. -/
def copyNode (tree : FileTree) (location : List Name) : IO FileTree := do
  try
    let path ← IO.FS.realPath (locationText location)
    if ← path.isDir then return copied tree location .directory
    else return copied tree location (.file (← IO.FS.readBinFile path))
  catch _ => return tree

/-- Copy everything on the way to a location, and the entries of the directory there. -/
def copyPlace (tree : FileTree) (location : List Name) : IO FileTree := do
  let mut tree := tree
  for depth in [1 : location.length + 1] do
    tree ← copyNode tree (location.take depth)
  try
    for entry in ← (← IO.FS.realPath (locationText location)).readDir do
      tree ← copyNode tree (location ++ [Name.ofText entry.fileName])
  catch _ => pure ()
  return tree

/-- The paths an invocation is about. -/
def pathsOf : Invocation → List Path
  | .generate request => [request.input, request.output]
  | .inspect request => [request.file]

/-- Put a node in its place. -/
def putBack (location : List Name) : FileTree.Node → IO Unit
  | .directory => IO.FS.createDirAll (locationText location)
  | .file contents => IO.FS.writeBinFile (locationText location) contents

/-- Put back the nodes of a tree that an earlier one does not have. -/
def putBackChanges (before after : FileTree) : IO Unit := do
  for (location, node) in after.nodes do
    unless before.node? location == some node do
      putBack location node

/-- Print the lines of an outcome. -/
def report (outcome : Outcome) : IO Unit := do
  (← IO.getStdout).putStr (Outcome.text outcome.output)
  (← IO.getStderr).putStr (Outcome.text outcome.messages)

/-- The lines for arguments that make no sense. -/
def usage : String :=
  "usage: iam-policy-builder [-v] generate -i DIR -o DIR [--service PREFIX] [--check]\n" ++
    "       iam-policy-builder [-v] inspect FILE [--plan]\n"

end PolicyForge.Main

open PolicyForge in
/-- Run the program with the given arguments. -/
def main (arguments : List String) : IO UInt32 := do
  let service ← IO.getEnv "IAM_POLICY_BUILDER_SERVICE"
  match Command.Invocation.ofArguments? service arguments with
  | none =>
    (← IO.getStderr).putStr Main.usage
    return 2
  | some invocation =>
    let current := (FileTree.Path.ofText (← IO.currentDir).toString).names
    let mut before := FileTree.top current
    for path in Main.pathsOf invocation do
      before ← Main.copyPlace before (Main.place current path)
    let (after, outcome) := invocation.run before
    Main.putBackChanges before after
    Main.report outcome
    return outcome.code.number.toUInt32
