import PolicyForge.FileTree.Basic

namespace PolicyForge.Workspace

/-- What was being done. -/
inductive Operation where
  | read
  | create
  | write
  deriving Repr, DecidableEq

/-- The word for what was being done. -/
def Operation.verb : Operation → String
  | .read => "read"
  | .create => "create"
  | .write => "write"

/-- A failure. -/
structure Fault where
  operation : Operation
  path : FileTree.Path
  cause : FileTree.Fault
  deriving Repr, DecidableEq

/-- The message about a failure. -/
def Fault.message (fault : Fault) : String :=
  "failed to " ++ fault.operation.verb ++ " " ++ fault.path.text ++ ": " ++ fault.cause.message

/-- A result with the failure of an operation on a path. -/
def during {α : Type} (operation : Operation) (path : FileTree.Path)
    (result : Except FileTree.Fault α) : Except Fault α :=
  result.mapError fun cause => { operation, path, cause }

end PolicyForge.Workspace
