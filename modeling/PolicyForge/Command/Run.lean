import PolicyForge.Command.Generate
import PolicyForge.Command.Invocation
import PolicyForge.Command.Outcome
import PolicyForge.FileTree.Basic
import PolicyForge.Json.Writer
import PolicyForge.Service.Data
import PolicyForge.Service.NamingData
import PolicyForge.Service.Validation

namespace PolicyForge.Command

/-- A service as `inspect` shows it, with the identifiers of its members when they are wanted. -/
def shown (service : Service) (plan : Bool) : Json :=
  if plan then
    .object [("service", service.toJson), ("plan", (Naming.ofService service).toJson)]
  else service.toJson

/-- Show what a request asks for. -/
def inspect (tree : FileTree) (request : InspectRequest) : Outcome :=
  match tree.readText request.file with
  | .error fault =>
    .failed (causes ["failed to read " ++ request.file.text, fault.message])
  | .ok text =>
    let label := (request.file.stem?.map (·.text)).getD ""
    match Service.ofText label text with
    | .error error => .failed error.message
    | .ok service => { output := [(shown service request.plan).sorted.pretty] }

/-- Do what an invocation asks for. -/
def Invocation.run (tree : FileTree) : Invocation → FileTree × Outcome
  | .generate request => Command.generate tree request
  | .inspect request => (tree, Command.inspect tree request)

end PolicyForge.Command
