import PolicyForge.Service.Validation
import PolicyForge.Source.Module

namespace PolicyForge.Batch

/-- The text of a catalog, and the name it goes by until its service is known. -/
structure Input where
  label : String
  text : String
  deriving Repr, DecidableEq

/-- The module generated for a service. -/
structure Generated where
  servicePrefix : String
  moduleName : String
  typeName : String
  source : String
  collisions : List Collision
  deriving Repr, DecidableEq

/-- The name of the module's file. -/
def Generated.fileName (generated : Generated) : String :=
  generated.moduleName ++ ".rs"

/-- Why a catalog has no module. -/
inductive Error where
  | catalog (error : Catalog.Error)
  | rendering (service : String) (failure : Source.Failure)
  /-- A catalog before this one has a module of the same name. -/
  | duplicateModule (moduleName first second : String)
  deriving Repr, DecidableEq

/-- The message about a catalog that has no module. -/
def Error.message : Error → String
  | .catalog error => error.message
  | .rendering service failure => service ++ ": rendering failed: " ++ failure.message
  | .duplicateModule moduleName first second =>
    "services `" ++ first ++ "` and `" ++ second ++ "` both map to module `" ++ moduleName ++ "`"

/-- The module of a service under its own naming. -/
def generateService (service : Service) : Except Error Generated :=
  let naming := Naming.ofService service
  match Source.render service naming with
  | .error failure => .error (.rendering service.servicePrefix failure)
  | .ok source => .ok
    { servicePrefix := service.servicePrefix
      moduleName := naming.moduleName
      typeName := naming.typeName
      source
      collisions := naming.collisions }

/-- The module of a catalog. -/
def generate (input : Input) : Except Error Generated :=
  match Service.ofText input.label input.text with
  | .error error => .error (.catalog error)
  | .ok service => generateService service

end PolicyForge.Batch
