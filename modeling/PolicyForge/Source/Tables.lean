import PolicyForge.Service.Basic
import PolicyForge.Source.Layout
import PolicyForge.Source.Literal

namespace PolicyForge.Source

/-- The name of an access level in source. -/
def levelName : AccessLevel → String
  | .list => "List"
  | .read => "Read"
  | .write => "Write"
  | .permissionsManagement => "PermissionsManagement"
  | .tagging => "Tagging"

/-- An access level in source. -/
def levelPath (level : AccessLevel) : String :=
  "runtime::AccessLevel::" ++ levelName level

/-- A resource type of an action in source. -/
def resourceReference (resource : Service.ActionResource) : String :=
  "runtime::ResourceTypeRef \x7b name: " ++ Literal.write resource.name ++ ", required: " ++
    (if resource.required then "true" else "false") ++ " \x7d,"

/-- The resource types of an action in source. -/
def resourceReferences (resources : List Service.ActionResource) : List String :=
  if resources.isEmpty then ["resource_types: &[],"]
  else enclose "resource_types: &[" (resources.map resourceReference) "],"

/-- The entry of an action. -/
def actionEntry (action : Service.Action) : List String :=
  enclose "runtime::ActionInfo \x7b"
    (["name: " ++ Literal.write action.name ++ ",",
        "description: " ++ Literal.write action.description ++ ",",
        "url: " ++ Literal.write action.url ++ ",",
        "access_level: " ++ levelPath action.accessLevel ++ ","] ++
      resourceReferences action.resourceTypes ++
      ["conditions: " ++ Literal.slice action.conditions ++ ",",
        "dependent_actions: " ++ Literal.slice action.dependentActions ++ ","])
    "\x7d,"

/-- The entry of a resource type. -/
def resourceEntry (resource : Service.ResourceType) : List String :=
  enclose "runtime::ResourceTypeInfo \x7b"
    ["name: " ++ Literal.write resource.name ++ ",",
      "url: " ++ Literal.write resource.url ++ ",",
      "arn: " ++ Literal.write resource.arn.raw ++ ",",
      "condition_keys: " ++ Literal.slice resource.conditionKeys ++ ","]
    "\x7d,"

/-- The entry of an access level. -/
def levelEntry (level : AccessLevel) (names : List String) : String :=
  "(" ++ levelPath level ++ ", " ++ Literal.slice names ++ "),"

/-- The tables of a service, with the functions that give access to the statement. -/
def tables (service : Service) (typeName : String) : List String :=
  block ("impl runtime::ServiceStatement for " ++ typeName)
    (["const SERVICE_PREFIX: &'static str = " ++ Literal.write service.servicePrefix ++ ";", ""] ++
      enclose "const ACTION_LIST: &'static [runtime::ActionInfo] = &["
        (service.actions.flatMap actionEntry) "];" ++
      [""] ++
      enclose "const RESOURCE_TYPES: &'static [runtime::ResourceTypeInfo] = &["
        (service.resourceTypes.flatMap resourceEntry) "];" ++
      [""] ++
      enclose ("const ACCESS_LEVEL_LIST: " ++
          "&'static [(runtime::AccessLevel, &'static [&'static str])] = &[")
        (service.accessLevels.map fun (level, names) => levelEntry level names) "];" ++
      [""] ++
      block "fn statement(&self) -> &runtime::PolicyStatement" ["&self.statement"] ++
      [""] ++
      block "fn statement_mut(&mut self) -> &mut runtime::PolicyStatement"
        ["&mut self.statement"] ++
      [""] ++
      block "fn into_statement(self) -> runtime::PolicyStatement" ["self.statement"])

end PolicyForge.Source
