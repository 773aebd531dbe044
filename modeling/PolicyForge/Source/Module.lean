import PolicyForge.Source.Methods
import PolicyForge.Source.Tables

namespace PolicyForge.Source

/-- The first line of every generated file. -/
def marker : String :=
  "// Code generated by iam-policy-builder. DO NOT EDIT."

/-- The lines that open a module. -/
def header (service : Service) : List String :=
  [marker,
    "// Source: service catalog `" ++ service.servicePrefix ++ "`.",
    "",
    "use iam_policy_builder_runtime::\x7bself as runtime, ServiceStatement as _\x7d;",
    ""]

/-- The documentation of the type. -/
def typeSections (service : Service) : List String :=
  ["Statement provider for service " ++ codeSpan service.servicePrefix ++ " (" ++ service.name ++
      ")."] ++
    linkSection service.url ++
    ["Generic builder methods come from [`ServiceStatement`](runtime::ServiceStatement)."]

/-- The type, which holds a statement. -/
def typeDefinition (service : Service) (typeName : String) : List String :=
  docSections (typeSections service) ++
    ["#[derive(Clone, Debug, Default, PartialEq, Eq)]"] ++
    block ("pub struct " ++ typeName) ["statement: runtime::PolicyStatement,"]

/-- The methods that start a statement. -/
def constructors : List String :=
  ["/// Create an empty statement."] ++
    block "pub fn new() -> Self" ["Self::default()"] ++
    ["", "/// Create an empty statement with a statement ID."] ++
    block "pub fn with_sid(sid: impl Into<String>) -> Self"
      (block "Self" ["statement: runtime::PolicyStatement::with_sid(sid),"])

/-- The methods of the type, with an empty line in front of each but the first. -/
def methods (service : Service) (naming : Naming) : Except Failure (List String) := do
  let actions ← (service.actions.zip naming.actions).mapM fun (action, member) =>
    actionMethod service naming action member
  let resources ← (service.resourceTypes.zip naming.resources).mapM fun (resource, member) =>
    resourceMethod service naming resource member
  let conditions := (service.conditionKeys.zip naming.conditions).map fun (condition, member) =>
    conditionMethod service naming condition member
  return block ("impl " ++ naming.typeName)
    (constructors ++ (actions ++ resources ++ conditions).flatMap ("" :: ·))

/-- The conversions of the type: to data, and to its statement. -/
def conversions (typeName : String) : List String :=
  block ("impl runtime::serde::Serialize for " ++ typeName)
    (block ("fn serialize<S: runtime::serde::Serializer>(&self, serializer: S) " ++
        "-> Result<S::Ok, S::Error>")
      ["runtime::serde::Serialize::serialize(&self.statement, serializer)"]) ++
    [""] ++
    block ("impl From<" ++ typeName ++ "> for runtime::PolicyStatement")
      (block ("fn from(value: " ++ typeName ++ ") -> Self") ["value.statement"])

/-- A naming must have as many members of each kind as the service. -/
def checkLength (what : String) (expected found : Nat) : Except Failure Unit :=
  if expected == found then .ok () else .error (.planMismatch what expected found)

/-- The text of the module of a service under the given naming. -/
def render (service : Service) (naming : Naming) : Except Failure String := do
  checkLength "action" service.actions.length naming.actions.length
  checkLength "resource type" service.resourceTypes.length naming.resources.length
  checkLength "condition key" service.conditionKeys.length naming.conditions.length
  let methods ← methods service naming
  return unlines (header service ++ typeDefinition service naming.typeName ++ [""] ++ methods ++
    [""] ++ tables service naming.typeName ++ [""] ++ conversions naming.typeName)

end PolicyForge.Source
