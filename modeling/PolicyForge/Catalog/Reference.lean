import PolicyForge.Catalog.Record
import PolicyForge.Catalog.Violation
import PolicyForge.Json.Record

namespace PolicyForge.Catalog.Reference

/-- What is said of an action. -/
structure Properties where
  isList : Bool := false
  isPermissionManagement : Bool := false
  isTaggingOnly : Bool := false
  isWrite : Bool := false

/-- An action. -/
structure Action where
  name : String
  conditionKeys : List String
  properties : Properties
  resources : List String

/-- A resource type. -/
structure Resource where
  name : String
  arnFormats : List String
  conditionKeys : List String

/-- A condition key. -/
structure ConditionKey where
  name : String
  types : List String

/-- A catalog of this shape. -/
structure Document where
  name : Option String
  actions : List Action
  resources : List Resource
  conditionKeys : List ConditionKey

/-- The access level that properties amount to. The first that holds decides, and an action with
none of them reads. -/
def Properties.accessLevel (properties : Properties) : String :=
  if properties.isPermissionManagement then "Permissions management"
  else if properties.isTaggingOnly then "Tagging"
  else if properties.isWrite then "Write"
  else if properties.isList then "List"
  else "Read"

/-- Read the properties of an action. -/
def properties? (json : Json) : Option Properties := do
  let entry ← json.record? ["IsList", "IsPermissionManagement", "IsTaggingOnly", "IsWrite"]
  return {
    isList := ← (entry "IsList").orDefault Json.bool? false
    isPermissionManagement := ← (entry "IsPermissionManagement").orDefault Json.bool? false
    isTaggingOnly := ← (entry "IsTaggingOnly").orDefault Json.bool? false
    isWrite := ← (entry "IsWrite").orDefault Json.bool? false }

/-- Read the remarks on an action, of which only the properties count. -/
def annotated? (json : Json) : Option Properties := do
  let entry ← json.record? ["Properties"]
  (entry "Properties").orDefault properties? {}

/-- Read the name of a resource type an action acts on. -/
def actionResource? (json : Json) : Option String := do
  let entry ← json.record? ["Name"]
  (entry "Name").required Json.text?

/-- Read an action. -/
def action? (json : Json) : Option Action := do
  let entry ← json.record? ["Name", "ActionConditionKeys", "Annotations", "Resources"]
  return {
    name := ← (entry "Name").required Json.text?
    conditionKeys := ← (entry "ActionConditionKeys").orDefault (Json.list? Json.text?) []
    properties := (← (entry "Annotations").optional annotated?).getD {}
    resources := ← (entry "Resources").orDefault (Json.list? actionResource?) [] }

/-- Read a resource type. -/
def resource? (json : Json) : Option Resource := do
  let entry ← json.record? ["Name", "ARNFormats", "ConditionKeys"]
  return {
    name := ← (entry "Name").required Json.text?
    arnFormats := ← (entry "ARNFormats").orDefault (Json.list? Json.text?) []
    conditionKeys := ← (entry "ConditionKeys").orDefault (Json.list? Json.text?) [] }

/-- Read a condition key. -/
def conditionKey? (json : Json) : Option ConditionKey := do
  let entry ← json.record? ["Name", "Types"]
  return {
    name := ← (entry "Name").required Json.text?
    types := ← (entry "Types").orDefault (Json.list? Json.text?) [] }

/-- Read a catalog of this shape. -/
def document? (json : Json) : Option Document := do
  let entry ← json.record? ["Name", "Actions", "Resources", "ConditionKeys"]
  return {
    name := ← (entry "Name").optional Json.text?
    actions := ← (entry "Actions").orDefault (Json.list? action?) []
    resources := ← (entry "Resources").orDefault (Json.list? resource?) []
    conditionKeys := ← (entry "ConditionKeys").orDefault (Json.list? conditionKey?) [] }

/-- The entry of an action. No resource type of it is marked as required. -/
def Action.toEntry (action : Action) : ActionEntry :=
  { name := action.name
    accessLevel := action.properties.accessLevel
    resourceTypes := action.resources.map fun name => { name }
    conditions := action.conditionKeys }

/-- The entry of a resource type, with the first of its formats as template. -/
def Resource.toEntry (resource : Resource) : ResourceEntry :=
  { name := resource.name
    arn := resource.arnFormats.head?
    conditionKeys := resource.conditionKeys }

/-- The entry of a condition key, with the first of its types. -/
def ConditionKey.toEntry (key : ConditionKey) : KeyEntry :=
  { key := key.name, valueType := key.types.head? }

/-- The record of a catalog of this shape. Its name is the prefix as well, and without it the
catalog is known by `label` alone. -/
def Document.toRecord (label : String) (document : Document) : Except Error Record :=
  match document.name with
  | none => .error { service := label, location := "Name", violation := .missingField "Name" }
  | some name => .ok
    { name
      servicePrefix := name
      actions := document.actions.map Action.toEntry
      resourceTypes := document.resources.map Resource.toEntry
      conditionKeys := document.conditionKeys.map ConditionKey.toEntry }

end PolicyForge.Catalog.Reference
