import PolicyForge.Catalog.Record
import PolicyForge.Catalog.Violation
import PolicyForge.Json.Record

namespace PolicyForge.Catalog.Scraped

/-- A resource type of an action, keyed by its name. -/
structure Row where
  required : Bool
  conditions : List String

/-- An action, keyed by its name. -/
structure Action where
  url : String
  description : String
  accessLevel : Option String
  resourceTypes : List (String × Row)
  conditions : List String
  dependentActions : List String

/-- A resource type, which its key names unless it has a name itself. -/
structure Resource where
  name : Option String
  url : String
  arn : Option String
  conditionKeys : List String

/-- A condition key, which its key in the map gives unless it has one itself. -/
structure Condition where
  key : Option String
  description : String
  valueType : Option String
  url : String

/-- A catalog of this shape. -/
structure Document where
  name : Option String
  servicePrefix : Option String
  url : String
  actions : List (String × Action)
  resourceTypes : List (String × Resource)
  conditions : List (String × Condition)

/-- A list of strings. -/
def texts? : Json → Option (List String) :=
  Json.list? Json.text?

/-- Read a resource type of an action. -/
def row? (json : Json) : Option Row := do
  let entry ← json.record? ["required", "conditions"]
  return {
    required := ← (entry "required").orDefault Json.bool? false
    conditions := ← (entry "conditions").orDefault texts? [] }

/-- Read an action. -/
def action? (json : Json) : Option Action := do
  let entry ← json.record?
    ["url", "description", "accessLevel", "resourceTypes", "conditions", "dependentActions"]
  return {
    url := ← (entry "url").orDefault Json.text? ""
    description := ← (entry "description").orDefault Json.text? ""
    accessLevel := ← (entry "accessLevel").optional Json.text?
    resourceTypes := ← (entry "resourceTypes").orDefault (Json.map? row?) []
    conditions := ← (entry "conditions").orDefault texts? []
    dependentActions := ← (entry "dependentActions").orDefault texts? [] }

/-- Read a resource type. -/
def resource? (json : Json) : Option Resource := do
  let entry ← json.record? ["name", "url", "arn", "conditionKeys"]
  return {
    name := ← (entry "name").optional Json.text?
    url := ← (entry "url").orDefault Json.text? ""
    arn := ← (entry "arn").optional Json.text?
    conditionKeys := ← (entry "conditionKeys").orDefault texts? [] }

/-- Read a condition key. -/
def condition? (json : Json) : Option Condition := do
  let entry ← json.record? ["key", "description", "type", "url"]
  return {
    key := ← (entry "key").optional Json.text?
    description := ← (entry "description").orDefault Json.text? ""
    valueType := ← (entry "type").optional Json.text?
    url := ← (entry "url").orDefault Json.text? "" }

/-- Read a catalog of this shape. -/
def document? (json : Json) : Option Document := do
  let entry ← json.record?
    ["name", "servicePrefix", "url", "actionList", "resourceTypes", "conditions"]
  return {
    name := ← (entry "name").optional Json.text?
    servicePrefix := ← (entry "servicePrefix").optional Json.text?
    url := ← (entry "url").orDefault Json.text? ""
    actions := ← (entry "actionList").orDefault (Json.map? action?) []
    resourceTypes := ← (entry "resourceTypes").orDefault (Json.map? resource?) []
    conditions := ← (entry "conditions").orDefault (Json.map? condition?) [] }

/-- The entry of an action, which must have an access level. -/
def Action.toEntry (servicePrefix name : String) (action : Action) : Except Error ActionEntry :=
  match action.accessLevel with
  | none => .error
    { service := servicePrefix
      location := "actionList." ++ name ++ ".accessLevel"
      violation := .missingField "accessLevel" }
  | some accessLevel => .ok
    { name
      description := action.description
      url := action.url
      accessLevel
      resourceTypes := action.resourceTypes.map fun (name, row) =>
        { name, required := row.required, conditions := row.conditions }
      conditions := action.conditions
      dependentActions := action.dependentActions }

/-- The entry of a resource type. -/
def Resource.toEntry (key : String) (resource : Resource) : ResourceEntry :=
  { name := resource.name.getD key
    url := resource.url
    arn := resource.arn
    conditionKeys := resource.conditionKeys }

/-- The entry of a condition key. -/
def Condition.toEntry (key : String) (condition : Condition) : KeyEntry :=
  { key := condition.key.getD key
    description := condition.description
    url := condition.url
    valueType := condition.valueType }

/-- The record of a catalog of this shape. Without a prefix the catalog is known by `label` alone.
-/
def Document.toRecord (label : String) (document : Document) : Except Error Record :=
  match document.servicePrefix with
  | none => .error
    { service := label
      location := "servicePrefix"
      violation := .missingField "servicePrefix" }
  | some servicePrefix => do
    let actions ← document.actions.mapM fun (name, action) => action.toEntry servicePrefix name
    return {
      name := document.name.getD servicePrefix
      servicePrefix
      url := document.url
      actions
      resourceTypes := document.resourceTypes.map fun (key, resource) => resource.toEntry key
      conditionKeys := document.conditions.map fun (key, condition) => condition.toEntry key }

end PolicyForge.Catalog.Scraped
