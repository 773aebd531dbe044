import PolicyForge.Json.Basic
import PolicyForge.Service.Basic

namespace PolicyForge.Service

/-- A resource type of an action as data. -/
def ActionResource.toJson (resource : ActionResource) : Json :=
  .object [("name", .string resource.name), ("required", .bool resource.required)]

/-- An action as data. -/
def Action.toJson (action : Action) : Json :=
  .object
    [("name", .string action.name),
      ("description", .string action.description),
      ("url", .string action.url),
      ("access_level", .string action.accessLevel.label),
      ("resource_types", .array (action.resourceTypes.map ActionResource.toJson)),
      ("conditions", .ofTexts action.conditions),
      ("dependent_actions", .ofTexts action.dependentActions)]

/-- A resource type as data. -/
def ResourceType.toJson (resource : ResourceType) : Json :=
  .object
    [("name", .string resource.name),
      ("url", .string resource.url),
      ("arn", .string resource.arn.raw),
      ("condition_keys", .ofTexts resource.conditionKeys)]

/-- A condition key as data. -/
def ConditionKey.toJson (key : ConditionKey) : Json :=
  .object
    [("key", .string key.key.raw),
      ("description", .string key.description),
      ("url", .string key.url),
      ("value_type", .string key.valueType.name),
      ("related_actions", .ofTexts key.relatedActions),
      ("related_resource_types", .ofTexts key.relatedResourceTypes)]

/-- A service as data. -/
def toJson (service : Service) : Json :=
  .object
    [("name", .string service.name),
      ("prefix", .string service.servicePrefix),
      ("url", .string service.url),
      ("actions", .array (service.actions.map Action.toJson)),
      ("resource_types", .array (service.resourceTypes.map ResourceType.toJson)),
      ("condition_keys", .array (service.conditionKeys.map ConditionKey.toJson))]

end PolicyForge.Service
