import PolicyForge.AccessLevel
import PolicyForge.Arn.Template
import PolicyForge.Condition.KeyTemplate
import PolicyForge.Condition.ValueType

namespace PolicyForge

namespace Service

/-- A resource type an action acts on. -/
structure ActionResource where
  name : String
  required : Bool
  deriving Repr, DecidableEq

/-- An action. -/
structure Action where
  name : String
  description : String
  url : String
  accessLevel : AccessLevel
  resourceTypes : List ActionResource
  /-- The condition keys of the action and of its resource types. -/
  conditions : List String
  dependentActions : List String
  deriving Repr, DecidableEq

/-- A resource type. -/
structure ResourceType where
  name : String
  url : String
  arn : Arn.Template
  conditionKeys : List String
  deriving Repr, DecidableEq

/-- A condition key, with the actions and resource types that name it. -/
structure ConditionKey where
  key : Condition.KeyTemplate
  description : String
  url : String
  valueType : Condition.ValueType
  relatedActions : List String := []
  relatedResourceTypes : List String := []
  deriving Repr, DecidableEq

end Service

/-- A service. -/
structure Service where
  name : String
  servicePrefix : String
  url : String
  actions : List Service.Action
  resourceTypes : List Service.ResourceType
  conditionKeys : List Service.ConditionKey
  deriving Repr, DecidableEq

namespace Service

/-- The resource type with the given name. -/
def resourceType? (service : Service) (name : String) : Option ResourceType :=
  service.resourceTypes.find? (·.name == name)

/-- The condition key that is published as the given text. -/
def conditionKey? (service : Service) (key : String) : Option ConditionKey :=
  service.conditionKeys.find? (·.key.raw == key)

/-- The action with the given name, in which the case of ASCII letters does not count. -/
def action? (service : Service) (name : String) : Option Action :=
  service.actions.find? (·.name.toLower == name.toLower)

/-- The access levels that occur, in order of first appearance, each with the names of its actions.
-/
def accessLevels (service : Service) : List (AccessLevel × List String) :=
  (service.actions.map (·.accessLevel)).eraseDups.map fun level =>
    (level, (service.actions.filter (·.accessLevel == level)).map (·.name))

/-- The full name of an action or condition key of the service. -/
def qualified (service : Service) (name : String) : String :=
  service.servicePrefix ++ ":" ++ name

end Service

end PolicyForge
