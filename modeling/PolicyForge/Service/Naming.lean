import PolicyForge.Condition.Global
import PolicyForge.Identifier.Derived
import PolicyForge.Service.Basic

namespace PolicyForge

open Identifier (Role Scope)

/-- A generated method and the text it passes on: a full action name, a resource name template, or a
condition key up to its parameter. -/
structure Member where
  method : String
  literal : String
  deriving Repr, DecidableEq

/-- The method of a resource type. -/
structure ResourceMember extends Member where
  /-- The placeholders of this resource alone, each with the name of its argument. -/
  parameters : List (String × String)
  /-- The standard placeholders that occur, in the order of the arguments. -/
  standard : List Arn.Standard
  deriving Repr, DecidableEq

/-- The method of a condition key, with the name of the argument for the key's parameter. -/
structure ConditionMember extends Member where
  parameter : Option String
  deriving Repr, DecidableEq

/-- A member that could not have the method it asked for. -/
structure Collision where
  service : String
  role : Role
  source : String
  base : String
  resolved : String
  deriving Repr, DecidableEq

/-- The message about a collision. -/
def Collision.message (collision : Collision) : String :=
  collision.service ++ ": " ++ collision.role.noun ++ " `" ++ collision.source ++
    "` collides on `" ++ collision.base ++ "`, renamed to `" ++ collision.resolved ++ "`"

/-- The identifiers of a service, in the order of its members. -/
structure Naming where
  moduleName : String
  typeName : String
  actions : List Member
  resources : List ResourceMember
  conditions : List ConditionMember
  collisions : List Collision
  deriving Repr, DecidableEq

namespace Naming

/-- The methods that every generated type has, so that no member may have them. -/
def reservedMethods : List String :=
  ["new", "with_sid", "to", "on", "if", "add", "allow", "deny", "not_action", "not_resource",
    "with_arn_defaults", "all_actions", "all_actions_with_access_level", "action_info",
    "resource_type_info", "statement", "statement_mut", "into_statement", "to_value", "to_json",
    "to_json_pretty", "to_owned", "to_string", "clone", "default", "serialize"]

/-- The names that have another meaning inside a generated method, so that no argument derived from
a placeholder may have them. -/
def reservedArguments : List String :=
  ["self", "value", "operator", "account", "region", "partition", "defaults", "arn"]

/-- The scope of methods before any member has one. The methods of shared keys are taken too. -/
def methodScope : Scope :=
  (Condition.GlobalKey.all.map (·.method)).foldl Scope.reserve (Scope.ofList reservedMethods)

/-- A member that asks for a method. -/
structure Request where
  role : Role
  source : String
  base : String
  deriving Repr, DecidableEq

/-- What is still free: the scope of methods, and the methods of shared keys that no catalog key has
taken over. -/
structure Allocator where
  scope : Scope
  shared : List String
  deriving Repr, DecidableEq

/-- Everything is free but the reserved methods. -/
def Allocator.start : Allocator :=
  ⟨methodScope, Condition.GlobalKey.all.map (·.method)⟩

/-- Whether a condition key is a shared key and asks for its method. -/
def Request.isShared (request : Request) : Bool :=
  request.role == .condition &&
    Condition.GlobalKey.all.any fun key =>
      key.published == request.source && key.method == request.base

/-- The method a request is answered with, and whether it had to differ from the one asked for. A
key that is a shared key takes over the method of that key, once, although it is reserved. -/
def Allocator.take (free : Allocator) (request : Request) : Scope.Claim × Allocator :=
  if request.isShared && free.shared.contains request.base then
    (⟨request.base, false⟩, { free with shared := free.shared.erase request.base })
  else
    let (claim, scope) := free.scope.allocate request.base
    (claim, { free with scope })

/-- What requests are answered with, one after the other. -/
def Allocator.takeAll (free : Allocator) : List Request → List Scope.Claim
  | [] => []
  | request :: requests =>
    let (claim, free) := free.take request
    claim :: free.takeAll requests

/-- Argument names for placeholders, taken one after the other. -/
def argumentNames (scope : Scope) : List String → List String
  | [] => []
  | placeholder :: placeholders =>
    let (ident, scope) := scope.parameter placeholder
    ident :: argumentNames scope placeholders

/-- The placeholders of a template that are its own, each with the name of its argument. -/
def parameters (arn : Arn.Template) : List (String × String) :=
  arn.customPlaceholders.zip
    (argumentNames (Scope.ofList reservedArguments) arn.customPlaceholders)

/-- What an action asks for. -/
def actionRequest (action : Service.Action) : Request :=
  ⟨.action, action.name, Identifier.methodBase .action action.name⟩

/-- What a resource type asks for. -/
def resourceRequest (resource : Service.ResourceType) : Request :=
  ⟨.resource, resource.name, Identifier.methodBase .resource resource.name⟩

/-- What a condition key of the service with the given prefix asks for. -/
def conditionRequest (servicePrefix : String) (condition : Service.ConditionKey) : Request :=
  let key := condition.key
  ⟨.condition, key.raw,
    Identifier.conditionBase servicePrefix key.servicePrefix key.name key.isOpenSuffix⟩

/-- What the members of a service ask for, in the order in which they are answered. -/
def requests (service : Service) : List Request :=
  service.actions.map actionRequest ++ service.resourceTypes.map resourceRequest ++
    service.conditionKeys.map (conditionRequest service.servicePrefix)

/-- What the members of a service are answered with, in the same order. -/
def claims (service : Service) : List Scope.Claim :=
  Allocator.start.takeAll (requests service)

/-- The methods of the members of a service, in the same order. -/
def methods (service : Service) : List String :=
  (claims service).map (·.ident)

/-- The collision of a member, when the answer to its request is flagged as one. -/
def collision? (servicePrefix : String) (request : Request) (claim : Scope.Claim) :
    Option Collision :=
  if claim.collided then
    some ⟨servicePrefix, request.role, request.source, request.base, claim.ident⟩
  else none

/-- The naming of a service. -/
def ofService (service : Service) : Naming :=
  let methods := methods service
  let resourceMethods := methods.drop service.actions.length
  let conditionMethods := resourceMethods.drop service.resourceTypes.length
  { moduleName := Identifier.moduleName service.servicePrefix
    typeName := Identifier.typeName service.name
    actions := service.actions.zipWith
      (fun action method => ⟨method, service.qualified action.name⟩) methods
    resources := service.resourceTypes.zipWith
      (fun resource method =>
        { method, literal := resource.arn.raw
          parameters := parameters resource.arn
          standard := resource.arn.standardPlaceholders }) resourceMethods
    conditions := service.conditionKeys.zipWith
      (fun condition method =>
        { method, literal := condition.key.literalPrefix
          parameter := condition.key.parameter?.map fun placeholder =>
            ((Scope.ofList reservedArguments).parameter placeholder).1 }) conditionMethods
    collisions := ((requests service).zip (claims service)).filterMap fun (request, claim) =>
      collision? service.servicePrefix request claim }

/-- The method of the condition key that is published as the given text. -/
def conditionMethod? (naming : Naming) (service : Service) (key : String) : Option String := do
  let index ← service.conditionKeys.findIdx? (·.key.raw == key)
  return (← naming.conditions[index]?).method

end Naming

end PolicyForge
