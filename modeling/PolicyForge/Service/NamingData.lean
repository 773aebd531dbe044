import PolicyForge.Json.Basic
import PolicyForge.Service.Naming

namespace PolicyForge

/-- A method as data. -/
def Member.toJson (member : Member) : Json :=
  .object [("method", .string member.method), ("literal", .string member.literal)]

/-- The method of a resource type as data. -/
def ResourceMember.toJson (resource : ResourceMember) : Json :=
  .object
    [("member", resource.toMember.toJson),
      ("parameters", .array (resource.parameters.map fun (placeholder, ident) =>
        .ofTexts [placeholder, ident]))]

/-- The method of a condition key as data. -/
def ConditionMember.toJson (condition : ConditionMember) : Json :=
  .object
    [("member", condition.toMember.toJson),
      ("parameter", match condition.parameter with
        | some ident => .string ident
        | none => .null)]

/-- The role as data. -/
def Identifier.Role.name : Role → String
  | .action => "Action"
  | .resource => "Resource"
  | .condition => "Condition"

/-- A collision as data. -/
def Collision.toJson (collision : Collision) : Json :=
  .object
    [("service", .string collision.service),
      ("role", .string collision.role.name),
      ("source", .string collision.source),
      ("base", .string collision.base),
      ("resolved", .string collision.resolved)]

/-- A naming as data. -/
def Naming.toJson (naming : Naming) : Json :=
  .object
    [("module_name", .string naming.moduleName),
      ("type_name", .string naming.typeName),
      ("actions", .array (naming.actions.map Member.toJson)),
      ("resources", .array (naming.resources.map ResourceMember.toJson)),
      ("conditions", .array (naming.conditions.map ConditionMember.toJson)),
      ("warnings", .array (naming.collisions.map Collision.toJson))]

end PolicyForge
