import PolicyForge.Service.Naming
import PolicyForge.Source.FormatString
import PolicyForge.Source.Layout
import PolicyForge.Source.Literal

namespace PolicyForge.Source

/-- A part of a service that its naming does not cover. -/
inductive Failure where
  | planMismatch (what : String) (expected found : Nat)
  | missingParameter (resource placeholder : String)
  | unknownCondition (member key : String)
  deriving Repr, DecidableEq

/-- The message about the missing part. -/
def Failure.message : Failure → String
  | .planMismatch what expected found =>
    "identifier plan has " ++ toString found ++ " " ++ what ++ " entries, metadata has " ++
      toString expected
  | .missingParameter resource placeholder =>
    "resource `" ++ resource ++ "` has no parameter for placeholder `" ++ placeholder ++ "`"
  | .unknownCondition member key =>
    "`" ++ member ++ "` references condition `" ++ key ++ "` with no planned accessor"

/-- A link to a method of the type. -/
def methodLink (method : String) : String :=
  "[`" ++ method ++ "`](Self::" ++ method ++ ")"

/-- Links to the methods of condition keys, which all have to be named. -/
def conditionLinks (service : Service) (naming : Naming) (member : String) (keys : List String) :
    Except Failure (List String) :=
  keys.mapM fun key =>
    match naming.conditionMethod? service key with
    | some method => .ok (methodLink method)
    | none => .error (.unknownCondition member key)

/-- The longest line a signature may take. -/
def signatureWidth : Nat := 100

/-- The opening lines of a method, on one line if it is not too long (counted in bytes and with the
indentation), else with an argument to a line. -/
def signature (method : String) (arguments : List String) : List String :=
  let line := "pub fn " ++ method ++ "(" ++ String.intercalate ", " arguments ++ ") -> Self \x7b"
  if (indentation ++ line).utf8ByteSize ≤ signatureWidth then [line]
  else enclose ("pub fn " ++ method ++ "(") (arguments.map (· ++ ",")) ") -> Self \x7b"

/-- A method with its documentation. -/
def method (sections : List String) (name : String) (arguments body : List String) :
    List String :=
  docSections sections ++ signature name arguments ++ indent body ++ ["\x7d"]

/-- The documentation of an action's method. -/
def actionSections (service : Service) (naming : Naming) (action : Service.Action) :
    Except Failure (List String) := do
  let links ← conditionLinks service naming action.name action.conditions
  return [action.description, "Access level: " ++ action.accessLevel.label] ++
    itemSection "Resource types:" (action.resourceTypes.map fun resource =>
      codeSpan resource.name ++ if resource.required then " (required)" else "") ++
    itemSection "Possible conditions:" links ++
    itemSection "Dependent actions:" (action.dependentActions.map codeSpan) ++
    linkSection action.url

/-- The method of an action. -/
def actionMethod (service : Service) (naming : Naming) (action : Service.Action)
    (member : Member) : Except Failure (List String) := do
  let sections ← actionSections service naming action
  return docSections sections ++
    block ("pub fn " ++ member.method ++ "(self) -> Self")
      ["self.to(" ++ Literal.write member.literal ++ ")"]

/-- The part of a format string that stands for a segment of a template. A standard placeholder is
the optional argument of that name, another one the argument planned for it. -/
def formatPart (resource : Service.ResourceType) (member : ResourceMember) :
    Arn.Segment → Except Failure FormatPart
  | .literal text => .ok (.text text)
  | .placeholder name => match Arn.Standard.ofName? name with
    | some standard => .ok (.argument standard.argument)
    | none => match member.parameters.lookup name with
      | some ident => .ok (.argument ident)
      | none => .error (.missingParameter resource.name name)

/-- The format string of a resource type's template. -/
def arnFormat (resource : Service.ResourceType) (member : ResourceMember) :
    Except Failure String := do
  return FormatString.write (← resource.arn.segments.mapM (formatPart resource member))

/-- The documentation of a resource type's method. -/
def resourceSections (service : Service) (naming : Naming) (resource : Service.ResourceType)
    (member : ResourceMember) : Except Failure (List String) := do
  let links ← conditionLinks service naming resource.name resource.conditionKeys
  let standard := member.standard.map fun standard => codeSpan standard.argument
  return ["Adds a resource of type " ++ codeSpan resource.name ++ ".",
      "ARN template: " ++ codeSpan resource.arn.raw] ++
    itemSection "Possible conditions:" links ++
    (if standard.isEmpty then []
      else ["Omitted " ++ String.intercalate ", " standard ++
        " fall back to the statement's ARN defaults."]) ++
    linkSection resource.url

/-- The arguments of a resource type's method. -/
def resourceArguments (member : ResourceMember) : List String :=
  "self" :: member.parameters.map (fun (_, ident) => ident ++ ": &str") ++
    member.standard.map fun standard => standard.argument ++ ": Option<&str>"

/-- What a resource type's method does: add the template with its placeholders filled. -/
def resourceBody (resource : Service.ResourceType) (member : ResourceMember) :
    Except Failure (List String) :=
  if !resource.arn.hasPlaceholders then
    .ok ["self.on(" ++ Literal.write resource.arn.raw ++ ")"]
  else do
    let format := Literal.write (← arnFormat resource member)
    if member.standard.isEmpty then return ["self.on(format!(" ++ format ++ "))"]
    else
      return ["let defaults = self.statement.arn_defaults();"] ++
        enclose "let arn = format!("
          ((format ++ ",") :: member.standard.map fun standard =>
            let name := standard.argument
            name ++ " = " ++ name ++ ".unwrap_or(defaults." ++ name ++ "()),")
          ");" ++
        ["self.on(arn)"]

/-- The method of a resource type. -/
def resourceMethod (service : Service) (naming : Naming) (resource : Service.ResourceType)
    (member : ResourceMember) : Except Failure (List String) := do
  let sections ← resourceSections service naming resource member
  let body ← resourceBody resource member
  return method sections member.method (resourceArguments member) body

/-- A link to the method of an action, or its name when there is none. -/
def actionLink (service : Service) (naming : Naming) (name : String) : String :=
  match (service.actions.findIdx? (·.name == name)).bind (naming.actions[·]?) with
  | some member => methodLink member.method
  | none => codeSpan name

/-- A link to the method of a resource type, or its name when there is none. -/
def resourceLink (service : Service) (naming : Naming) (name : String) : String :=
  match (service.resourceTypes.findIdx? (·.name == name)).bind (naming.resources[·]?) with
  | some member => methodLink member.method
  | none => codeSpan name

/-- The documentation of a condition key's method. -/
def conditionSections (service : Service) (naming : Naming) (condition : Service.ConditionKey) :
    List String :=
  let type := condition.valueType
  [condition.description] ++
    itemSection "Applies to actions:"
      (condition.relatedActions.map (actionLink service naming)) ++
    itemSection "Applies to resource types:"
      (condition.relatedResourceTypes.map (resourceLink service naming)) ++
    ["Condition key " ++ codeSpan condition.key.raw ++ ". Default operator: `" ++
      type.defaultKind.text ++ "` ([" ++ type.noun ++ " operators](" ++ type.documentation ++
      "))."] ++
    (if type == .bool then ["A `None` value tests for `true`."] else []) ++
    linkSection condition.url

/-- The arguments of a condition key's method. -/
def conditionArguments (condition : Service.ConditionKey) (member : ConditionMember) :
    List String :=
  ["self"] ++
    (match member.parameter with
      | some ident => [ident ++ ": &str"]
      | none => []) ++
    [if condition.valueType == .bool then "value: Option<bool>"
      else "value: impl runtime::IntoConditionValues",
      "operator: Option<runtime::Operator>"]

/-- The expression of the key a condition key's method uses: its text, with the argument behind it
when it has a parameter. -/
def keyExpression (member : ConditionMember) : String :=
  match member.parameter with
  | some ident =>
    "format!(" ++
      Literal.write (FormatString.write [.text member.literal, .argument ident]) ++ ")"
  | none => Literal.write member.literal

/-- The method of a condition key. -/
def conditionMethod (service : Service) (naming : Naming) (condition : Service.ConditionKey)
    (member : ConditionMember) : List String :=
  let type := condition.valueType
  method (conditionSections service naming condition) member.method
    (conditionArguments condition member)
    (enclose "self.r#if("
      [keyExpression member ++ ",",
        if type == .bool then "value.unwrap_or(true)," else "value,",
        "operator.unwrap_or(runtime::Operator::new(runtime::OperatorKind::" ++
          type.defaultKind.text ++ ")),"]
      ")")

end PolicyForge.Source
