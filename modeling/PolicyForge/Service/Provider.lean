import PolicyForge.Source.Methods
import PolicyForge.Statement.Basic

namespace PolicyForge

/-- A service under a naming, as the type that is generated for the two. -/
structure Provider where
  service : Service
  naming : Naming
  deriving Repr, DecidableEq

/-- The provider of a service under the service's own naming. -/
def Service.provider (service : Service) : Provider :=
  ⟨service, Naming.ofService service⟩

namespace Provider

/-- The optional arguments of a resource method. -/
structure Location where
  account : Option String := none
  region : Option String := none
  partition : Option String := none
  deriving Repr, DecidableEq

/-- The value of a standard placeholder: the argument, or the default when there is none. -/
def Location.value (location : Location) (defaults : Arn.Defaults) (standard : Arn.Standard) :
    String :=
  let given := match standard with
    | .account => location.account
    | .region => location.region
    | .partition => location.partition
  given.getD (standard.default defaults)

/-- What the method of a condition key is given besides the parameter of the key. -/
structure Comparison where
  values : List String := []
  /-- The truth value, for the keys that hold one. -/
  truth : Option Bool := none
  operator : Option Condition.Operator := none
  deriving Repr, DecidableEq

/-- A call of a method. Members are told by their index. -/
inductive Call where
  | action (index : Nat)
  | resource (index : Nat) (arguments : List String) (location : Location)
  | condition (index : Nat) (parameter : String) (comparison : Comparison)
  /-- A shared condition key. -/
  | shared (key : Condition.GlobalKey) (given : GlobalArguments)
  /-- A condition key by its text, which is a key of the service when it has no colon. -/
  | clause (key : String) (values : List String) (operator : Condition.Operator)
  | allActions
  | allActionsOfLevel (level : AccessLevel)
  /-- A change that every statement offers. -/
  | plain (step : Statement.Step)
  deriving Repr, DecidableEq

/-- The key that a text names: itself when it has a prefix, else a key of the service. -/
def qualifiedKey (provider : Provider) (key : String) : String :=
  if key.toList.contains ':' then key else provider.service.qualified key

/-- The values of the argument names inside a resource method. -/
def resourceBinding (member : ResourceMember) (arguments : List String) (location : Location)
    (defaults : Arn.Defaults) (ident : String) : Option String :=
  match (member.parameters.map (·.2)).zip arguments |>.lookup ident with
  | some value => some value
  | none => (member.standard.find? (·.argument == ident)).map (location.value defaults)

/-- The resource that a resource method adds: the template as it is without placeholders, else the
method's format string with the values of its arguments. -/
def resourceText? (resource : Service.ResourceType) (member : ResourceMember)
    (arguments : List String) (location : Location) (defaults : Arn.Defaults) : Option String :=
  if resource.arn.hasPlaceholders then do
    let format ← (Source.arnFormat resource member).toOption
    let text ← Source.FormatString.evaluate?
      (resourceBinding member arguments location defaults) format.toList
    return String.ofList text
  else some resource.arn.raw

/-- The key that the method of a condition key adds: the text of the key, with the argument behind
it when it has a parameter. -/
def keyText? (member : ConditionMember) (parameter : String) : Option String :=
  match member.parameter with
  | none => some member.literal
  | some ident => do
    let format := Source.FormatString.write [.text member.literal, .argument ident]
    let text ← Source.FormatString.evaluate?
      (fun name => if name == ident then some parameter else none) format.toList
    return String.ofList text

/-- The values that the method of a condition key adds. A truth value that is left out is true. -/
def comparedValues (condition : Service.ConditionKey) (comparison : Comparison) : List String :=
  if condition.valueType == .bool then
    [(Condition.Value.truth (comparison.truth.getD true)).asText]
  else comparison.values

/-- The changes that a call makes to the given statement. A call of a member that the service does
not have makes no sense. -/
def steps? (provider : Provider) (statement : Statement) : Call → Option (List Statement.Step)
  | .action index => do
    let member ← provider.naming.actions[index]?
    return [.addAction member.literal]
  | .resource index arguments location => do
    let resource ← provider.service.resourceTypes[index]?
    let member ← provider.naming.resources[index]?
    let text ← resourceText? resource member arguments location statement.arnDefaults
    return [.addResource text]
  | .condition index parameter comparison => do
    let condition ← provider.service.conditionKeys[index]?
    let member ← provider.naming.conditions[index]?
    let key ← keyText? member parameter
    return [.addCondition (provider.qualifiedKey key) (comparedValues condition comparison)
      (comparison.operator.getD condition.valueType.defaultOperator)]
  | .shared key given => some [key.step given]
  | .clause key values operator =>
    some [.addCondition (provider.qualifiedKey key) values operator]
  | .allActions => some [.addAction (provider.service.qualified "*")]
  | .allActionsOfLevel level =>
    let names := (provider.service.accessLevels.filter (·.1 == level)).flatMap (·.2)
    some (names.map fun name => .addAction (provider.service.qualified name))
  | .plain step => some [step]

/-- The statement after a call. -/
def call? (provider : Provider) (statement : Statement) (call : Call) : Option Statement := do
  return statement.run (← provider.steps? statement call)

/-- The statement after calls, one after the other. -/
def run? (provider : Provider) (statement : Statement) (calls : List Call) : Option Statement :=
  calls.foldlM provider.call? statement

end Provider

end PolicyForge
