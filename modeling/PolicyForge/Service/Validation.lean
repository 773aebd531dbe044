import PolicyForge.Catalog.Reader
import PolicyForge.Ordered
import PolicyForge.Service.Basic

namespace PolicyForge.Service

open Catalog (ActionEntry KeyEntry Record ResourceEntry ResourceRow Violation)

/-- A key as it is referred to: without blanks around it, and with the prefix of the service in
front when it has no prefix of its own. -/
def qualifyKey (servicePrefix key : String) : String :=
  let key := Text.trim key
  if key.toList.contains ':' then key else servicePrefix ++ ":" ++ key

/-- A violation found in an entry of the service. -/
def flaw {α : Type} (servicePrefix location : String) (violation : Violation) :
    Except Catalog.Error α :=
  .error { service := servicePrefix, location, violation }

/-- Check the entry of a condition key against the keys declared before it. -/
def checkKey (servicePrefix : String) (declared : List ConditionKey) (entry : KeyEntry) :
    Except Catalog.Error ConditionKey :=
  let key := qualifyKey servicePrefix entry.key
  let location := "conditions." ++ key
  let label := entry.valueType.getD ""
  if declared.any (·.key.raw == key) then
    flaw servicePrefix location (.duplicateConditionKey key)
  else match Condition.KeyTemplate.parse? key with
    | none => flaw servicePrefix location (.malformedConditionKey key)
    | some template => match Condition.ValueType.ofLabel? label with
      | none => flaw servicePrefix (location ++ ".type") (.unknownConditionType label)
      | some valueType => .ok
        { key := template
          description := Text.trim entry.description
          url := Text.trim entry.url
          valueType }

/-- The declared key that a reference names. -/
def resolveKey (servicePrefix : String) (declared : List ConditionKey) (location reference : String) :
    Except Catalog.Error String :=
  let key := qualifyKey servicePrefix reference
  if declared.any (·.key.raw == key) then .ok key
  else flaw servicePrefix location (.undeclaredConditionKey key)

/-- The declared keys that references name, each once, in order of first mention. -/
def resolveKeys (servicePrefix : String) (declared : List ConditionKey) (location : String)
    (references : List String) : Except Catalog.Error (List String) := do
  let keys ← references.mapM (resolveKey servicePrefix declared location)
  return Ordered.insertAll [] keys

/-- The template of a resource type, which must be given and not be blank. -/
def checkArn (servicePrefix location : String) (arn : Option String) :
    Except Catalog.Error Arn.Template :=
  let text := Text.trim (arn.getD "")
  if text.isEmpty then flaw servicePrefix location (.missingField "arn")
  else match Arn.Template.parse text with
    | .ok template => .ok template
    | .error reason => flaw servicePrefix location (.malformedArn text reason)

/-- Check the entry of a resource type against those before it. -/
def checkResource (servicePrefix : String) (declared : List ConditionKey)
    (earlier : List ResourceType) (entry : ResourceEntry) :
    Except Catalog.Error ResourceType := do
  let name := Text.trim entry.name
  if name.isEmpty then flaw servicePrefix "resourceTypes" .emptyName
  else
    let location := "resourceTypes." ++ name
    if earlier.any (·.name == name) then
      flaw servicePrefix location (.duplicateResourceType name)
    else
      let arn ← checkArn servicePrefix (location ++ ".arn") entry.arn
      let conditionKeys ←
        resolveKeys servicePrefix declared (location ++ ".conditionKeys") entry.conditionKeys
      return { name, url := Text.trim entry.url, arn, conditionKeys }

/-- The declared resource type that a row names, and whether the row requires it. -/
def resolveRow (servicePrefix : String) (declared : List ResourceType) (location : String)
    (row : ResourceRow) : Except Catalog.Error (String × Bool) :=
  let name := Text.trim row.name
  if declared.any (·.name == name) then .ok (name, row.required)
  else flaw servicePrefix location (.danglingResourceType name)

/-- The declared resource types that rows name, each once, in order of first mention. A row that
names a resource type again can only make it required. -/
def resolveRows (servicePrefix : String) (declared : List ResourceType) (location : String)
    (rows : List ResourceRow) : Except Catalog.Error (List ActionResource) := do
  let named ← rows.mapM (resolveRow servicePrefix declared location)
  let merged := named.foldl
    (fun merged (name, required) => Ordered.update name false (· || required) merged) []
  return merged.map fun (name, required) => { name, required }

/-- Check the entry of an action against those before it. -/
def checkAction (servicePrefix : String) (declared : List ConditionKey)
    (resourceTypes : List ResourceType) (earlier : List Action) (entry : ActionEntry) :
    Except Catalog.Error Action := do
  let name := Text.trim entry.name
  if name.isEmpty then flaw servicePrefix "actions" .emptyName
  else
    let location := "actions." ++ name
    if earlier.any (·.name.toLower == name.toLower) then
      flaw servicePrefix location (.duplicateAction name)
    else match AccessLevel.ofLabel? entry.accessLevel with
      | none =>
        flaw servicePrefix (location ++ ".accessLevel") (.unknownAccessLevel entry.accessLevel)
      | some accessLevel =>
        let actionResources ←
          resolveRows servicePrefix resourceTypes (location ++ ".resourceTypes") entry.resourceTypes
        let conditions ← resolveKeys servicePrefix declared (location ++ ".conditions")
          (entry.conditions ++ entry.resourceTypes.flatMap (·.conditions))
        return {
          name
          description := Text.trim entry.description
          url := Text.trim entry.url
          accessLevel
          resourceTypes := actionResources
          conditions
          dependentActions := entry.dependentActions.map Text.trim }

/-- Check entries one after the other, each against the results of those before it. -/
def checkInOrder {α β : Type} (check : List β → α → Except Catalog.Error β) (entries : List α) :
    Except Catalog.Error (List β) :=
  entries.foldlM (fun earlier entry => do return earlier ++ [← check earlier entry]) []

/-- Note on a key that an action names it, unless the action is noted already. -/
def ConditionKey.noteAction (name : String) (key : ConditionKey) : ConditionKey :=
  { key with relatedActions := Ordered.insert key.relatedActions name }

/-- Note on a key that a resource type names it. -/
def ConditionKey.noteResourceType (name : String) (key : ConditionKey) : ConditionKey :=
  { key with relatedResourceTypes := key.relatedResourceTypes ++ [name] }

/-- Change the declared key that each reference names, one after the other. -/
def changeNamed (change : ConditionKey → ConditionKey) (declared : List ConditionKey)
    (references : List String) : List ConditionKey :=
  references.foldl
    (fun declared reference => declared.modify (declared.findIdx (·.key.raw == reference)) change)
    declared

/-- Note a resource type on every key that it names. -/
def linkResourceType (declared : List ConditionKey) (resource : ResourceType) :
    List ConditionKey :=
  changeNamed (·.noteResourceType resource.name) declared resource.conditionKeys

/-- Note an action on every key that it names. -/
def linkAction (declared : List ConditionKey) (action : Action) : List ConditionKey :=
  changeNamed (·.noteAction action.name) declared action.conditions

/-- The service that a record describes, or the first violation in it. -/
def ofRecord (record : Record) : Except Catalog.Error Service := do
  let servicePrefix := Text.trim record.servicePrefix
  if servicePrefix.isEmpty then flaw record.name "servicePrefix" .emptyName
  else
    let keys ← checkInOrder (checkKey servicePrefix) record.conditionKeys
    let resourceTypes ← checkInOrder (checkResource servicePrefix keys) record.resourceTypes
    let actions ← checkInOrder (checkAction servicePrefix keys resourceTypes) record.actions
    let name := Text.trim record.name
    return {
      name := if name.isEmpty then servicePrefix else name
      servicePrefix
      url := record.url
      actions
      resourceTypes
      conditionKeys := actions.foldl linkAction (resourceTypes.foldl linkResourceType keys) }

/-- The service that the text of a catalog describes. -/
def ofText (label text : String) : Except Catalog.Error Service := do
  ofRecord (← Record.ofText label text)

end PolicyForge.Service
