import PolicyForge.Proofs.Service.Validation

namespace PolicyForge.Service

open Catalog (ActionEntry KeyEntry Record ResourceEntry)

/-- The entry that a condition key was made from, with its references to other members apart. -/
structure ConditionKey.ComesFrom (servicePrefix : String) (entry : KeyEntry) (key : ConditionKey) :
    Prop where
  raw : key.key.raw = qualifyKey servicePrefix entry.key
  template : Condition.KeyTemplate.parse? (qualifyKey servicePrefix entry.key) = some key.key
  description : key.description = Text.trim entry.description
  url : key.url = Text.trim entry.url
  valueType : Condition.ValueType.ofLabel? (entry.valueType.getD "") = some key.valueType

/-- The entry that a resource type was made from. -/
structure ResourceType.ComesFrom (servicePrefix : String) (entry : ResourceEntry)
    (resource : ResourceType) : Prop where
  name : resource.name = Text.trim entry.name
  url : resource.url = Text.trim entry.url
  arn : Arn.Template.parse (Text.trim (entry.arn.getD "")) = .ok resource.arn
  /-- Each key that is named, at the place of its first mention. -/
  conditionKeys : resource.conditionKeys =
    (entry.conditionKeys.map (qualifyKey servicePrefix)).eraseDups

/-- The entry that an action was made from. -/
structure Action.ComesFrom (servicePrefix : String) (entry : ActionEntry) (action : Action) :
    Prop where
  name : action.name = Text.trim entry.name
  description : action.description = Text.trim entry.description
  url : action.url = Text.trim entry.url
  accessLevel : AccessLevel.ofLabel? entry.accessLevel = some action.accessLevel
  /-- Each resource type that is named, at the place of its first mention. -/
  resourceTypes : action.resourceTypes.map (·.name) =
    (entry.resourceTypes.map fun row => Text.trim row.name).eraseDups
  required : ∀ resource ∈ action.resourceTypes, resource.required = true ↔
    ∃ row ∈ entry.resourceTypes, Text.trim row.name = resource.name ∧ row.required = true
  /-- Each key that is named, at the place of its first mention, by the action before its rows. -/
  conditions : action.conditions =
    ((entry.conditions ++ entry.resourceTypes.flatMap (·.conditions)).map
      (qualifyKey servicePrefix)).eraseDups
  dependentActions : action.dependentActions = entry.dependentActions.map Text.trim

/-- Whatever the members of a service refer to is there, and is referred to once by each of them. -/
structure Closed (service : Service) : Prop extends KeysDeclared service where
  keysDistinct : (service.conditionKeys.map (·.key.raw)).Nodup
  resourceTypesDistinct : (service.resourceTypes.map (·.name)).Nodup
  actionsDistinct : (service.actions.map (·.name.toLower)).Nodup
  resourceTypeKeysDistinct : ∀ resource ∈ service.resourceTypes, resource.conditionKeys.Nodup
  actionKeysDistinct : ∀ action ∈ service.actions, action.conditions.Nodup
  actionResourceTypes : ∀ action ∈ service.actions, ∀ named ∈ action.resourceTypes,
    ∃ resource ∈ service.resourceTypes, resource.name = named.name
  actionResourceTypesDistinct : ∀ action ∈ service.actions,
    (action.resourceTypes.map (·.name)).Nodup

/-- What condition keys say of the members that refer to them is the inverse of what these refer to.
-/
structure BackReferenced (service : Service) : Prop where
  actions : ∀ key ∈ service.conditionKeys, key.relatedActions =
    (service.actions.filter fun action => key.key.raw ∈ action.conditions).map (·.name)
  resourceTypes : ∀ key ∈ service.conditionKeys, key.relatedResourceTypes =
    (service.resourceTypes.filter fun resource => key.key.raw ∈ resource.conditionKeys).map (·.name)

section

variable {servicePrefix : String} {keys : List ConditionKey} {resourceTypes : List ResourceType}

/-- Linking adds to the references of a key and leaves the rest of it as it was checked. -/
theorem ConditionKey.comesFrom_of_checkKey {declared : List ConditionKey} {entry : KeyEntry}
    {key : ConditionKey} (hok : checkKey servicePrefix declared entry = .ok key)
    (actions : List Action) (resourceTypes : List ResourceType) :
    ConditionKey.ComesFrom servicePrefix entry (key.relate actions resourceTypes) := by
  have hraw := raw_of_checkKey hok
  obtain ⟨_, template, valueType, hparse, hlabel, rfl⟩ := checkKey_eq_ok hok
  exact ⟨hraw, hparse, rfl, rfl, hlabel⟩

theorem ResourceType.comesFrom_of_checkResource {earlier : List ResourceType}
    {entry : ResourceEntry} {resource : ResourceType}
    (hok : checkResource servicePrefix keys earlier entry = .ok resource) :
    ResourceType.ComesFrom servicePrefix entry resource := by
  obtain ⟨_, _, _, _, harn, hkeys, rfl⟩ := checkResource_eq_ok hok
  exact ⟨rfl, rfl, (checkArn_eq_ok harn).2, (resolveKeys_eq_ok_iff.mp hkeys).2⟩

theorem Action.comesFrom_of_checkAction {earlier : List Action} {entry : ActionEntry}
    {action : Action} (hok : checkAction servicePrefix keys resourceTypes earlier entry = .ok action) :
    Action.ComesFrom servicePrefix entry action := by
  obtain ⟨_, _, _, _, _, hlevel, hrows, hkeys, rfl⟩ := checkAction_eq_ok hok
  obtain ⟨_, rfl⟩ := resolveRows_eq_ok_iff.mp hrows
  refine ⟨rfl, rfl, rfl, hlevel, ?_, ?_, (resolveKeys_eq_ok_iff.mp hkeys).2, rfl⟩
  · rw [List.map_map]
    exact List.map_id _
  · intro resource hresource
    obtain ⟨name, _, rfl⟩ := List.mem_map.mp hresource
    simp

theorem exists_declared_of_checkAction {earlier : List Action} {entry : ActionEntry}
    {action : Action} (hok : checkAction servicePrefix keys resourceTypes earlier entry = .ok action)
    {named : ActionResource} (hnamed : named ∈ action.resourceTypes) :
    ∃ resource ∈ resourceTypes, resource.name = named.name := by
  have hname := List.mem_map_of_mem (f := (·.name)) hnamed
  rw [(Action.comesFrom_of_checkAction hok).resourceTypes] at hname
  obtain ⟨row, hrow, heq⟩ := List.mem_map.mp (List.mem_eraseDups.mp hname)
  obtain ⟨_, _, _, _, _, _, hrows, _⟩ := checkAction_eq_ok hok
  obtain ⟨resource, hresource, hdeclared⟩ := (resolveRows_eq_ok_iff.mp hrows).1 row hrow
  exact ⟨resource, hresource, hdeclared.trans heq⟩

end

section

variable {record : Record} {service : Service}

/-- The keys, resource types and actions of a service come from the entries of its record, one to
one and in order. -/
theorem forall₂_comesFrom (hok : ofRecord record = .ok service) :
    List.Forall₂ (ConditionKey.ComesFrom service.servicePrefix) record.conditionKeys
        service.conditionKeys ∧
      List.Forall₂ (ResourceType.ComesFrom service.servicePrefix) record.resourceTypes
        service.resourceTypes ∧
      List.Forall₂ (Action.ComesFrom service.servicePrefix) record.actions service.actions := by
  obtain ⟨_, _, keys, hkeys, hresourceTypes, hactions, hlinked⟩ := ofRecord_eq_ok hok
  refine ⟨?_, ?_, ?_⟩
  · rw [hlinked, List.forall₂_map_right_iff]
    refine Checked.forall₂ ?_ hkeys
    intro _ _ _ hcheck
    exact ConditionKey.comesFrom_of_checkKey hcheck service.actions service.resourceTypes
  · refine Checked.forall₂ ?_ hresourceTypes
    intro _ _ _ hcheck
    exact ResourceType.comesFrom_of_checkResource hcheck
  · refine Checked.forall₂ ?_ hactions
    intro _ _ _ hcheck
    exact Action.comesFrom_of_checkAction hcheck

/-- Every reference of an accepted service leads to a declaration. -/
theorem closed_of_ofRecord (hok : ofRecord record = .ok service) : service.Closed := by
  obtain ⟨_, hresourceTypes, hactions⟩ := forall₂_comesFrom hok
  obtain ⟨_, _, keys, hkeys, hresourcesChecked, hactionsChecked, hlinked⟩ := ofRecord_eq_ok hok
  refine ⟨keysDeclared_of_ofRecord hok, ?_, hresourcesChecked.nodup_resourceNames,
    hactionsChecked.nodup_actionNames, ?_, ?_, ?_, ?_⟩
  · rw [hlinked, List.map_map]
    exact hkeys.nodup_raws
  · intro resource hresource
    obtain ⟨_, _, hfrom⟩ := Lists.exists_of_mem_forall₂ hresourceTypes hresource
    rw [hfrom.conditionKeys]
    exact Ordered.nodup_eraseDups _
  · intro action haction
    obtain ⟨_, _, hfrom⟩ := Lists.exists_of_mem_forall₂ hactions haction
    rw [hfrom.conditions]
    exact Ordered.nodup_eraseDups _
  · intro action haction named hnamed
    obtain ⟨_, _, _, hcheck⟩ := hactionsChecked.exists_of_mem haction
    exact exists_declared_of_checkAction hcheck hnamed
  · intro action haction
    obtain ⟨_, _, hfrom⟩ := Lists.exists_of_mem_forall₂ hactions haction
    rw [hfrom.resourceTypes]
    exact Ordered.nodup_eraseDups _

/-- The condition keys of an accepted service point back to just the actions and resource types that
use them. -/
theorem backReferenced_of_ofRecord (hok : ofRecord record = .ok service) :
    service.BackReferenced := by
  obtain ⟨_, _, keys, _, _, _, hlinked⟩ := ofRecord_eq_ok hok
  constructor
  all_goals
    rw [hlinked]
    intro key hkey
    obtain ⟨key, _, rfl⟩ := List.mem_map.mp hkey
    simp [ConditionKey.relate]

/-- The members of an accepted service are its entries, in their order. All that the members refer
to is there, and what the condition keys say of the members that refer to them is the inverse of it.
-/
theorem references_closed (hok : ofRecord record = .ok service) :
    (List.Forall₂ (ConditionKey.ComesFrom service.servicePrefix) record.conditionKeys
        service.conditionKeys ∧
      List.Forall₂ (ResourceType.ComesFrom service.servicePrefix) record.resourceTypes
        service.resourceTypes ∧
      List.Forall₂ (Action.ComesFrom service.servicePrefix) record.actions service.actions) ∧
      service.Closed ∧ service.BackReferenced :=
  ⟨forall₂_comesFrom hok, closed_of_ofRecord hok, backReferenced_of_ofRecord hok⟩

end

/-- A record in which a resource type is named by two rows, the second of which requires it, and a
key is named by an action, by a row of another action, and by a resource type. -/
def fan : Record where
  name := "Fan"
  servicePrefix := " fan "
  actions :=
    [{ name := "Spin"
       accessLevel := "write"
       resourceTypes :=
         [{ name := "blade" }, { name := " blade", required := true, conditions := ["Speed"] }]
       conditions := ["aws:TagKeys"] },
      { name := "Stop", accessLevel := "Write", conditions := ["fan:Speed", " Speed "] }]
  resourceTypes :=
    [{ name := "blade", arn := some "arn:aws:fan:::blade/$\x7bId\x7d", conditionKeys := ["Speed"] }]
  conditionKeys :=
    [{ key := "Speed", valueType := some "Numeric" }, { key := "aws:TagKeys" }]

theorem references_closed_fan :
    ∃ service, ofRecord fan = .ok service ∧ service.Closed ∧ service.BackReferenced ∧
      service.conditionKeys.map (fun key => (key.key.raw, key.relatedActions)) =
        [("fan:Speed", ["Spin", "Stop"]), ("aws:TagKeys", ["Spin"])] ∧
      service.actions.map (·.resourceTypes) = [[⟨"blade", true⟩], []] := by
  have hmembers : (ofRecord fan).toOption.map (fun service =>
      (service.conditionKeys.map (fun key => (key.key.raw, key.relatedActions)),
        service.actions.map (·.resourceTypes))) =
      some ([("fan:Speed", ["Spin", "Stop"]), ("aws:TagKeys", ["Spin"])],
        [[⟨"blade", true⟩], []]) := by
    decide +kernel
  obtain ⟨service, hok, hmembers⟩ := Failing.exists_of_toOption_map_eq_some hmembers
  obtain ⟨hkeys, hrows⟩ := Prod.mk.inj hmembers
  obtain ⟨_, hclosed, hback⟩ := references_closed hok
  exact ⟨service, hok, hclosed, hback, hkeys, hrows⟩

end PolicyForge.Service
