import Mathlib.Data.List.Nodup
import PolicyForge.Proofs.Condition.KeyTemplate
import PolicyForge.Proofs.Service.Methods
import PolicyForge.Proofs.Service.Provider
import PolicyForge.Proofs.Statement.Run

namespace PolicyForge

/-- The actions of a level are listed once, in the order of the catalog. -/
theorem Service.flatMap_accessLevels (service : Service) (level : AccessLevel) :
    (service.accessLevels.filter (·.1 == level)).flatMap (·.2) =
      (service.actions.filter (·.accessLevel == level)).map (·.name) := by
  let names := fun level => (service.actions.filter (·.accessLevel == level)).map (·.name)
  have hlevels : service.accessLevels.filter (·.1 == level) =
      ((service.actions.map (·.accessLevel)).eraseDups.filter (· == level)).map
        fun own => (own, names own) :=
    List.filter_map ..
  rw [hlevels, List.filter_beq]
  by_cases hmem : level ∈ (service.actions.map (·.accessLevel)).eraseDups
  · rw [List.count_eq_one_of_mem (Ordered.nodup_eraseDups _) hmem]
    simp [names]
  · rw [List.count_eq_zero_of_not_mem hmem]
    have hnone : ∀ action ∈ service.actions, action.accessLevel ≠ level := by
      rintro action haction rfl
      exact hmem (List.mem_eraseDups.mpr (List.mem_map_of_mem haction))
    simpa using hnone

namespace Provider

open Statement (Step)

/-- Whether a call can be made at all: the service has its member, and a resource is given an
argument for each of its own placeholders. -/
def Call.Fits (service : Service) : Call → Prop
  | .action index => index < service.actions.length
  | .resource index arguments _ => ∃ resource, service.resourceTypes[index]? = some resource ∧
      arguments.length = resource.arn.customPlaceholders.length
  | .condition index _ _ => index < service.conditionKeys.length
  | _ => True

/-- The changes that a call stands for, while the given defaults are in force. -/
def Call.changes (service : Service) (defaults : Arn.Defaults) : Call → List Step
  | .action index =>
    service.actions[index]?.toList.map fun action =>
      .addAction (service.servicePrefix ++ ":" ++ action.name)
  | .resource index arguments location =>
    service.resourceTypes[index]?.toList.map fun resource =>
      .addResource (resource.arn.fill (placeholderValue? resource.arn arguments location defaults))
  | .condition index parameter comparison =>
    service.conditionKeys[index]?.toList.map fun condition =>
      .addCondition (condition.key.filled parameter) (comparedValues condition comparison)
        (comparison.operator.getD condition.valueType.defaultOperator)
  | .shared key given => [key.step given]
  | .clause key values operator =>
    [.addCondition (if ':' ∈ key.toList then key else service.servicePrefix ++ ":" ++ key) values
      operator]
  | .allActions => [.addAction (service.servicePrefix ++ ":*")]
  | .allActionsOfLevel level =>
    (service.actions.filter (·.accessLevel == level)).map fun action =>
      .addAction (service.servicePrefix ++ ":" ++ action.name)
  | .plain step => [step]

/-- The defaults in force after changes. -/
def defaultsAfter (defaults : Arn.Defaults) (changes : List Step) : Arn.Defaults :=
  (changes.filterMap Step.arnDefaults?).getLastD defaults

/-- The changes that calls stand for, each under the defaults that those before it leave in force.
-/
def changes (service : Service) (defaults : Arn.Defaults) : List Call → List Step
  | [] => []
  | call :: calls =>
    let own := call.changes service defaults
    own ++ changes service (defaultsAfter defaults own) calls

/-- The defaults of a statement are changed by the steps that set defaults and by no other. -/
theorem arnDefaults_run (statement : Statement) (steps : List Step) :
    (statement.run steps).arnDefaults = defaultsAfter statement.arnDefaults steps :=
  Statement.run_setting (·.arnDefaults) Step.arnDefaults? (by rintro _ ⟨⟩ <;> rfl) statement steps

section

variable {record : Catalog.Record} {service : Service}

/-- The method of a condition key adds the key filled with its argument. -/
theorem keyText?_eq_filled {condition : Service.ConditionKey} {member : ConditionMember} {raw : String}
    (hparse : Condition.KeyTemplate.parse? raw = some condition.key)
    (hliteral : member.literal = condition.key.literalPrefix)
    (hparameter : member.parameter = condition.key.parameter?.map fun placeholder =>
      ((Identifier.Scope.ofList Naming.reservedArguments).parameter placeholder).1)
    (argument : String) : keyText? member argument = some (condition.key.filled argument) := by
  rw [keyText?, Condition.KeyTemplate.filled_eq_literalPrefix hparse, hliteral, hparameter]
  cases hown : condition.key.parameter? with
  | none => simp
  | some placeholder =>
    have hplain := Source.plain_argument
      ((Identifier.Scope.ofList Naming.reservedArguments).isName_parameter placeholder).snake
    simp only [Option.map_some]
    rw [Source.FormatString.evaluate?_write]
    · simp [Source.FormatString.value?]
    · simpa [Source.FormatString.Plain] using hplain

/-- The method of a resource type adds the template filled with the arguments. -/
theorem resourceText?_eq_fill {resource : Service.ResourceType} {member : ResourceMember} {raw : String}
    (hparse : Arn.Template.parse raw = .ok resource.arn)
    (hparameters : member.parameters = Naming.parameters resource.arn)
    (hstandard : member.standard = resource.arn.standardPlaceholders) {arguments : List String}
    (hlength : arguments.length = resource.arn.customPlaceholders.length) (location : Location)
    (defaults : Arn.Defaults) :
    resourceText? resource member arguments location defaults =
      some (resource.arn.fill (placeholderValue? resource.arn arguments location defaults)) := by
  cases hplaceholders : resource.arn.hasPlaceholders with
  | true =>
    apply resourceText?_of_hasPlaceholders location defaults hplaceholders hparameters hstandard
    rw [hlength, hparameters, ← Naming.parameters_placeholders, List.length_map]
  | false =>
    rw [Arn.Template.fill_eq_raw hparse hplaceholders]
    simp [resourceText?, hplaceholders]

theorem qualifiedKey_of_colon (provider : Provider) {key : String} (hcolon : ':' ∈ key.toList) :
    provider.qualifiedKey key = key := by
  simp [qualifiedKey, hcolon]

/-- The method of a condition key makes one change, which adds a clause for the filled key. -/
theorem steps?_condition {index : Nat} {condition : Service.ConditionKey}
    (hcondition : service.conditionKeys[index]? = some condition) {raw : String}
    (hparse : Condition.KeyTemplate.parse? raw = some condition.key) (statement : Statement)
    (argument : String) (comparison : Comparison) :
    service.provider.steps? statement (.condition index argument comparison) =
      some [.addCondition (condition.key.filled argument) (comparedValues condition comparison)
        (comparison.operator.getD condition.valueType.defaultOperator)] := by
  obtain ⟨member, hmember, hliteral, hparameter, _⟩ :=
    Lists.exists_getElem?_of_forall₂ (Naming.forall₂_conditions service) hcondition
  have hkey := keyText?_eq_filled hparse hliteral hparameter argument
  have hcolon := Condition.KeyTemplate.colon_mem_filled condition.key argument
  simp [steps?, Service.provider, hcondition, hmember, hkey, qualifiedKey_of_colon _ hcolon]

/-- A call that can be made makes the changes that it stands for. -/
theorem steps?_eq_changes (hchecked : Service.ofRecord record = .ok service) {call : Call}
    (hfits : call.Fits service) (statement : Statement) :
    service.provider.steps? statement call = some (call.changes service statement.arnDefaults) := by
  cases call with
  | action index =>
    have haction := List.getElem?_eq_getElem hfits
    obtain ⟨member, hmember, hliteral, _⟩ :=
      Lists.exists_getElem?_of_forall₂ (Naming.forall₂_actions service) haction
    simp [steps?, Service.provider, hmember, hliteral, Call.changes, haction, Service.qualified]
  | resource index arguments location =>
    obtain ⟨resource, hresource, hlength⟩ := hfits
    obtain ⟨member, hmember, hparameters, hstandard, _⟩ :=
      Lists.exists_getElem?_of_forall₂ (Naming.forall₂_resources service) hresource
    obtain ⟨_, hparse⟩ :=
      Service.exists_parse_of_mem_resourceTypes hchecked (List.mem_of_getElem? hresource)
    have htext := resourceText?_eq_fill hparse hparameters hstandard hlength location
      statement.arnDefaults
    simp [steps?, Service.provider, hresource, hmember, htext, Call.changes]
  | condition index parameter comparison =>
    have hcondition := List.getElem?_eq_getElem hfits
    obtain ⟨_, _, hparse, _⟩ :=
      Service.exists_parse_of_mem_conditionKeys hchecked (List.getElem_mem hfits)
    rw [steps?_condition hcondition hparse]
    simp [Call.changes, hcondition]
  | shared key given => rfl
  | clause key values operator =>
    simp [steps?, qualifiedKey, Service.provider, Service.qualified, Call.changes]
  | allActions =>
    simp [steps?, Service.provider, Service.qualified, Call.changes, String.append_assoc]
  | allActionsOfLevel level =>
    simp [steps?, Service.provider, Service.qualified, Call.changes, Service.flatMap_accessLevels]
  | plain step => rfl

/-- Any run of calls that can be made is the run of the changes that they stand for. -/
theorem run?_eq_run (hchecked : Service.ofRecord record = .ok service) {calls : List Call}
    (hfits : ∀ call ∈ calls, call.Fits service) (statement : Statement) :
    service.provider.run? statement calls =
      some (statement.run (changes service statement.arnDefaults calls)) := by
  induction calls generalizing statement with
  | nil => rfl
  | cons call calls ih =>
    have hcall : service.provider.call? statement call =
        some (statement.run (call.changes service statement.arnDefaults)) := by
      rw [call?, steps?_eq_changes hchecked (hfits call List.mem_cons_self)]
      rfl
    have hcalls := ih (fun other hother => hfits other (List.mem_cons_of_mem call hother))
      (statement.run (call.changes service statement.arnDefaults))
    rw [run?, List.foldlM_cons, hcall, changes]
    rw [run?, arnDefaults_run] at hcalls
    simp only [Statement.run, List.foldl_append] at hcalls ⊢
    exact hcalls

end

/-- No change takes a resource away or replaces it. -/
theorem resources_prefix_run (statement : Statement) (steps : List Step) :
    statement.resources <+: (statement.run steps).resources := by
  induction steps generalizing statement with
  | nil => exact List.prefix_rfl
  | cons step steps ih =>
    have hstep : statement.resources <+: (statement.apply step).resources := by
      cases step with
      | addResource resource =>
        rw [Statement.apply, Statement.addResource, Ordered.insert]
        split
        · exact List.prefix_rfl
        · exact List.prefix_append _ _
      | _ => exact List.prefix_rfl
    exact hstep.trans (ih (statement.apply step))

/-- Calls one after the other are made on what the earlier ones leave, and stop where one fails. -/
theorem run?_append (provider : Provider) (statement : Statement) (calls more : List Call) :
    provider.run? statement (calls ++ more) =
      (provider.run? statement calls).bind (provider.run? · more) :=
  List.foldlM_append

theorem filled_published {key : Condition.GlobalKey} (hkey : key ∈ Condition.GlobalKey.all)
    {template : Condition.KeyTemplate}
    (hparse : Condition.KeyTemplate.parse? key.published = some template) (argument : String) :
    template.filled argument =
      match key.form with
      | .tag => key.stem ++ "/" ++ argument
      | _ => key.stem := by
  have hparts : ∀ key ∈ Condition.GlobalKey.all,
      (Condition.KeyTemplate.parse? key.published).map
        (fun template => (template.servicePrefix ++ ":" ++ template.name, template.ending)) =
      some (key.stem, match key.form with
        | .tag => .parameter "TagKey"
        | _ => .plain) := by
    decide +kernel
  have hown := hparts key hkey
  rw [hparse, Option.map_some, Option.some.injEq, Prod.mk.injEq] at hown
  obtain ⟨hstem, hending⟩ := hown
  rw [Condition.KeyTemplate.filled, hstem, hending]
  cases key.form <;> simp [String.append_assoc]

/-- A key of the service that is a shared key for text makes the same change under its own method as
the shared key makes. -/
theorem changes_eq_step_of_published {service : Service} {index : Nat}
    {condition : Service.ConditionKey} (hcondition : service.conditionKeys[index]? = some condition)
    {key : Condition.GlobalKey} (hkey : key ∈ Condition.GlobalKey.all)
    (hparse : Condition.KeyTemplate.parse? key.published = some condition.key)
    (hform : key.form = .tag ∨ key.form = .values .stringLike)
    (hstring : condition.valueType = .string) (parameter : String) (comparison : Comparison)
    (defaults : Arn.Defaults) :
    (Call.condition index parameter comparison).changes service defaults =
      [key.step ⟨parameter, comparison.values, comparison.truth, comparison.operator⟩] := by
  have hfilled := filled_published hkey hparse parameter
  rw [Call.changes, hcondition, Option.toList_some, List.map_singleton, hfilled, comparedValues,
    hstring]
  obtain hform | hform := hform
  · rw [Condition.GlobalKey.step, hform]
    rfl
  · rw [Condition.GlobalKey.step, hform]
    rfl

end Provider

end PolicyForge
