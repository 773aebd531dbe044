import PolicyForge.Proofs.Identifier.Allocation
import PolicyForge.Proofs.Identifier.Arguments
import PolicyForge.Service.Naming

namespace PolicyForge.Naming

open Identifier (IsName Scope parameterBase)

theorem length_takeAll (free : Allocator) (requests : List Request) :
    (free.takeAll requests).length = requests.length := by
  induction requests generalizing free with
  | nil => rfl
  | cons request requests ih => rw [Allocator.takeAll, List.length_cons, ih, List.length_cons]

theorem length_methods (service : Service) :
    (methods service).length =
      service.actions.length + service.resourceTypes.length + service.conditionKeys.length := by
  rw [methods, List.length_map, claims, length_takeAll, requests, List.length_append,
    List.length_append, List.length_map, List.length_map, List.length_map]

theorem argumentNames_cons (scope : Scope) (placeholder : String) (placeholders : List String) :
    argumentNames scope (placeholder :: placeholders) =
      (scope.parameter placeholder).1 ::
        argumentNames (scope.parameter placeholder).2 placeholders :=
  rfl

theorem length_argumentNames (scope : Scope) (placeholders : List String) :
    (argumentNames scope placeholders).length = placeholders.length := by
  induction placeholders generalizing scope with
  | nil => rfl
  | cons placeholder placeholders ih =>
    rw [argumentNames_cons, List.length_cons, ih, List.length_cons]

/-- The names of arguments are what a scope gives out when it is asked for one after the other. -/
theorem argumentNames_eq_given (scope : Scope) (placeholders : List String) :
    argumentNames scope placeholders =
      (scope.run (placeholders.map fun placeholder =>
        .allocate (parameterBase placeholder))).filterMap Scope.Event.given? := by
  induction placeholders generalizing scope with
  | nil => rfl
  | cons placeholder placeholders ih =>
    rw [argumentNames_cons, ih]
    rfl

theorem not_mem_taken_of_mem_argumentNames {scope : Scope} {placeholders : List String}
    {ident : String} (hident : ident ∈ argumentNames scope placeholders) : ident ∉ scope.taken := by
  rw [argumentNames_eq_given] at hident
  exact fun hmem => Scope.not_mem_names_of_mem_given hident (Scope.mem_names.mpr hmem)

theorem nodup_argumentNames (scope : Scope) (placeholders : List String) :
    (argumentNames scope placeholders).Nodup := by
  rw [argumentNames_eq_given]
  exact scope.nodup_given _

theorem isName_of_mem_argumentNames {scope : Scope} {placeholders : List String} {ident : String}
    (hident : ident ∈ argumentNames scope placeholders) : IsName ident := by
  induction placeholders generalizing scope with
  | nil => simp [argumentNames] at hident
  | cons placeholder placeholders ih =>
    rw [argumentNames_cons] at hident
    obtain rfl | hrest := List.mem_cons.mp hident
    · exact scope.isName_parameter placeholder
    · exact ih hrest

theorem parameters_placeholders (arn : Arn.Template) :
    (parameters arn).map (·.1) = arn.customPlaceholders := by
  rw [parameters]
  exact List.map_fst_zip (Nat.le_of_eq (length_argumentNames _ _).symm)

theorem parameters_idents (arn : Arn.Template) :
    (parameters arn).map (·.2) =
      argumentNames (Scope.ofList reservedArguments) arn.customPlaceholders := by
  rw [parameters]
  exact List.map_snd_zip (Nat.le_of_eq (length_argumentNames _ _))

/-- A resource type has the entry at its own place, with arguments for just its placeholders. -/
theorem exists_resources_getElem? {service : Service} {index : Nat} {resource : Service.ResourceType}
    (hresource : service.resourceTypes[index]? = some resource) :
    ∃ member, (ofService service).resources[index]? = some member ∧
      member.literal = resource.arn.raw ∧ member.parameters = parameters resource.arn ∧
      member.standard = resource.arn.standardPlaceholders := by
  have hindex := (List.getElem?_eq_some_iff.mp hresource).1
  have hmethod : service.actions.length + index < (methods service).length := by
    rw [length_methods]
    omega
  refine ⟨⟨⟨(methods service)[service.actions.length + index], resource.arn.raw⟩,
    parameters resource.arn, resource.arn.standardPlaceholders⟩, ?_, rfl, rfl, rfl⟩
  simp only [ofService]
  rw [List.getElem?_zipWith, hresource, List.getElem?_drop, List.getElem?_eq_getElem hmethod]

end PolicyForge.Naming
