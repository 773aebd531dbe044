import PolicyForge.Proofs.Service.Methods
import PolicyForge.Proofs.Service.Validation
import PolicyForge.Proofs.Source.Methods
import PolicyForge.Source.Module

namespace PolicyForge.Source

variable {service : Service} {naming : Naming}

theorem methods_eq_ok {lines : List String} (hok : methods service naming = .ok lines) :
    ∃ actions resources conditions,
      (service.actions.zip naming.actions).mapM (fun (action, member) =>
        actionMethod service naming action member) = .ok actions ∧
      (service.resourceTypes.zip naming.resources).mapM (fun (resource, member) =>
        resourceMethod service naming resource member) = .ok resources ∧
      conditions = (service.conditionKeys.zip naming.conditions).map (fun (condition, member) =>
        conditionMethod service naming condition member) ∧
      lines = block ("impl " ++ naming.typeName)
        (constructors ++ (actions ++ resources ++ conditions).flatMap ("" :: ·)) := by
  obtain ⟨actions, hactions, hok⟩ := Failing.bind_eq_ok.mp hok
  obtain ⟨resources, hresources, hok⟩ := Failing.bind_eq_ok.mp hok
  exact ⟨actions, resources, _, hactions, hresources, rfl, (Except.ok.inj hok).symm⟩

/-- What a module is made of when it is rendered. -/
theorem render_eq_ok {source : String} (hok : render service naming = .ok source) :
    ∃ lines, methods service naming = .ok lines ∧
      source = unlines (header service ++ (typeDefinition service naming.typeName ++ [""] ++ lines ++
        [""] ++ tables service naming.typeName ++ [""] ++ conversions naming.typeName)) := by
  obtain ⟨_, _, hok⟩ := Failing.bind_eq_ok.mp hok
  obtain ⟨_, _, hok⟩ := Failing.bind_eq_ok.mp hok
  obtain ⟨_, _, hok⟩ := Failing.bind_eq_ok.mp hok
  obtain ⟨lines, hlines, hok⟩ := Failing.bind_eq_ok.mp hok
  refine ⟨lines, hlines, ?_⟩
  obtain rfl := Except.ok.inj hok
  simp only [List.append_assoc]

theorem checkLength_eq_ok (what : String) {expected found : Nat} (heq : expected = found) :
    checkLength what expected found = .ok () := by
  rw [checkLength, if_pos (beq_iff_eq.mpr heq)]

/-- Keys that are declared have methods to link to. -/
theorem exists_conditionLinks_eq_ok (member : String) {keys : List String}
    (hdeclared : ∀ key ∈ keys, ∃ condition ∈ service.conditionKeys, condition.key.raw = key) :
    ∃ links, conditionLinks service (Naming.ofService service) member keys = .ok links := by
  apply Failing.exists_mapM_eq_ok
  intro key hkey
  obtain ⟨method, hmethod⟩ := Naming.exists_conditionMethod (hdeclared key hkey)
  exact ⟨methodLink method, by rw [hmethod]⟩

/-- An action method is written when the keys of the action are declared. -/
theorem exists_actionMethod_eq_ok (hdeclared : service.KeysDeclared) {action : Service.Action}
    (haction : action ∈ service.actions) (member : Member) :
    ∃ lines, actionMethod service (Naming.ofService service) action member = .ok lines := by
  obtain ⟨links, hlinks⟩ :=
    exists_conditionLinks_eq_ok action.name (hdeclared.actions action haction)
  rw [actionMethod, actionSections, hlinks]
  exact ⟨_, rfl⟩

/-- The body of a resource method holds its text, which is there since every placeholder has its
argument. -/
theorem exists_resourceBody_eq_ok {resource : Service.ResourceType} {member : ResourceMember}
    (hparameters : member.parameters = Naming.parameters resource.arn) :
    ∃ lines, resourceBody resource member = .ok lines := by
  obtain ⟨text, htext⟩ : ∃ text, accessorText resource member = .ok text := by
    cases hplaceholders : resource.arn.hasPlaceholders with
    | true => exact ⟨_, accessorText_eq_ok hplaceholders hparameters⟩
    | false => exact ⟨_, accessorText_of_not_hasPlaceholders hplaceholders member⟩
  obtain ⟨lines, hlines, _⟩ := exists_literal_of_accessorText htext
  exact ⟨lines, hlines⟩

/-- A resource method is written when the keys of the resource type are declared. -/
theorem exists_resourceMethod_eq_ok (hdeclared : service.KeysDeclared)
    {resource : Service.ResourceType} (hresource : resource ∈ service.resourceTypes)
    {member : ResourceMember} (hparameters : member.parameters = Naming.parameters resource.arn) :
    ∃ lines, resourceMethod service (Naming.ofService service) resource member = .ok lines := by
  obtain ⟨links, hlinks⟩ :=
    exists_conditionLinks_eq_ok resource.name (hdeclared.resourceTypes resource hresource)
  obtain ⟨body, hbody⟩ := exists_resourceBody_eq_ok hparameters
  rw [resourceMethod, resourceSections, hlinks, hbody]
  exact ⟨_, rfl⟩

/-- The methods of a service are written when all of its keys are declared. -/
theorem exists_methods_eq_ok (hdeclared : service.KeysDeclared) :
    ∃ lines, methods service (Naming.ofService service) = .ok lines := by
  obtain ⟨actions, hactions⟩ : ∃ lines,
      (service.actions.zip (Naming.ofService service).actions).mapM (fun (action, member) =>
        actionMethod service (Naming.ofService service) action member) = .ok lines := by
    apply Failing.exists_mapM_eq_ok
    rintro ⟨action, member⟩ hmem
    exact exists_actionMethod_eq_ok hdeclared (List.of_mem_zip hmem).1 member
  obtain ⟨resources, hresources⟩ : ∃ lines,
      (service.resourceTypes.zip (Naming.ofService service).resources).mapM
        (fun (resource, member) =>
          resourceMethod service (Naming.ofService service) resource member) = .ok lines := by
    apply Failing.exists_mapM_eq_ok
    rintro ⟨resource, member⟩ hmem
    have hentry := List.forall₂_zip (Naming.forall₂_resources service) hmem
    exact exists_resourceMethod_eq_ok hdeclared (List.of_mem_zip hmem).1 hentry.1
  rw [methods, hactions, hresources]
  exact ⟨_, rfl⟩

/-- Under its own naming a service can be rendered once its members name only its own keys. -/
theorem exists_render_eq_ok (hdeclared : service.KeysDeclared) :
    ∃ source, render service (Naming.ofService service) = .ok source := by
  obtain ⟨lines, hlines⟩ := exists_methods_eq_ok hdeclared
  rw [render, checkLength_eq_ok _ (Naming.forall₂_actions service).length_eq,
    checkLength_eq_ok _ (Naming.forall₂_resources service).length_eq,
    checkLength_eq_ok _ (Naming.forall₂_conditions service).length_eq, hlines]
  exact ⟨_, rfl⟩

end PolicyForge.Source
