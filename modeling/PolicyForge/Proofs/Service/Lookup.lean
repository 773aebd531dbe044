import PolicyForge.Proofs.Service.Methods
import PolicyForge.Proofs.Service.References
import PolicyForge.Proofs.Text.Case

namespace PolicyForge

/-- A look-up that finds a member just when it is among the members and answers the query, which the
members at two places never do. -/
structure ExactLookup {α : Type} (members : List α) (answers : α → String → Prop)
    (find? : String → Option α) : Prop where
  found : ∀ query member, find? query = some member ↔ member ∈ members ∧ answers member query
  once : ∀ query {i j : Nat} {member other : α}, members[i]? = some member →
    members[j]? = some other → answers member query → answers other query → i = j

theorem exactLookup_of_nodup {α κ : Type} [BEq κ] [LawfulBEq κ] {members : List α} {key : α → κ}
    (hnodup : (members.map key).Nodup) {asked : String → κ} {answers : α → String → Prop}
    (hanswers : ∀ member query, answers member query ↔ key member = asked query) :
    ExactLookup members answers fun query => members.find? (key · == asked query) := by
  constructor
  · intro query member
    rw [hanswers]
    constructor
    · intro hfind
      exact ⟨List.mem_of_find?_eq_some hfind, by simpa using List.find?_some hfind⟩
    · rintro ⟨hmem, hkey⟩
      cases hfind : members.find? (key · == asked query) with
      | none =>
        have hmiss := List.find?_eq_none.mp hfind member hmem
        simp [hkey] at hmiss
      | some other =>
        have hother : key other = asked query := by simpa using List.find?_some hfind
        have hsame := List.inj_on_of_nodup_map hnodup (List.mem_of_find?_eq_some hfind) hmem
          (hother.trans hkey.symm)
        rw [hsame]
  · intro query i j member other hi hj hmember hother
    have hkeys : key member = key other :=
      ((hanswers member query).mp hmember).trans ((hanswers other query).mp hother).symm
    have hbound : i < (members.map key).length := by
      rw [List.length_map]
      exact (List.getElem?_eq_some_iff.mp hi).1
    apply (List.getElem?_inj hbound hnodup).mp
    rw [List.getElem?_map, List.getElem?_map, hi, hj, Option.map_some, Option.map_some, hkeys]

/-- A condition key that is declared and has a method, which is that of the member in its place. -/
def Service.HasMethod (service : Service) (key : String) : Prop :=
  ∃ (index : Nat) (condition : Service.ConditionKey) (member : ConditionMember),
    service.conditionKeys[index]? = some condition ∧ condition.key.raw = key ∧
      (Naming.ofService service).conditions[index]? = some member ∧
      (Naming.ofService service).conditionMethod? service key = some member.method

/-- A condition key that is declared has a method. -/
theorem Service.hasMethod_of_declared {service : Service} {key : String}
    (hdeclared : ∃ condition ∈ service.conditionKeys, condition.key.raw = key) :
    service.HasMethod key := by
  obtain ⟨method, hmethod⟩ := Naming.exists_conditionMethod hdeclared
  obtain ⟨index, hindex, hnamed⟩ := Option.bind_eq_some_iff.mp hmethod
  obtain ⟨member, hmember, hown⟩ := Option.bind_eq_some_iff.mp hnamed
  obtain ⟨hbound, hraw, -⟩ := List.findIdx?_eq_some_iff_getElem.mp hindex
  obtain rfl := Option.some.inj hown
  exact ⟨index, _, member, List.getElem?_eq_getElem hbound, by simpa using hraw, hmember, hmethod⟩

namespace Service

variable {record : Catalog.Record} {service : Service}

/-- Look-ups in an accepted service are exact and closed. An action is found under every spelling of
its name in which the case of letters is another, and under nothing else, and a resource type under
its name alone. The resource types of actions are found, and the condition keys of actions and
resource types have methods, each that of the member in the place of its key. -/
theorem lookups_exact (hok : ofRecord record = .ok service) :
    ExactLookup service.actions (fun action query => Text.Recased action.name query)
        service.action? ∧
      ExactLookup service.resourceTypes (fun resource query => resource.name = query)
        service.resourceType? ∧
      (∀ action ∈ service.actions, ∀ named ∈ action.resourceTypes,
        ∃ resource ∈ service.resourceTypes, resource.name = named.name ∧
          service.resourceType? named.name = some resource) ∧
      ∀ key, ((∃ action ∈ service.actions, key ∈ action.conditions) ∨
          ∃ resource ∈ service.resourceTypes, key ∈ resource.conditionKeys) →
        service.HasMethod key := by
  have hclosed := closed_of_ofRecord hok
  have hresources : ExactLookup service.resourceTypes (fun resource query => resource.name = query)
      service.resourceType? :=
    exactLookup_of_nodup hclosed.resourceTypesDistinct fun _ _ => Iff.rfl
  refine ⟨?_, hresources, ?_, ?_⟩
  · exact exactLookup_of_nodup hclosed.actionsDistinct fun _ _ => Text.toLower_eq_iff_recased.symm
  · intro action haction named hnamed
    obtain ⟨resource, hresource, hname⟩ := hclosed.actionResourceTypes action haction named hnamed
    exact ⟨resource, hresource, hname, (hresources.found _ _).mpr ⟨hresource, hname⟩⟩
  · rintro key (⟨action, haction, hkey⟩ | ⟨resource, hresource, hkey⟩)
    · exact hasMethod_of_declared (hclosed.actions action haction key hkey)
    · exact hasMethod_of_declared (hclosed.resourceTypes resource hresource key hkey)

theorem lookups_exact_fan :
    ∃ service action resource, ofRecord fan = .ok service ∧
      service.action? "sPIN" = some action ∧ action.name = "Spin" ∧
      service.resourceType? "blade" = some resource ∧ service.resourceType? "Blade" = none ∧
      service.HasMethod "aws:TagKeys" := by
  have hmembers : (ofRecord fan).toOption.map (fun service =>
      (service.actions.map (fun action => (action.name, action.conditions)),
        service.resourceTypes.map (·.name))) =
      some ([("Spin", ["aws:TagKeys", "fan:Speed"]), ("Stop", ["fan:Speed"])], ["blade"]) := by
    unfold ofRecord checkInOrder
    delta checkAction AccessLevel.ofLabel?
    -- Small letters are compared as lists, which are quicker to evaluate.
    simp only [Text.toLower_beq, Text.trim, String.toList_ofList, Text.isEmpty_ofList]
    decide +kernel
  obtain ⟨service, hok, hmembers⟩ := Failing.exists_of_toOption_map_eq_some hmembers
  obtain ⟨hactions, hresources⟩ := Prod.mk.inj hmembers
  obtain ⟨hexact, hnamed, -, hmethods⟩ := lookups_exact hok
  obtain ⟨action, haction, hspin⟩ := List.mem_map.mp (hactions ▸ List.mem_cons_self)
  obtain ⟨hname, hconditions⟩ := Prod.mk.inj hspin
  obtain ⟨resource, hresource, hblade⟩ := List.mem_map.mp (hresources ▸ List.mem_cons_self)
  have hcase : Text.Recased action.name "sPIN" :=
    Text.toLower_eq_iff_recased.mp (Text.toLower_eq_iff.mpr (by rw [hname]; decide))
  have hnone : service.resourceType? "Blade" = none := by
    cases hfind : service.resourceType? "Blade" with
    | none => rfl
    | some other =>
      obtain ⟨hother, hcapital⟩ := (hnamed.found _ _).mp hfind
      have hlisted := List.mem_map_of_mem (f := (·.name)) hother
      rw [hresources, hcapital] at hlisted
      exact absurd hlisted (by decide)
  have hmethod := hmethods "aws:TagKeys"
    (.inl ⟨action, haction, hconditions ▸ List.mem_cons_self⟩)
  exact ⟨service, action, resource, hok, (hexact.found _ _).mpr ⟨haction, hcase⟩, hname,
    (hnamed.found _ _).mpr ⟨hresource, hblade⟩, hnone, hmethod⟩

end Service

end PolicyForge
